import AstraGate.Models.Credit
import Mathlib.Data.List.Sort

namespace Usage

-- A row of `usage_records` with the email of its user and the prefix of its key, which are found by
-- foreign keys that are not null.
structure ExportRow where
  createdAt       : Time
  email           : String
  keyPrefix       : String
  modelName       : String
  providerName    : String
  inputTokens     : Int
  outputTokens    : Int
  baseCostUsd     : ℚ
  markupRate      : ℚ
  billedAmountUsd : ℚ
  latencyMs       : Option Int
  cacheHit        : Bool
  status          : String
deriving DecidableEq

-- What the writer of the CSV is given for a column. A float is the one nearest to the decimal.
inductive Cell
  | text (value : String)
  | isoformat (value : Time)
  | int (value : Int)
  | float (value : ℚ)
  | bool (value : Bool)
deriving DecidableEq

def csvHeader : List Cell := [
  .text "timestamp",
  .text "customer_email",
  .text "virtual_key_prefix",
  .text "model",
  .text "provider",
  .text "input_tokens",
  .text "output_tokens",
  .text "base_cost_usd",
  .text "markup_rate",
  .text "billed_amount_usd",
  .text "latency_ms",
  .text "cache_hit",
  .text "status"]

-- `latency_ms or ""`
def latencyCell (latencyMs : Option Int) : Cell :=
  latencyMs |>.filter (· ≠ 0) |>.elim (.text "") .int

def csvRow (row : ExportRow) : List Cell := [
  .isoformat row.createdAt,
  .text row.email,
  .text row.keyPrefix,
  .text row.modelName,
  .text row.providerName,
  .int row.inputTokens,
  .int row.outputTokens,
  .float row.baseCostUsd,
  .float row.markupRate,
  .float row.billedAmountUsd,
  latencyCell row.latencyMs,
  .bool row.cacheHit,
  .text row.status]

def chunkSize : Nat :=
  500

section Query

variable (startDate endDate : Option Time)

def inRange (row : ExportRow) : Bool :=
  startDate.all (· ≤ row.createdAt) && endDate.all (row.createdAt ≤ ·)

-- The rows of the range, in the order of `ORDER BY created_at DESC`.
def selectRange (rows : List ExportRow) : List ExportRow :=
  rows.filter (inRange startDate endDate)
    |>.insertionSort (fun r₁ r₂ => r₂.createdAt ≤ r₁.createdAt)

def selectPage (offset : Nat) (rows : List ExportRow) : List ExportRow :=
  selectRange startDate endDate rows |>.drop offset |>.take chunkSize

end Query
end Usage
