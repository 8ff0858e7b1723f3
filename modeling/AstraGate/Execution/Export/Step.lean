import AstraGate.Api.Usage
import AstraGate.Lib.Steps

namespace Export

open Usage

-- The committed rows, and the generator of `export_usage_records`.
structure State where
  rows    : List ExportRow
  offset  : Nat
  emitted : List ExportRow
  done    : Bool

namespace State

variable (startDate endDate : Option Time) (s : State)

-- A round of the loop of the generator.
def query : State :=
  match selectPage startDate endDate s.offset s.rows with
  | []   => { s with done := true }
  | rows => { s with offset := s.offset + chunkSize, emitted := s.emitted ++ rows }

def insert (row : ExportRow) : State :=
  { s with rows := s.rows ++ [row] }

-- What the generator has yielded.
def csv : List (List Cell) :=
  csvHeader :: s.emitted.map csvRow

-- The export starts, and no two rows have been created at the same time.
structure Initial (s : State) : Prop where
  distinct : (s.rows.map ExportRow.createdAt).Nodup
  offset   : s.offset = 0
  emitted  : s.emitted = []
  running  : s.done = false

end State

-- Each query reads the rows that are committed, and new rows are later than those that are.
inductive Step (startDate endDate : Option Time) (s : State) : State → Type
  | insert (row : ExportRow) (later : ∀ r ∈ s.rows, r.createdAt < row.createdAt) :
    Step startDate endDate s (s.insert row)
  | query (running : s.done = false) : Step startDate endDate s (s.query startDate endDate)

abbrev Run (startDate endDate : Option Time) := Steps (Step startDate endDate)

-- The number of queries that a step takes.
def Step.queries {s s' : State} : Step startDate endDate s s' → Nat
  | insert .. => 0
  | query _   => 1

end Export
