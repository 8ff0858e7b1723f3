import AstraGate.Lib.Python
import Mathlib.Data.Rat.Floor

namespace Decimal

-- The constructor rounds nothing: the exponents are those of the widest context.
def Limits (coefficient : ℕ) (exponent : ℤ) : Prop :=
  -1999999999999999997 ≤ exponent ∧
    exponent + (Nat.toDigits 10 coefficient).length ≤ 1000000000000000000

instance : Decidable (Limits coefficient exponent) :=
  inferInstanceAs (Decidable (_ ∧ _))

-- A decimal that is finite and not negative, with the digits that it was written with.
structure Unsigned where
  coefficient : ℕ
  exponent    : ℤ
  limits      : Limits coefficient exponent
deriving DecidableEq

def Unsigned.value (d : Unsigned) : ℚ :=
  d.coefficient * 10 ^ d.exponent

def Unsigned.of? (coefficient : ℕ) (exponent : ℤ) : Option Unsigned :=
  if h : Limits coefficient exponent then some ⟨coefficient, exponent, h⟩ else none

theorem Unsigned.of?_eq (d : Unsigned) : of? d.coefficient d.exponent = some d :=
  dif_pos d.limits

structure Signed where
  negative  : Bool
  magnitude : Unsigned
deriving DecidableEq

def Signed.value (d : Signed) : ℚ :=
  if d.negative then -d.magnitude.value else d.magnitude.value

end Decimal

-- Values of Python's `decimal.Decimal`.
inductive Decimal
  | finite (d : Decimal.Signed)
  | infinity (negative : Bool)
  | nan
deriving DecidableEq

namespace Decimal

def ofDigits (digits : List Char) : Nat :=
  digits.foldl (fun n d => 10 * n + (d.toNat - '0'.toNat)) 0

def parseNat (text : List Char) : Option Nat :=
  if text ≠ [] ∧ text.all Char.isDigit then some (ofDigits text) else none

-- What may follow the digits of a number.
def parseExponent : List Char → Option Int
  | []               => some 0
  | 'e' :: '-' :: ds => (parseNat ds).map fun n => -n
  | 'e' :: '+' :: ds => (parseNat ds).map fun n => n
  | 'e' :: ds        => (parseNat ds).map fun n => n
  | _                => none

def parseUnsigned (text : List Char) : Option Unsigned := do
  let (whole, rest) := text.span Char.isDigit
  let (fraction, rest) := match rest with
    | '.' :: rest => rest.span Char.isDigit
    | rest        => ([], rest)
  let exponent ← parseExponent rest
  let digits ← parseNat (whole ++ fraction)
  Unsigned.of? digits (exponent - fraction.length)

-- Infinities and NaNs, spelled in lower case.
def parseSpecial (negative : Bool) : List Char → Option Decimal
  | ['i', 'n', 'f'] | ['i', 'n', 'f', 'i', 'n', 'i', 't', 'y'] => some (infinity negative)
  | 'n' :: 'a' :: 'n' :: payload | 's' :: 'n' :: 'a' :: 'n' :: payload =>
    if payload.all Char.isDigit then some nan else none
  | _ => none

-- The constructor `Decimal(text)` on a string: `none` where it raises `InvalidOperation`. Blanks
-- around the number and underscores in it are ignored, and so is the case. Digits may be those of
-- any script.
def parse (text : String) : Option Decimal :=
  match (Python.strip text.toList).filter (· ≠ '_') |>.map (Char.toLower ∘ Python.asciiDigit) with
  | '-' :: text => (parseUnsigned text).map (finite ⟨true, ·⟩) <|> parseSpecial true text
  | '+' :: text => (parseUnsigned text).map (finite ⟨false, ·⟩) <|> parseSpecial false text
  | text        => (parseUnsigned text).map (finite ⟨false, ·⟩) <|> parseSpecial false text

def toRat? : Decimal → Option ℚ
  | finite d => some d.value
  | _        => none

-- `int(q)`, which drops what is behind the point.
def truncate (q : ℚ) : ℤ :=
  q.num.tdiv q.den

-- `f"{q:.<places>f}"`, which rounds halves to even.
def format (places : Nat) (q : ℚ) : String :=
  let scaled := |q| * 10 ^ places
  let floor := ⌊scaled⌋.toNat
  let up := 2⁻¹ < scaled - floor ∨ scaled - floor = 2⁻¹ ∧ floor % 2 = 1
  let n := if up then floor + 1 else floor
  let digits := toString (n % 10 ^ places)
  let zeros := "".pushn '0' (places - digits.length)
  (if q < 0 then "-" else "") ++ toString (n / 10 ^ places) ++ "." ++ zeros ++ digits

end Decimal
