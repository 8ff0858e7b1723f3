import AstraGate.Lib.Json

-- The texts that `json.dumps` writes and `json.loads` reads.
namespace Json

section Dumps

-- The characters that have an escape of their own, with the letter behind its backslash.
def letters : List (Char × Char) :=
  [('\x22', '\x22'), ('\\', '\\'), ('\x08', 'b'), ('\x0c', 'f'), ('\n', 'n'), ('\r', 'r'),
    ('\t', 't')]

def unicodeEscape (n : Nat) : List Char :=
  '\\' :: 'u' :: hexDigits 4 n

-- The code units of a character in UTF-16.
def units (c : Char) : List Nat :=
  let n := c.toNat
  if n < 0x10000 then [n] else [0xd800 + (n - 0x10000) / 1024, 0xdc00 + (n - 0x10000) % 1024]

-- A character of a text, with `ensure_ascii`.
def encodeChar (c : Char) : List Char :=
  match letters.lookup c with
  | some l => ['\\', l]
  | none   =>
    if 32 ≤ c.toNat ∧ c.toNat < 127 then [c] else (units c).flatMap unicodeEscape

def encodeStr (s : String) : List Char :=
  '\x22' :: (s.toList.flatMap encodeChar ++ ['\x22'])

def encodeInt (n : Int) : List Char :=
  (if n < 0 then ['-'] else []) ++ Nat.toDigits 10 n.natAbs

-- The text of a float by its `repr`.
def encodeFloat (repr : String) : List Char :=
  [("nan", "NaN"), ("inf", "Infinity"), ("-inf", "-Infinity")].lookup repr |>.getD repr |>.toList

mutual

def encode : Json → List Char
  | null                      => "null".toList
  | bool true                 => "true".toList
  | bool false                => "false".toList
  | int n                     => encodeInt n
  | float repr                => encodeFloat repr
  | str s                     => encodeStr s
  | list []                   => ['[', ']']
  | list (x :: xs)            => '[' :: (encode x ++ encodeItems xs)
  | dict []                   => ['\x7b', '\x7d']
  | dict ((key, x) :: fields) =>
    '\x7b' :: (encodeStr key ++ ':' :: ' ' :: (encode x ++ encodeFields fields))

-- What follows the first item of a list.
def encodeItems : List Json → List Char
  | []      => [']']
  | x :: xs => ',' :: ' ' :: (encode x ++ encodeItems xs)

-- What follows the first field of a `dict`.
def encodeFields : List (String × Json) → List Char
  | []                 => ['\x7d']
  | (key, x) :: fields =>
    ',' :: ' ' :: (encodeStr key ++ ':' :: ' ' :: (encode x ++ encodeFields fields))

end

-- `json.dumps(x)`
def dumps (x : Json) : String :=
  .ofList (encode x)

end Dumps

section Loads

def isBlank (c : Char) : Bool :=
  c ∈ [' ', '\t', '\n', '\r']

def skip (text : List Char) : List Char :=
  text.dropWhile isBlank

def unletter? (l : Char) : Option Char :=
  [('\x22', '\x22'), ('\\', '\\'), ('/', '/'), ('b', '\x08'), ('f', '\x0c'), ('n', '\n'),
    ('r', '\r'), ('t', '\t')].lookup l

def hexDigit? (c : Char) : Option Nat :=
  "0123456789abcdef".toList.idxOf? c.toLower

-- The number that four digits spell at the front of a text.
def scanHex (text : List Char) : Option (Nat × List Char) := do
  let digits ← (text.take 4).mapM hexDigit?
  if digits.length = 4 then some (digits.foldl (fun n d => 16 * n + d) 0, text.drop 4) else none

-- The first character of a text between quotes, by its code or that of a surrogate.
def scanUnit : List Char → Option (Nat × List Char)
  | []              => none
  | '\\' :: 'u' :: text => scanHex text
  | '\\' :: l :: text   => (unletter? l).map (·.toNat, text)
  | c :: text       => if c.toNat < 32 ∨ c = '\\' then none else some (c.toNat, text)

-- The rest of a text between quotes, with the closing quote.
def scanUnits : (fuel : Nat) → List Char → Option (List Nat × List Char)
  | 0, _                  => none
  | _ + 1, '\x22' :: text => some ([], text)
  | fuel + 1, text        => do
    let (n, text) ← scanUnit text
    let (ns, text) ← scanUnits fuel text
    return (n :: ns, text)

def isHigh (n : Nat) : Bool :=
  0xd800 ≤ n && n < 0xdc00

def isLow (n : Nat) : Bool :=
  0xdc00 ≤ n && n < 0xe000

-- The characters of a text. A surrogate that lacks the other one is no character.
def combine : List Nat → Option (List Char)
  | []      => some []
  | n :: ns =>
    if isHigh n then
      match ns with
      | []      => none
      | m :: ns =>
        if isLow m then
          (combine ns).map (.ofNat (0x10000 + (n - 0xd800) * 1024 + (m - 0xdc00)) :: ·)
        else none
    else if isLow n then none
    else (combine ns).map (.ofNat n :: ·)

def scanString (text : List Char) : Option (String × List Char) := do
  let (ns, rest) ← scanUnits (text.length + 1) text
  let cs ← combine ns
  return (.ofList cs, rest)

-- An optional part of a number: a point or a letter, with the digits that have to follow it.
def scanFraction : List Char → List Char × List Char
  | '.' :: text =>
    let (digits, rest) := text.span Char.isDigit
    if digits = [] then ([], '.' :: text) else ('.' :: digits, rest)
  | text        => ([], text)

def scanExponent : List Char → List Char × List Char
  | []        => ([], [])
  | e :: text =>
    let (sign, digits) := text.span (· ∈ ['+', '-'])
    let (digits, rest) := digits.span Char.isDigit
    if e ∈ ['e', 'E'] ∧ sign.length ≤ 1 ∧ digits ≠ [] then (e :: sign ++ digits, rest)
    else ([], e :: text)

-- The digits before the point.
def scanWhole : List Char → List Char × List Char
  | '0' :: text => (['0'], text)
  | text        => text.span Char.isDigit

-- `repr(float(text))`
variable (floatRepr : String → String)

def scanUnsigned (negative : Bool) (text : List Char) : Option (Json × List Char) :=
  let (whole, text) := scanWhole text
  let (fraction, text) := scanFraction text
  let (exponent, text) := scanExponent text
  if whole = [] then none
  else if fraction = [] ∧ exponent = [] then
    let n : Int := Nat.ofDigitChars 10 whole 0
    some (int (if negative then -n else n), text)
  else
    let sign := if negative then ['-'] else []
    some (float (floatRepr <| .ofList <| sign ++ whole ++ fraction ++ exponent), text)

def scanNumber : List Char → Option (Json × List Char)
  | '-' :: text => scanUnsigned floatRepr true text
  | text        => scanUnsigned floatRepr false text

-- The values that are spelled as one word.
def words : List (String × Json) :=
  [("null", null), ("true", bool true), ("false", bool false), ("NaN", float "nan"),
    ("Infinity", float "inf"), ("-Infinity", float "-inf")]

def scanWord (text : List Char) : Option (Json × List Char) :=
  words.findSome? fun (word, x) =>
    if word.toList.isPrefixOf text then some (x, text.drop word.length) else none

-- A `dict` of the fields in a text: a key that comes twice keeps its place, with its last value.
def ofFields (fields : List (String × Json)) : Json :=
  dict <| fields.foldl (fun fields field => Fields.set fields field.1 field.2) []

mutual

def scanValue : (fuel : Nat) → List Char → Option (Json × List Char)
  | 0, _           => none
  | fuel + 1, text =>
    match text with
    | '\x22' :: text => (scanString text).map (Prod.map str id)
    | '[' :: text    =>
      match skip text with
      | ']' :: text => some (list [], text)
      | text        => (scanItems fuel text).map (Prod.map list id)
    | '\x7b' :: text =>
      match skip text with
      | '\x7d' :: text => some (dict [], text)
      | text           => (scanFields fuel text).map (Prod.map ofFields id)
    | text           => scanWord text <|> scanNumber floatRepr text

-- The items of a list, with the closing bracket.
def scanItems : (fuel : Nat) → List Char → Option (List Json × List Char)
  | 0, _           => none
  | fuel + 1, text => do
    let (x, text) ← scanValue fuel text
    match skip text with
    | ']' :: text => return ([x], text)
    | ',' :: text =>
      let (xs, text) ← scanItems fuel (skip text)
      return (x :: xs, text)
    | _           => none

-- The fields of a `dict`, with the closing brace.
def scanFields : (fuel : Nat) → List Char → Option (List (String × Json) × List Char)
  | 0, _           => none
  | fuel + 1, text =>
    match text with
    | '\x22' :: text => do
      let (key, text) ← scanString text
      match skip text with
      | ':' :: text =>
        let (x, text) ← scanValue fuel (skip text)
        match skip text with
        | '\x7d' :: text => return ([(key, x)], text)
        | ',' :: text    =>
          let (fields, text) ← scanFields fuel (skip text)
          return ((key, x) :: fields, text)
        | _              => none
      | _           => none
    | _              => none

end

-- `json.loads(text)`: `none` where it raises `JSONDecodeError`.
def loads (text : String) : Option Json :=
  match scanValue floatRepr (text.length + 1) (skip text.toList) with
  | some (x, rest) => if skip rest = [] then some x else none
  | none           => none

end Loads
end Json
