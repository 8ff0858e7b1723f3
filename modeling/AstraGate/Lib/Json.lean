import AstraGate.Lib.Python

open Python

-- What `json.loads` returns. The entries of a `dict` are in the order of their insertion, and a
-- `float` is known by its `repr` only.
inductive Json
  | null
  | bool (b : Bool)
  | int (n : Int)
  | float (repr : String)
  | str (s : String)
  | list (xs : List Json)
  | dict (fields : List (String × Json))

namespace Json

abbrev Fields := List (String × Json)

def truthy : Json → Bool
  | null        => false
  | bool b      => b
  | int n       => n ≠ 0
  | float repr  => repr ∉ ["0.0", "-0.0"]
  | str s       => s ≠ ""
  | list xs     => !xs.isEmpty
  | dict fields => !fields.isEmpty

section Str

-- `str.isprintable` of the characters beyond ASCII.
variable (isPrintable : Char → Bool)

def hexDigits : (count n : Nat) → List Char
  | 0, _         => []
  | count + 1, n => hexDigits count (n / 16) ++ [Nat.digitChar (n % 16)]

-- A character of a text, as `repr` spells it between two `quote`s.
def escape (quote c : Char) : List Char :=
  let n := c.toNat
  if c = quote ∨ c = '\\' then ['\\', c]
  else if c = '\n' then ['\\', 'n']
  else if c = '\r' then ['\\', 'r']
  else if c = '\t' then ['\\', 't']
  else if n < 32 ∨ n = 127 then '\\' :: 'x' :: hexDigits 2 n
  else if n < 127 ∨ isPrintable c then [c]
  else if n < 256 then '\\' :: 'x' :: hexDigits 2 n
  else if n < 65536 then '\\' :: 'u' :: hexDigits 4 n
  else '\\' :: 'U' :: hexDigits 8 n

def reprStr (s : String) : String :=
  let quote := if '\x27' ∈ s.toList ∧ '\x22' ∉ s.toList then '\x22' else '\x27'
  .ofList <| quote :: s.toList.flatMap (escape isPrintable quote) ++ [quote]

mutual

def repr : Json → String
  | null        => "None"
  | bool true   => "True"
  | bool false  => "False"
  | int n       => toString n
  | float repr  => repr
  | str s       => reprStr isPrintable s
  | list xs     => "[" ++ ", ".intercalate (reprList xs) ++ "]"
  | dict fields => "\x7b" ++ ", ".intercalate (reprFields fields) ++ "\x7d"

def reprList : List Json → List String
  | []      => []
  | x :: xs => repr x :: reprList xs

def reprFields : List (String × Json) → List String
  | []                 => []
  | (key, x) :: fields => (reprStr isPrintable key ++ ": " ++ repr x) :: reprFields fields

end

-- `str(x)`
def toStr : Json → String
  | str s => s
  | x     => repr isPrintable x

end Str

theorem infix_intercalate {sep s : String} {texts : List String} (h : s ∈ texts) :
    s.toList <:+: (sep.intercalate texts).toList := by
  rw [String.toList_intercalate, List.intercalate]
  refine List.infix_of_mem_flatten ?_
  have hm : s.toList ∈ texts.map String.toList := List.mem_map_of_mem h
  generalize texts.map String.toList = ts at hm
  induction ts using List.twoStepInduction
  case nil => cases hm
  case singleton t => exact hm
  case cons_cons t t' ts _ ih =>
    obtain rfl | hm := List.mem_cons.mp hm
    · simp
    · simp [ih t' hm]

section Repr

variable {isPrintable : Char → Bool}

-- Between these `repr` puts a text.
def quote (s : String) : Char :=
  if '\x27' ∈ s.toList ∧ '\x22' ∉ s.toList then '\x22' else '\x27'

-- A part of a text that `repr` spells as it is.
def Verbatim (isPrintable : Char → Bool) (s : String) (part : List Char) : Prop :=
  ∀ c ∈ part, escape isPrintable (quote s) c = [c]

theorem Verbatim.flatMap_escape {s : String} (h : Verbatim isPrintable s part) :
    part.flatMap (escape isPrintable (quote s)) = part := by
  induction part
  case nil => rfl
  case cons c cs ih =>
    have ⟨hc, hcs⟩ := List.forall_mem_cons.mp h
    rw [List.flatMap_cons, hc, ih hcs, List.singleton_append]

theorem infix_reprStr {s : String} (h : part <:+: s.toList) (hv : Verbatim isPrintable s part) :
    part <:+: (reprStr isPrintable s).toList := by
  have ⟨before, after, hs⟩ := h
  have hr : (reprStr isPrintable s).toList =
      quote s :: s.toList.flatMap (escape isPrintable (quote s)) ++ [quote s] :=
    String.toList_ofList
  rw [hr, ← hs, List.flatMap_append, List.flatMap_append, hv.flatMap_escape]
  exact (List.infix_append ..).trans <| List.infix_append [quote s] _ [quote s]

theorem reprList_eq (xs : List Json) : reprList isPrintable xs = xs.map (repr isPrintable) := by
  induction xs
  case nil          => rfl
  case cons x xs ih => rw [reprList, ih, List.map_cons]

theorem reprFields_eq (fields : Fields) : reprFields isPrintable fields =
    fields.map fun (key, x) => reprStr isPrintable key ++ ": " ++ repr isPrintable x := by
  induction fields
  case nil                => rfl
  case cons field fields ih => rw [reprFields, ih, List.map_cons]

theorem infix_repr_list {xs : List Json} (h : x ∈ xs) :
    (repr isPrintable x).toList <:+: (repr isPrintable (list xs)).toList := by
  have hm := List.mem_map_of_mem (f := repr isPrintable) h
  rw [repr, reprList_eq, String.toList_append, String.toList_append]
  exact (infix_intercalate hm).trans <| List.infix_append ..

theorem infix_repr_dict {fields : Fields} (h : (key, x) ∈ fields) :
    (repr isPrintable x).toList <:+: (repr isPrintable (dict fields)).toList := by
  have hm : reprStr isPrintable key ++ ": " ++ repr isPrintable x ∈
      fields.map fun (key, x) => reprStr isPrintable key ++ ": " ++ repr isPrintable x :=
    List.mem_map.mpr ⟨_, h, rfl⟩
  rw [repr, reprFields_eq, String.toList_append, String.toList_append]
  refine List.IsInfix.trans ?_ <| (infix_intercalate hm).trans <| List.infix_append ..
  rw [String.toList_append]
  exact (List.suffix_append ..).isInfix

end Repr

-- `fields.get(key, default)`
def Fields.get (fields : Fields) (key : String) (default : Json) : Json :=
  fields.lookup key |>.getD default

-- `fields[key] = x`
def Fields.set (fields : Fields) (key : String) (x : Json) : Fields :=
  match fields with
  | []                   => [(key, x)]
  | (key', x') :: fields =>
    if key' = key then (key, x) :: fields else (key', x') :: set fields key x

theorem Fields.get_set_self {fields : Fields} {default : Json} :
    (fields.set key x).get key default = x := by
  have hl : (fields.set key x).lookup key = some x := by
    induction fields
    case nil => simp [set]
    case cons field fields ih =>
      have ⟨key', x'⟩ := field
      by_cases hk : key' = key
      case pos => subst hk; simp [set]
      case neg =>
        have hb : (key == key') = false := beq_false_of_ne (Ne.symm hk)
        simp only [set, hk, if_false, List.lookup_cons, hb, ih]
  rw [get, hl, Option.getD_some]

theorem Fields.get_set_of_ne {fields : Fields} {default : Json} (h : key ≠ key') :
    (fields.set key' x).get key default = fields.get key default := by
  have hl : (fields.set key' x).lookup key = fields.lookup key := by
    have hb : (key == key') = false := beq_false_of_ne h
    induction fields
    case nil => simp [set, List.lookup_cons, hb]
    case cons field fields ih =>
      have ⟨key'', x'⟩ := field
      by_cases hk : key'' = key'
      case pos => subst hk; simp [set, List.lookup_cons, hb]
      case neg => simp only [set, hk, if_false, List.lookup_cons, ih]
  rw [get, get, hl]

-- `x.get(key, default)`
def get (x : Json) (key : String) (default : Json) : Except Error Json :=
  match x with
  | dict fields => .ok (Fields.get fields key default)
  | _           => .error .attributeError

-- The values that `for … in x` goes through.
def iter : Json → Except Error (List Json)
  | list xs     => .ok xs
  | dict fields => .ok (fields.map fun (key, _) => str key)
  | str s       => .ok (s.toList.map fun c => str (.singleton c))
  | _           => .error .typeError

-- `x[0]`
def head : Json → Except Error Json
  | list (x :: _) => .ok x
  | list []       => .error .indexError
  | str s         =>
    match s.toList with
    | c :: _ => .ok (str (.singleton c))
    | []     => .error .indexError
  | dict _        => .error .keyError
  | _             => .error .typeError

-- `x[key]`
def item (key : String) : Json → Except Error Json
  | dict fields =>
    match fields.lookup key with
    | some x => .ok x
    | none   => .error .keyError
  | _           => .error .typeError

def isStr (s : String) : Json → Bool
  | str s' => s' = s
  | _      => false

-- `key in x`
def contains (key : String) : Json → Except Error Bool
  | dict fields => .ok (fields.lookup key).isSome
  | list xs     => .ok (xs.any (isStr key))
  | str s       => .ok (decide (Contains s key))
  | _           => .error .typeError

def isTrue : Json → Bool
  | bool b => b
  | _      => false

-- `int` of a `str`, and of a `float`, which is known by its `repr`.
structure IntOf where
  str   : String → Except Error Int
  float : String → Except Error Int

-- `int(x)`
def toInt (intOf : IntOf) : Json → Except Error Int
  | bool b     => .ok (if b then 1 else 0)
  | int n      => .ok n
  | float repr => intOf.float repr
  | str s      => intOf.str s
  | _          => .error .typeError

-- `text + x` for a text on the left.
def append (text : String) : Json → Except Error String
  | str s => .ok (text ++ s)
  | _     => .error .typeError

section Dict

variable {fields : Fields} {key : String}

@[simp]
theorem get_dict {default : Json} : (dict fields).get key default = pure (fields.get key default) :=
  rfl

@[simp]
theorem contains_dict : (dict fields).contains key = pure (fields.lookup key).isSome :=
  rfl

theorem item_dict : (dict fields).item key =
    match fields.lookup key with
    | some x => pure x
    | none   => .error .keyError :=
  rfl

@[simp]
theorem head_list : (list (x :: xs)).head = pure x :=
  rfl

@[simp]
theorem append_str : (str s).append text = pure (text ++ s) :=
  rfl

@[simp]
theorem truthy_list_cons : (list (x :: xs)).truthy = true :=
  rfl

theorem truthy_null : null.truthy = false :=
  rfl

@[simp]
theorem truthy_list_nil : (list []).truthy = false :=
  rfl

end Dict
end Json
