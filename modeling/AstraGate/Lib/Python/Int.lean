import AstraGate.Lib.Decimal.Spelling

-- How the interpreter reads whole numbers.
namespace Python

-- White space of ASCII, less the separators 28 to 31.
def isAsciiSpace (c : Char) : Bool :=
  (9 ≤ c.toNat && c.toNat ≤ 13) || c = ' '

-- Blanks and digits of other scripts are read as those of ASCII.
def toAscii (c : Char) : Char :=
  if 127 ≤ c.toNat ∧ isSpace c then ' ' else asciiDigit c

def digit? (base : Nat) (c : Char) : Option Nat :=
  let n :=
    if c.isDigit then c.toNat - '0'.toNat
    else if c.isLower then c.toNat - 'a'.toNat + 10
    else if c.isUpper then c.toNat - 'A'.toNat + 10
    else base
  if n < base then some n else none

-- The rest of a text of digits, of which some can follow an underscore.
def scanDigits (base n : Nat) : List Char → Option Nat
  | []             => some n
  | '_' :: c :: cs => (digit? base c).bind fun d => scanDigits base (base * n + d) cs
  | c :: cs        => (digit? base c).bind fun d => scanDigits base (base * n + d) cs

-- A text of digits that begins with one of them.
def digits? (base : Nat) : List Char → Option Nat
  | '_' :: _ | [] => none
  | cs            => scanDigits base 0 cs

-- What follows the prefix `0x`, behind which an underscore is allowed.
def hexDigits? : List Char → Option Nat
  | '0' :: 'x' :: '_' :: cs | '0' :: 'X' :: '_' :: cs => digits? 16 cs
  | '0' :: 'x' :: cs | '0' :: 'X' :: cs               => digits? 16 cs
  | cs                                                => digits? 16 cs

def unsigned? (base : Nat) (text : List Char) : Option Nat :=
  if base = 16 then hexDigits? text else digits? base text

-- `int(text, base)`, for the bases 10 and 16.
def int? (base : Nat) (text : List Char) : Option Int :=
  match stripBy isAsciiSpace (text.map toAscii) with
  | '-' :: cs => (unsigned? base cs).map fun n => -n
  | '+' :: cs => (unsigned? base cs).map fun n => n
  | cs        => (unsigned? base cs).map fun n => n

section

variable {base n d : Nat} {c : Char} {cs ds : List Char}

-- The digits of any base are among the digits and letters of ASCII.
theorem isAlphanum_of_digit? (h : (digit? base c).isSome) : c.isAlphanum := by
  by_contra hn
  have ha : ¬((c.isUpper || c.isLower) || c.isDigit) := hn
  simp only [Bool.or_eq_true, not_or] at ha
  obtain ⟨⟨hu, hl⟩, hd⟩ := ha
  rw [digit?, if_neg hd, if_neg hl, if_neg hu] at h
  simp at h

theorem toNat_of_isAlphanum (h : c.isAlphanum) : 48 ≤ c.toNat ∧ c.toNat < 127 ∧ c.toNat ≠ 95 := by
  have ht : c.val.toNat = c.toNat := rfl
  have ha : ((decide (65 ≤ c.val ∧ c.val ≤ 90)) || (97 ≤ c.val && c.val ≤ 122)) ||
    (48 ≤ c.val && c.val ≤ 57) := h
  simp [UInt32.le_iff_toNat_le] at ha
  omega

theorem toAscii_of_isAlphanum (h : c.isAlphanum) : toAscii c = c := by
  have hn := (toNat_of_isAlphanum h).right.left
  rw [toAscii, if_neg (fun h => hn.not_ge h.left), asciiDigit_eq_self (by omega)]

theorem isAsciiSpace_of_isAlphanum (h : c.isAlphanum) : isAsciiSpace c = false := by
  have hn := (toNat_of_isAlphanum h).left
  have hs : c ≠ ' ' := by rintro rfl; cases h
  simp [isAsciiSpace, hs]
  omega

theorem ne_underscore_of_isAlphanum (h : c.isAlphanum) : c ≠ '_' := by
  rintro rfl
  cases h

-- The number with these digits.
def ofDigits (base : Nat) (cs : List Char) : Nat :=
  cs.foldl (fun n c => base * n + (digit? base c).getD 0) 0

theorem ofDigits_append : ofDigits base (cs ++ ds) =
    ds.foldl (fun n c => base * n + (digit? base c).getD 0) (ofDigits base cs) :=
  List.foldl_append

theorem scanDigits_eq (h : ∀ c ∈ cs, (digit? base c).isSome) :
    scanDigits base n cs = some (cs.foldl (fun n c => base * n + (digit? base c).getD 0) n) := by
  induction cs generalizing n
  case nil => rfl
  case cons c cs ih =>
    have ⟨hc, hcs⟩ := List.forall_mem_cons.mp h
    have hu := ne_underscore_of_isAlphanum (isAlphanum_of_digit? hc)
    have ⟨d, hd⟩ := Option.isSome_iff_exists.mp hc
    rw [scanDigits.eq_def]
    split
    case h_1 => contradiction
    case h_2 he => cases he; exact absurd rfl hu
    case h_3 he =>
      cases he
      rw [hd, Option.bind_some, ih hcs, List.foldl_cons, hd, Option.getD_some]

theorem digits?_eq (h : ∀ c ∈ cs, (digit? base c).isSome) (hn : cs ≠ []) :
    digits? base cs = some (ofDigits base cs) := by
  unfold digits?
  split
  case h_1 =>
    have hu := isAlphanum_of_digit? (h '_' List.mem_cons_self)
    cases ne_underscore_of_isAlphanum hu rfl
  case h_2 => exact absurd rfl hn
  case h_3 => exact scanDigits_eq h

theorem hexDigits?_eq (h : ∀ c ∈ cs, (digit? 16 c).isSome) : hexDigits? cs = digits? 16 cs := by
  have hx : ∀ c ∈ cs, c ≠ 'x' ∧ c ≠ 'X' := by
    intro c hc
    have hd := h c hc
    constructor <;> rintro rfl <;> revert hd <;> decide
  unfold hexDigits?
  split <;> simp_all

-- A text of digits is read as the number with these digits.
theorem int?_eq (h : ∀ c ∈ cs, (digit? base c).isSome) (hn : cs ≠ []) :
    int? base cs = some (ofDigits base cs : Int) := by
  have ha : ∀ c ∈ cs, c.isAlphanum := fun c hc => isAlphanum_of_digit? (h c hc)
  have hm : cs.map toAscii = cs :=
    (List.map_congr_left fun c hc => toAscii_of_isAlphanum (ha c hc)).trans cs.map_id
  have hu : unsigned? base cs = some (ofDigits base cs) := by
    unfold unsigned?
    split
    case isTrue hb  => subst hb; rw [hexDigits?_eq h, digits?_eq h hn]
    case isFalse hb => exact digits?_eq h hn
  rw [int?, hm, stripBy_eq_self fun c hc => isAsciiSpace_of_isAlphanum (ha c hc)]
  split
  case h_1 => cases ha '-' List.mem_cons_self
  case h_2 => cases ha '+' List.mem_cons_self
  case h_3 => rw [hu]; rfl

theorem digit?_digitChar (h : d < base) (hb : base ≤ 16) :
    digit? base (Nat.digitChar d) = some d := by
  have hd : ∀ base ≤ 16, ∀ d < base, digit? base (Nat.digitChar d) = some d := by decide
  exact hd base hb d h

end

theorem int?_toString (n : Nat) : int? 10 (toString n).toList = some (n : Int) := by
  have hl : (toString n).toList = Nat.toDigits 10 n := by simp
  have hd : ∀ c ∈ Nat.toDigits 10 n, c.isDigit :=
    fun c hc => Nat.isDigit_of_mem_toDigits (by decide) (by decide) hc
  have hv : ∀ c : Char, c.isDigit → digit? 10 c = some (c.toNat - '0'.toNat) := by
    intro c hc
    have hn := Decimal.toNat_of_isDigit hc
    rw [digit?, if_pos hc]
    exact if_pos (show c.toNat - 48 < 10 by omega)
  have ho : Nat.ofDigitChars 10 (Nat.toDigits 10 n) 0 = n := Nat.ofDigitChars_ten_toDigits
  have hf : ofDigits 10 (Nat.toDigits 10 n) = n := by
    rw [Nat.ofDigitChars_eq_foldl] at ho
    refine (List.foldl_ext _ _ 0 fun m c hc => ?_).trans ho
    rw [hv c (hd c hc), Option.getD_some]
  have hs : ∀ c ∈ Nat.toDigits 10 n, (digit? 10 c).isSome := by
    intro c hc
    rw [hv c (hd c hc)]
    rfl
  rw [hl, int?_eq hs Nat.toDigits_ne_nil, hf]

end Python
