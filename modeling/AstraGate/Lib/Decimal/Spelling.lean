import AstraGate.Lib.Decimal

-- How `str` spells a decimal, and that it is read back.
namespace Decimal

open Python

namespace Unsigned

-- `f"{n:+d}"`
def signed (n : ℤ) : List Char :=
  (if n < 0 then '-' else '+') :: Nat.toDigits 10 n.natAbs

-- The digits before and after the point, and the exponent after them.
def spell (d : Unsigned) : List Char × List Char × ℤ :=
  let digits := Nat.toDigits 10 d.coefficient
  let leftDigits := d.exponent + digits.length
  let dotPlace := if d.exponent ≤ 0 ∧ -6 < leftDigits then leftDigits else 1
  if dotPlace ≤ 0 then
    (['0'], List.replicate dotPlace.natAbs '0' ++ digits, leftDigits - dotPlace)
  else
    (digits.take dotPlace.toNat ++ List.replicate (dotPlace.toNat - digits.length) '0',
      digits.drop dotPlace.toNat, leftDigits - dotPlace)

def fractionText (fraction : List Char) : List Char :=
  if fraction = [] then [] else '.' :: fraction

def exponentText (letter : Char) (exponent : ℤ) : List Char :=
  if exponent = 0 then [] else letter :: signed exponent

-- `str(d)`
def str (d : Unsigned) : String :=
  let (whole, fraction, exponent) := d.spell
  .ofList (whole ++ fractionText fraction ++ exponentText 'E' exponent)

end Unsigned

open Unsigned

section Parse

variable {digits whole fraction rest : List Char} {exponent : ℤ} {c : Char} {n : ℕ}

def AllDigits (digits : List Char) : Prop :=
  ∀ c ∈ digits, c.isDigit

theorem AllDigits.append (h : AllDigits digits) (h' : AllDigits whole) :
    AllDigits (digits ++ whole) :=
  List.forall_mem_append.mpr ⟨h, h'⟩

theorem allDigits_toDigits (n : ℕ) : AllDigits (Nat.toDigits 10 n) :=
  fun _ hc => Nat.isDigit_of_mem_toDigits (by decide) (by decide) hc

theorem allDigits_replicate (n : ℕ) : AllDigits (List.replicate n '0') := by
  intro c hc
  rw [List.eq_of_mem_replicate hc]
  rfl

theorem ofDigits_append : ofDigits (digits ++ whole) =
    whole.foldl (fun n d => 10 * n + (d.toNat - '0'.toNat)) (ofDigits digits) :=
  List.foldl_append

theorem ofDigits_toDigits (n : ℕ) : ofDigits (Nat.toDigits 10 n) = n := by
  have h : Nat.ofDigitChars 10 (Nat.toDigits 10 n) 0 = n := Nat.ofDigitChars_ten_toDigits
  rwa [Nat.ofDigitChars_eq_foldl] at h

theorem ofDigits_replicate_append (n : ℕ) :
    ofDigits (List.replicate n '0' ++ digits) = ofDigits digits := by
  have hz : ofDigits (List.replicate n '0') = 0 := by
    induction n
    case zero      => rfl
    case succ n ih => exact ih
  rw [ofDigits_append, hz, ofDigits]

theorem parseNat_eq (h : AllDigits digits) (hn : digits ≠ []) :
    parseNat digits = some (ofDigits digits) :=
  if_pos ⟨hn, List.all_eq_true.mpr h⟩

theorem span_eq (h : AllDigits digits) (hr : ∀ c ∈ rest.head?, c.isDigit = false) :
    (digits ++ rest).span Char.isDigit = (digits, rest) := by
  rw [List.span_eq_takeWhile_dropWhile]
  have ht : rest.takeWhile Char.isDigit = [] ∧ rest.dropWhile Char.isDigit = rest := by
    cases rest
    case nil       => exact ⟨rfl, rfl⟩
    case cons c cs => simp [hr c rfl]
  rw [List.takeWhile_append_of_pos h, List.dropWhile_append_of_pos h, ht.left, ht.right,
    List.append_nil]
theorem parseExponent_exponentText (exponent : ℤ) :
    parseExponent (exponentText 'e' exponent) = some exponent := by
  have hp : parseNat (Nat.toDigits 10 exponent.natAbs) = some exponent.natAbs := by
    rw [parseNat_eq (allDigits_toDigits _) Nat.toDigits_ne_nil, ofDigits_toDigits]
  unfold exponentText signed
  by_cases h : exponent = 0
  case pos => simp [h, parseExponent]
  case neg =>
    by_cases hn : exponent < 0
    case pos => simp [h, hn, parseExponent, hp, abs_of_neg]
    case neg => simp [h, hn, parseExponent, hp, abs_of_nonneg (not_lt.mp hn)]

theorem exponentText_cases (exponent : ℤ) :
    exponentText 'e' exponent = [] ∨ ∃ cs, exponentText 'e' exponent = 'e' :: cs := by
  unfold exponentText
  split
  case isTrue  => exact .inl rfl
  case isFalse => exact .inr ⟨_, rfl⟩

theorem parseUnsigned_eq (exponent : ℤ) (hw : AllDigits whole) (hf : AllDigits fraction)
    (hn : whole ≠ []) :
    parseUnsigned (whole ++ fractionText fraction ++ exponentText 'e' exponent) =
      Unsigned.of? (ofDigits (whole ++ fraction)) (exponent - fraction.length) := by
  have he : ∀ c ∈ (exponentText 'e' exponent).head?, c.isDigit = false := by
    cases exponentText_cases exponent
    case inl he => simp [he]
    case inr he => have ⟨cs, he⟩ := he; simp [he]
  have hp := parseExponent_exponentText exponent
  have hd := parseNat_eq (hw.append hf) (by simp [hn])
  have hs' := span_eq hf he
  rw [parseUnsigned, List.append_assoc]
  by_cases h : fraction = []
  case pos =>
    subst h
    rw [fractionText, if_pos rfl, List.nil_append, span_eq hw he]
    cases exponentText_cases exponent
    case inl he =>
      rw [he] at hp ⊢
      simp only [hp, hd]
      rfl
    case inr he =>
      have ⟨cs, he⟩ := he
      rw [he] at hp ⊢
      rw [List.append_nil] at hd
      simp [hp, hd]
  case neg =>
    rw [fractionText, if_neg h, List.cons_append, span_eq hw (by simp)]
    simp only [hs', hp, hd]
    rfl

theorem toNat_of_isDigit (h : c.isDigit) : 48 ≤ c.toNat ∧ c.toNat ≤ 57 := by
  simpa [Char.isDigit, UInt32.le_iff_toNat_le] using h

theorem toLower_of_isDigit (h : c.isDigit) : c.toLower = c := by
  have hn := (toNat_of_isDigit h).right
  refine dif_neg fun hu => ?_
  have hu := UInt32.le_iff_toNat_le.mp hu.left
  exact absurd (hu.trans hn) (by decide)

theorem isSpace_of_isDigit (h : c.isDigit) : isSpace c = false := by
  have ⟨hl, hu⟩ := toNat_of_isDigit h
  simp [isSpace]
  omega

theorem asciiDigit_of_isDigit (h : c.isDigit) : asciiDigit c = c :=
  asciiDigit_eq_self ((toNat_of_isDigit h).right.trans_lt (by decide))

end Parse

namespace Unsigned

variable {d : Unsigned} {digits whole fraction : List Char} {c : Char}

-- The digits that are spelled, and how far the point has been moved.
structure Spells (d : Unsigned) (whole fraction : List Char) (exponent : ℤ) : Prop where
  left     : AllDigits whole
  right    : AllDigits fraction
  nonempty : whole ≠ []
  digits   : ofDigits (whole ++ fraction) = d.coefficient
  moved    : exponent - fraction.length = d.exponent

theorem spells_spell (d : Unsigned) : d.Spells d.spell.1 d.spell.2.1 d.spell.2.2 := by
  have hd := allDigits_toDigits d.coefficient
  have hl : 0 < (Nat.toDigits 10 d.coefficient).length := Nat.length_toDigits_pos
  have ho := ofDigits_toDigits d.coefficient
  unfold spell
  generalize Nat.toDigits 10 d.coefficient = digits at hd hl ho
  dsimp only
  generalize hp : (if d.exponent ≤ 0 ∧ -6 < d.exponent + digits.length then
    d.exponent + digits.length else 1) = dotPlace
  have hle : dotPlace ≤ digits.length := by
    split at hp <;> omega
  by_cases hz : dotPlace ≤ 0
  case pos =>
    rw [if_pos hz]
    exact {
      left     := allDigits_replicate 1
      right    := (allDigits_replicate _).append hd
      nonempty := List.cons_ne_nil '0' []
      digits   := (ofDigits_replicate_append (dotPlace.natAbs + 1)).trans ho
      moved    := by
        rw [List.length_append, List.length_replicate]
        dsimp only
        split at hp <;> omega }
  case neg =>
    have hz' : dotPlace.toNat - digits.length = 0 := by omega
    rw [if_neg hz, hz', List.replicate_zero, List.append_nil]
    exact {
      left     := fun c hc => hd c (List.mem_of_mem_take hc)
      right    := fun c hc => hd c (List.mem_of_mem_drop hc)
      nonempty := by
        have hn : digits ≠ [] := List.length_pos_iff.mp hl
        simp [hn]
        omega
      digits   := by rw [List.take_append_drop, ho]
      moved    := by
        rw [List.length_drop]
        dsimp only
        omega }

-- The characters of a decimal that is spelled.
def IsSpelling (c : Char) : Prop :=
  c.isDigit ∨ c ∈ ['.', 'E', '+', '-']

theorem IsSpelling.isSpace (h : IsSpelling c) : isSpace c = false := by
  cases h
  case inl h => exact isSpace_of_isDigit h
  case inr h =>
    obtain rfl | rfl | rfl | rfl : c = '.' ∨ c = 'E' ∨ c = '+' ∨ c = '-' := by simpa using h
    all_goals rfl

theorem IsSpelling.asciiDigit (h : IsSpelling c) : asciiDigit c = c := by
  cases h
  case inl h => exact asciiDigit_of_isDigit h
  case inr h =>
    obtain rfl | rfl | rfl | rfl : c = '.' ∨ c = 'E' ∨ c = '+' ∨ c = '-' := by simpa using h
    all_goals rfl

theorem IsSpelling.ne_underscore (h : IsSpelling c) : c ≠ '_' := by
  rintro rfl
  revert h
  simp [IsSpelling]

theorem isSpelling_exponentText (exponent : ℤ) : ∀ c ∈ exponentText 'E' exponent, IsSpelling c := by
  intro c hc
  unfold exponentText signed at hc
  split at hc
  case isTrue => cases hc
  case isFalse =>
    obtain rfl | hc := List.mem_cons.mp hc
    · exact .inr (by decide)
    obtain rfl | hc := List.mem_cons.mp hc
    · split <;> exact .inr (by decide)
    · exact .inl (allDigits_toDigits _ c hc)

theorem isSpelling_fractionText (h : AllDigits fraction) :
    ∀ c ∈ fractionText fraction, IsSpelling c := by
  intro c hc
  unfold fractionText at hc
  split at hc
  case isTrue => cases hc
  case isFalse =>
    obtain rfl | hc := List.mem_cons.mp hc
    · exact .inr (by decide)
    · exact .inl (h c hc)

-- What `parse` makes of a text before it looks for a sign.
def normalizeText (text : List Char) : List Char :=
  (strip text).filter (· ≠ '_') |>.map (Char.toLower ∘ asciiDigit)

theorem normalizeText_eq {text : List Char} (h : ∀ c ∈ text, IsSpelling c) :
    normalizeText text = text.map Char.toLower := by
  have hf : text.filter (· ≠ '_') = text :=
    List.filter_eq_self.mpr fun c hc => by simpa using (h c hc).ne_underscore
  rw [normalizeText, strip_eq_self fun c hc => (h c hc).isSpace, hf]
  exact List.map_congr_left fun c hc => congrArg Char.toLower (h c hc).asciiDigit

theorem map_toLower_of_allDigits (h : AllDigits digits) : digits.map Char.toLower = digits :=
  (List.map_congr_left fun c hc => toLower_of_isDigit (h c hc)).trans digits.map_id

theorem map_toLower_fractionText (h : AllDigits fraction) :
    (fractionText fraction).map Char.toLower = fractionText fraction := by
  unfold fractionText
  split
  case isTrue  => rfl
  case isFalse => exact congrArg ('.' :: ·) (map_toLower_of_allDigits h)

theorem map_toLower_exponentText (exponent : ℤ) :
    (exponentText 'E' exponent).map Char.toLower = exponentText 'e' exponent := by
  have hd := map_toLower_of_allDigits (allDigits_toDigits exponent.natAbs)
  unfold exponentText signed
  split
  case isTrue => rfl
  case isFalse =>
    rw [List.map_cons, List.map_cons, hd]
    split <;> rfl

theorem isSpelling_str (d : Unsigned) : ∀ c ∈ d.str.toList, IsSpelling c := by
  have hs := d.spells_spell
  rw [Unsigned.str, String.toList_ofList]
  simp only [List.forall_mem_append]
  exact ⟨⟨fun c hc => .inl (hs.left c hc), isSpelling_fractionText hs.right⟩,
    isSpelling_exponentText _⟩

theorem parseUnsigned_str (d : Unsigned) :
    parseUnsigned (d.str.toList.map Char.toLower) = some d := by
  have hs := d.spells_spell
  have hu := parseUnsigned_eq d.spell.2.2 hs.left hs.right hs.nonempty
  rw [Unsigned.str, String.toList_ofList, List.map_append, List.map_append,
    map_toLower_of_allDigits hs.left, map_toLower_fractionText hs.right,
    map_toLower_exponentText, hu, hs.digits, hs.moved, of?_eq]

-- A decimal that has been spelled is read back, with all of its digits.
theorem parse_str (d : Unsigned) : parse d.str = some (.finite ⟨false, d⟩) := by
  have hu := parseUnsigned_str d
  have hs := d.spells_spell
  have hd : ∃ c cs, d.str.toList.map Char.toLower = c :: cs ∧ c.isDigit := by
    rw [Unsigned.str, String.toList_ofList, List.map_append, List.map_append,
      map_toLower_of_allDigits hs.left]
    have ⟨c, cs, hc⟩ := List.exists_cons_of_ne_nil hs.nonempty
    rw [hc]
    exact ⟨c, _, rfl, hs.left c (hc ▸ List.mem_cons_self)⟩
  obtain ⟨c, cs, hl, hd⟩ := hd
  rw [parse, ← normalizeText, normalizeText_eq d.isSpelling_str]
  rw [hl] at hu ⊢
  split
  case h_1 h => rw [(List.cons.inj h).left] at hd; cases hd
  case h_2 h => rw [(List.cons.inj h).left] at hd; cases hd
  case h_3   => rw [hu]; rfl

end Unsigned

namespace Signed

open Unsigned

-- `str(d)`
def str (d : Signed) : String :=
  if d.negative then "-" ++ d.magnitude.str else d.magnitude.str

theorem parse_str (d : Signed) : parse d.str = some (.finite d) := by
  obtain ⟨negative, magnitude⟩ := d
  cases negative
  case false => exact magnitude.parse_str
  case true =>
    have hc : ∀ c ∈ '-' :: magnitude.str.toList, IsSpelling c :=
      List.forall_mem_cons.mpr ⟨.inr (by decide), magnitude.isSpelling_str⟩
    have hl : (Signed.str ⟨true, magnitude⟩).toList = '-' :: magnitude.str.toList := by
      simp [Signed.str]
    have hm : Char.toLower '-' = '-' := by decide
    rw [parse, hl, ← normalizeText, normalizeText_eq hc, List.map_cons, hm]
    simp [parseUnsigned_str]

theorem toRat?_parse_str (d : Signed) : (parse d.str).bind toRat? = some d.value := by
  rw [parse_str]
  rfl

end Signed
end Decimal
