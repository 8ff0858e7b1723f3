import AstraGate.Lib.Decimal.Spelling
import AstraGate.Lib.Json.Text

-- What `json.dumps` has written is read back by `json.loads`.
namespace Json

open Decimal (AllDigits allDigits_toDigits span_eq)

section Strings

variable {c l : Char} {n : Nat} {text : List Char}

theorem unletter?_of_mem_letters (h : (c, l) ∈ letters) :
    unletter? l = some c ∧ c.toNat < 0x10000 := by
  have hp : ∀ p ∈ letters, unletter? p.2 = some p.1 ∧ p.1.toNat < 0x10000 := by decide
  exact hp _ h

theorem mem_letters_of_lookup (h : letters.lookup c = some l) : (c, l) ∈ letters := by
  have ⟨before, after, hl, _⟩ := List.lookup_eq_some_iff.mp h
  simp [hl]

-- What needs an escape has one.
theorem ne_of_lookup_letters (h : letters.lookup c = none) : c ≠ '\x22' ∧ c ≠ '\\' := by
  constructor <;> rintro rfl <;> simp [letters] at h

theorem toNat_valid (c : Char) : c.toNat < 0xd800 ∨ 0xdfff < c.toNat ∧ c.toNat < 0x110000 :=
  c.valid

theorem hexDigit?_digitChar (h : n < 16) : hexDigit? (Nat.digitChar n) = some n := by
  revert n
  decide

theorem scanHex_hexDigits (h : n < 0x10000) : scanHex (hexDigits 4 n ++ text) = some (n, text) := by
  have hd : ∀ {m}, hexDigit? (Nat.digitChar (m % 16)) = some (m % 16) :=
    hexDigit?_digitChar (Nat.mod_lt _ (by decide))
  simp [scanHex, hexDigits, hd]
  omega

theorem scanUnit_unicodeEscape (h : n < 0x10000) :
    scanUnit (unicodeEscape n ++ text) = some (n, text) :=
  scanHex_hexDigits h

theorem units_lt (h : n ∈ units c) : n < 0x10000 := by
  have hc := toNat_valid c
  unfold units at h
  grind

theorem units_of_lt (h : c.toNat < 0x10000) : units c = [c.toNat] :=
  if_pos h

theorem scanUnits_of_scanUnit {fuel : Nat} (h : scanUnit text = some (n, rest))
    (hq : text.head? ≠ some '\x22') :
    scanUnits (fuel + 1) text = (scanUnits fuel rest).map (Prod.map (n :: ·) id) := by
  rw [scanUnits.eq_3 _ _ (by rintro _ rfl; exact hq rfl), h]
  dsimp only [Option.bind_eq_bind, Option.bind_some]
  cases scanUnits fuel rest <;> rfl

theorem scanUnit_letter (h : (c, l) ∈ letters) :
    scanUnit ('\\' :: l :: text) = some (c.toNat, text) := by
  have ⟨hu, _⟩ := unletter?_of_mem_letters h
  have hl : ∀ p ∈ letters, p.2 ≠ 'u' := by decide
  have hl := hl _ h
  rw [scanUnit.eq_3 _ _ (by rintro rfl; exact hl rfl), hu]
  rfl

theorem scanUnit_plain (h : 32 ≤ c.toNat) (hb : c ≠ '\\') :
    scanUnit (c :: text) = some (c.toNat, text) := by
  simp [scanUnit, hb, Nat.not_lt.mpr h]

theorem scanUnits_flatMap_unicodeEscape (fuel : Nat) (ns : List Nat) (text : List Char)
    (h : ∀ n ∈ ns, n < 0x10000) :
    scanUnits (fuel + ns.length) (ns.flatMap unicodeEscape ++ text) =
      (scanUnits fuel text).map (Prod.map (ns ++ ·) id) := by
  induction ns
  case nil =>
    change scanUnits fuel text = _
    cases scanUnits fuel text <;> rfl
  case cons n ns ih =>
    have ⟨hn, hns⟩ := List.forall_mem_cons.mp h
    rw [List.length_cons, ← Nat.add_assoc, List.flatMap_cons, List.append_assoc,
      scanUnits_of_scanUnit (scanUnit_unicodeEscape hn) (by simp [unicodeEscape]), ih hns]
    cases scanUnits fuel text <;> rfl

-- The code units of a character are read back.
theorem scanUnits_encodeChar (fuel : Nat) (c : Char) (text : List Char) :
    scanUnits (fuel + (units c).length) (encodeChar c ++ text) =
      (scanUnits fuel text).map (Prod.map (units c ++ ·) id) := by
  unfold encodeChar
  cases hl : letters.lookup c
  case some l =>
    have hm := mem_letters_of_lookup hl
    have ⟨_, hc⟩ := unletter?_of_mem_letters hm
    rw [units_of_lt hc]
    exact scanUnits_of_scanUnit (scanUnit_letter hm) (by simp)
  case none =>
    have ⟨hq, hb⟩ := ne_of_lookup_letters hl
    by_cases hp : 32 ≤ c.toNat ∧ c.toNat < 127
    case pos =>
      rw [units_of_lt (by omega)]
      simp only [hp, and_self, if_true]
      exact scanUnits_of_scanUnit (scanUnit_plain hp.left hb) (by simp [hq])
    case neg =>
      simp only [hp, if_false]
      exact scanUnits_flatMap_unicodeEscape _ _ _ fun _ => units_lt

theorem scanUnits_flatMap_encodeChar (fuel : Nat) (cs text : List Char) :
    scanUnits (fuel + (cs.flatMap units).length) (cs.flatMap encodeChar ++ text) =
      (scanUnits fuel text).map (Prod.map (cs.flatMap units ++ ·) id) := by
  induction cs
  case nil =>
    change scanUnits fuel text = _
    cases scanUnits fuel text <;> rfl
  case cons c cs ih =>
    have hl : fuel + ((c :: cs).flatMap units).length =
        fuel + (cs.flatMap units).length + (units c).length := by
      simp only [List.flatMap_cons, List.length_append]
      omega
    rw [hl, List.flatMap_cons, List.append_assoc, scanUnits_encodeChar, ih]
    cases scanUnits fuel text <;> simp [Prod.map]

theorem length_units_le (c : Char) : (units c).length ≤ (encodeChar c).length := by
  have hf : ∀ ns : List Nat, ns.length ≤ (ns.flatMap unicodeEscape).length := by
    intro ns
    induction ns
    case nil          => exact Nat.le_refl 0
    case cons n ns ih =>
      simp only [List.flatMap_cons, List.length_append, unicodeEscape, List.length_cons]
      omega
  unfold encodeChar
  cases hl : letters.lookup c
  case some l =>
    have ⟨_, hc⟩ := unletter?_of_mem_letters (mem_letters_of_lookup hl)
    simp [units_of_lt hc]
  case none =>
    dsimp only
    split
    case isTrue h  => simp [units_of_lt (c := c) (by omega)]
    case isFalse h => exact hf _

theorem length_flatMap_units_le (cs : List Char) :
    (cs.flatMap units).length ≤ (cs.flatMap encodeChar).length := by
  induction cs
  case nil          => exact Nat.le_refl 0
  case cons c cs ih =>
    simp only [List.flatMap_cons, List.length_append]
    exact Nat.add_le_add (length_units_le c) ih

-- A character outside of the BMP is put together again from its two surrogates.
theorem combine_units (c : Char) (ns : List Nat) :
    combine (units c ++ ns) = (combine ns).map (c :: ·) := by
  have hc := toNat_valid c
  by_cases h : c.toNat < 0x10000
  case pos =>
    have hh : isHigh c.toNat = false := by simp [isHigh]; omega
    have hl : isLow c.toNat = false := by simp [isLow]; omega
    rw [units_of_lt h, List.singleton_append, combine.eq_def]
    simp [hh, hl]
  case neg =>
    have hu : units c =
        [0xd800 + (c.toNat - 0x10000) / 1024, 0xdc00 + (c.toNat - 0x10000) % 1024] := if_neg h
    have hh : isHigh (0xd800 + (c.toNat - 0x10000) / 1024) := by simp [isHigh]; omega
    have hl : isLow (0xdc00 + (c.toNat - 0x10000) % 1024) := by simp [isLow]; omega
    have hn : 0x10000 + (0xd800 + (c.toNat - 0x10000) / 1024 - 0xd800) * 1024 +
        (0xdc00 + (c.toNat - 0x10000) % 1024 - 0xdc00) = c.toNat := by omega
    rw [hu, List.cons_append, List.singleton_append, combine]
    simp only [hh, hl, if_true, hn, Char.ofNat_toNat]

theorem combine_flatMap_units (cs : List Char) : combine (cs.flatMap units) = some cs := by
  induction cs
  case nil          => rfl
  case cons c cs ih => rw [List.flatMap_cons, combine_units, ih]; rfl

theorem scanString_encodeStr (s : String) (rest : List Char) :
    scanString (s.toList.flatMap encodeChar ++ '\x22' :: rest) = some (s, rest) := by
  have hl := length_flatMap_units_le s.toList
  have ⟨fuel, hf⟩ : ∃ fuel, (s.toList.flatMap encodeChar ++ '\x22' :: rest).length + 1 =
      fuel + 1 + (s.toList.flatMap units).length := by
    refine ⟨(s.toList.flatMap encodeChar).length + rest.length + 1 -
      (s.toList.flatMap units).length, ?_⟩
    simp only [List.length_append, List.length_cons]
    omega
  have hu : scanUnits (fuel + 1) ('\x22' :: rest) = some ([], rest) := rfl
  rw [scanString, hf, scanUnits_flatMap_encodeChar, hu]
  simp [combine_flatMap_units]

end Strings

section Numbers

variable {floatRepr : String → String} {rest : List Char}

-- What may follow a value.
def Ends (rest : List Char) : Prop :=
  ∀ c ∈ rest.head?, c ∈ [',', ']', '\x7d']

theorem Ends.isDigit (h : Ends rest) : ∀ c ∈ rest.head?, c.isDigit = false := by
  have hd : ∀ c ∈ [',', ']', '\x7d'], c.isDigit = false := by simp
  exact fun c hc => hd c (h c hc)

theorem Ends.scanFraction (h : Ends rest) : scanFraction rest = ([], rest) := by
  unfold Json.scanFraction
  split
  case h_1 text => exact absurd (h '.' rfl) (by decide)
  case h_2      => rfl

theorem Ends.scanExponent (h : Ends rest) : scanExponent rest = ([], rest) := by
  cases rest
  case nil => rfl
  case cons c cs =>
    have he : ∀ c ∈ [',', ']', '\x7d'], c ∉ ['e', 'E'] := by simp
    exact if_neg fun hc => he c (h c rfl) hc.left

theorem toDigits_eq_cons (n : Nat) : ∃ c cs, Nat.toDigits 10 n = c :: cs ∧ c.isDigit := by
  have ⟨c, cs, hc⟩ := List.exists_cons_of_ne_nil (Nat.toDigits_ne_nil (n := n) (b := 10))
  exact ⟨c, cs, hc, allDigits_toDigits n c (hc ▸ List.mem_cons_self)⟩

theorem head?_toDigits {n : Nat} (h : 0 < n) : (Nat.toDigits 10 n).head? ≠ some '0' := by
  induction n using Nat.strongRecOn
  case ind n ih =>
    by_cases hn : n < 10
    case pos =>
      have hd : ∀ n < 10, 0 < n → Nat.digitChar n ≠ '0' := by decide
      rw [Nat.toDigits_of_lt_base hn]
      exact fun he => hd n hn h (Option.some.inj he)
    case neg =>
      rw [Nat.toDigits_of_base_le (by decide) (not_lt.mp hn), List.head?_append_of_ne_nil _
        Nat.toDigits_ne_nil]
      exact ih (n / 10) (by omega) (by omega)

theorem scanWhole_toDigits (n : Nat) (h : Ends rest) :
    scanWhole (Nat.toDigits 10 n ++ rest) = (Nat.toDigits 10 n, rest) := by
  obtain rfl | hn := Nat.eq_zero_or_pos n
  · rfl
  · have hd := head?_toDigits hn
    have hs := span_eq (allDigits_toDigits n) h.isDigit
    unfold scanWhole
    split
    case h_1 text he =>
      have hh : (Nat.toDigits 10 n ++ rest).head? = (Nat.toDigits 10 n).head? :=
        List.head?_append_of_ne_nil _ Nat.toDigits_ne_nil
      rw [he] at hh
      exact absurd hh.symm hd
    case h_2 => exact hs

theorem scanUnsigned_toDigits (negative : Bool) (n : Nat) (h : Ends rest) :
    scanUnsigned floatRepr negative (Nat.toDigits 10 n ++ rest) =
      some (int (if negative then -n else n), rest) := by
  simp [scanUnsigned, scanWhole_toDigits n h, h.scanFraction, h.scanExponent,
    Nat.toDigits_ne_nil]

theorem scanNumber_encodeInt (n : Int) (h : Ends rest) :
    scanNumber floatRepr (encodeInt n ++ rest) = some (int n, rest) := by
  unfold encodeInt
  by_cases hn : n < 0
  case pos =>
    simp only [hn, if_true, List.cons_append, List.nil_append, scanNumber]
    rw [scanUnsigned_toDigits true _ h, if_pos rfl]
    exact congrArg (fun n => some (int n, rest)) (by omega)
  case neg =>
    have ⟨c, cs, hc, hd⟩ := toDigits_eq_cons n.natAbs
    simp only [hn, if_false, List.nil_append]
    rw [scanNumber.eq_2, scanUnsigned_toDigits false _ h, if_neg Bool.false_ne_true]
    · exact congrArg (fun n => some (int n, rest)) (by omega)
    · intro text he
      rw [hc, List.cons_append, List.cons.injEq] at he
      exact absurd (he.left ▸ hd) (by decide)

-- A word starts with a letter, which can follow a minus.
theorem words_head (h : (word, x) ∈ words) :
    ∃ c cs, (word.toList = c :: cs ∨ word.toList = '-' :: c :: cs) ∧
      c ∈ ['n', 't', 'f', 'N', 'I'] := by
  simp only [words, List.mem_cons, Prod.mk.injEq, List.not_mem_nil, or_false] at h
  rcases h with ⟨rfl, _⟩ | ⟨rfl, _⟩ | ⟨rfl, _⟩ | ⟨rfl, _⟩ | ⟨rfl, _⟩ | ⟨rfl, _⟩
  case inr.inr.inr.inr.inr => exact ⟨_, _, .inr rfl, by decide⟩
  all_goals exact ⟨_, _, .inl rfl, by decide⟩

-- So the digits of a number are none, with a minus or without.
theorem scanWord_encodeInt (n : Int) : scanWord (encodeInt n ++ rest) = none := by
  have ⟨d, ds, hd, hi⟩ := toDigits_eq_cons n.natAbs
  have hn : ∀ c ∈ ['n', 't', 'f', 'N', 'I'], c ≠ '-' ∧ ¬c.isDigit := by simp
  have hm : ¬Char.isDigit '-' := by decide
  refine List.findSome?_eq_none_iff.mpr fun (word, x) hw => if_neg ?_
  have ⟨c, cs, hword, hc⟩ := words_head hw
  have ⟨hc, hcd⟩ := hn c hc
  have hcd : c ≠ d := fun he => hcd (he ▸ hi)
  have hmd : '-' ≠ d := fun he => hm (he ▸ hi)
  unfold encodeInt
  rw [hd]
  obtain hword | hword := hword <;> rw [hword] <;> split <;>
    simp [List.isPrefixOf, hc, hcd, hmd]

end Numbers
mutual

-- No floats, and no key twice.
def Plain : Json → Prop
  | float _     => False
  | list xs     => PlainItems xs
  | dict fields => (fields.map Prod.fst).Nodup ∧ PlainFields fields
  | _           => True

def PlainItems : List Json → Prop
  | []      => True
  | x :: xs => Plain x ∧ PlainItems xs

def PlainFields : List (String × Json) → Prop
  | []               => True
  | (_, x) :: fields => Plain x ∧ PlainFields fields

end

section Values

variable {floatRepr : String → String} {x : Json} {xs : List Json} {fields : Fields}
  {rest : List Char} {fuel : Nat} {key : String}

theorem skip_eq_self (h : isBlank c = false) : skip (c :: cs) = c :: cs :=
  List.dropWhile_cons_of_neg (by simp [h])

theorem skip_blank : skip (' ' :: cs) = skip cs :=
  rfl

theorem isBlank_of_isDigit {c : Char} (h : c.isDigit) : isBlank c = false := by
  have hb : ∀ c ∈ [' ', '\t', '\n', '\r'], ¬c.isDigit := by simp
  exact decide_eq_false fun hm => hb c hm h

-- A value starts with a character that is no blank, and closes nothing.
theorem encode_eq_cons (h : x.Plain) :
    ∃ c cs, encode x = c :: cs ∧ isBlank c = false ∧ c ≠ ']' := by
  cases x
  case bool b => cases b <;> exact ⟨_, _, rfl, rfl, by decide⟩
  case int n =>
    have ⟨c, cs, hc, hd⟩ := toDigits_eq_cons n.natAbs
    rw [encode, encodeInt, hc]
    split
    case isTrue  => exact ⟨'-', _, rfl, rfl, by decide⟩
    case isFalse =>
      refine ⟨c, cs, rfl, isBlank_of_isDigit hd, ?_⟩
      rintro rfl
      contradiction
  case float  => exact h.elim
  case list xs     => cases xs <;> exact ⟨_, _, rfl, rfl, by decide⟩
  case dict fields => cases fields <;> exact ⟨_, _, rfl, rfl, by decide⟩
  case null | str  => exact ⟨_, _, rfl, rfl, by decide⟩

theorem ends_encodeItems : Ends (encodeItems xs ++ rest) := by
  intro c hc
  cases xs <;> cases hc <;> decide

theorem ends_encodeFields : Ends (encodeFields fields ++ rest) := by
  intro c hc
  cases fields
  case nil            => cases hc; decide
  case cons field _   => obtain ⟨_, _⟩ := field; cases hc; decide

-- What is read back with so many steps.
def ReadsValues (floatRepr : String → String) (fuel : Nat) : Prop :=
  ∀ x rest, x.Plain → Ends rest → (encode x).length ≤ fuel →
    scanValue floatRepr fuel (encode x ++ rest) = some (x, rest)

def ReadsItems (floatRepr : String → String) (fuel : Nat) : Prop :=
  ∀ x xs rest, x.Plain → PlainItems xs → (encode x ++ encodeItems xs).length ≤ fuel →
    scanItems floatRepr fuel (encode x ++ encodeItems xs ++ rest) = some (x :: xs, rest)

def ReadsFields (floatRepr : String → String) (fuel : Nat) : Prop :=
  ∀ key x fields rest, x.Plain → PlainFields fields →
    (encodeStr key ++ ':' :: ' ' :: (encode x ++ encodeFields fields)).length ≤ fuel →
    scanFields floatRepr fuel
      (encodeStr key ++ ':' :: ' ' :: (encode x ++ encodeFields fields) ++ rest) =
      some ((key, x) :: fields, rest)

theorem ReadsItems.succ (hv : ReadsValues floatRepr fuel) (hi : ReadsItems floatRepr fuel) :
    ReadsItems floatRepr (fuel + 1) := by
  intro x xs rest hx hxs hl
  simp only [List.length_append] at hl
  have hr : (encodeItems xs).length ≠ 0 := by cases xs <;> simp [encodeItems]
  rw [scanItems, List.append_assoc, hv x _ hx ends_encodeItems (by omega)]
  dsimp only [Option.bind_eq_bind, Option.bind_some]
  cases xs
  case nil => rfl
  case cons y ys =>
    have ⟨c, cs, hc, hb, _⟩ := encode_eq_cons hxs.left
    have hs : skip (encodeItems (y :: ys) ++ rest) =
      ',' :: ' ' :: (encode y ++ encodeItems ys ++ rest) := rfl
    have hn : skip (encode y ++ encodeItems ys ++ rest) = encode y ++ encodeItems ys ++ rest := by
      rw [hc]
      exact skip_eq_self hb
    rw [hs]
    change (scanItems floatRepr fuel
      (skip (' ' :: (encode y ++ encodeItems ys ++ rest)))).bind _ = _
    rw [skip_blank, hn, hi y ys rest hxs.left hxs.right]
    · rfl
    · simp only [encodeItems, List.length_cons, List.length_append] at hl ⊢
      omega

theorem ReadsFields.succ (hv : ReadsValues floatRepr fuel) (hf : ReadsFields floatRepr fuel) :
    ReadsFields floatRepr (fuel + 1) := by
  intro key x fields rest hx hfs hl
  simp only [List.length_append, List.length_cons] at hl
  have hr : (encodeFields fields).length ≠ 0 := by
    cases fields
    case nil          => simp [encodeFields]
    case cons field _ => obtain ⟨_, _⟩ := field; simp [encodeFields]
  have hk : encodeStr key ++ ':' :: ' ' :: (encode x ++ encodeFields fields) ++ rest =
      '\x22' :: (key.toList.flatMap encodeChar ++ '\x22' :: ':' :: ' ' ::
        (encode x ++ (encodeFields fields ++ rest))) := by simp [encodeStr]
  have ⟨c, cs, hc, hb, _⟩ := encode_eq_cons hx
  have hs : skip (encode x ++ (encodeFields fields ++ rest)) =
      encode x ++ (encodeFields fields ++ rest) := by
    rw [hc]
    exact skip_eq_self hb
  have hcolon : skip (':' :: ' ' :: (encode x ++ (encodeFields fields ++ rest))) =
      ':' :: ' ' :: (encode x ++ (encodeFields fields ++ rest)) := rfl
  rw [hk, scanFields, scanString_encodeStr]
  dsimp only [Option.bind_eq_bind, Option.bind_some]
  rw [hcolon]
  change (scanValue floatRepr fuel (skip (' ' :: (encode x ++ (encodeFields fields ++ rest))))).bind
    _ = _
  rw [skip_blank, hs, hv x _ hx ends_encodeFields (by omega)]
  dsimp only [Option.bind_some]
  cases fields
  case nil => rfl
  case cons field fields =>
    obtain ⟨key', y⟩ := field
    have hn : skip (encodeFields ((key', y) :: fields) ++ rest) = ',' :: ' ' ::
        (encodeStr key' ++ ':' :: ' ' :: (encode y ++ encodeFields fields) ++ rest) := rfl
    have hq : skip (encodeStr key' ++ ':' :: ' ' :: (encode y ++ encodeFields fields) ++ rest) =
        encodeStr key' ++ ':' :: ' ' :: (encode y ++ encodeFields fields) ++ rest := rfl
    rw [hn]
    change (scanFields floatRepr fuel (skip (' ' ::
      (encodeStr key' ++ ':' :: ' ' :: (encode y ++ encodeFields fields) ++ rest)))).bind _ = _
    rw [skip_blank, hq, hf key' y fields rest hfs.left hfs.right]
    · rfl
    · simp only [encodeFields, List.length_cons, List.length_append] at hl ⊢
      omega

theorem Fields.set_of_not_mem (h : key ∉ fields.map Prod.fst) :
    fields.set key x = fields ++ [(key, x)] := by
  induction fields
  case nil => rfl
  case cons field fields ih =>
    obtain ⟨key', y⟩ := field
    simp only [List.map_cons, List.mem_cons, not_or] at h
    simp only [Fields.set, Ne.symm h.left, if_false, ih h.right, List.cons_append]

theorem foldl_set_append {new : Fields} (h : ((fields ++ new).map Prod.fst).Nodup) :
    new.foldl (fun fields field => Fields.set fields field.1 field.2) fields = fields ++ new := by
  induction new generalizing fields
  case nil => exact (List.append_nil fields).symm
  case cons field new ih =>
    obtain ⟨key, x⟩ := field
    have hn : key ∉ fields.map Prod.fst := by
      rw [List.map_append, List.map_cons, List.nodup_append] at h
      exact fun hm => h.right.right _ hm _ List.mem_cons_self rfl
    rw [List.foldl_cons, Fields.set_of_not_mem hn, ih (by simpa using h), List.append_assoc,
      List.singleton_append]

theorem ofFields_of_nodup (h : (fields.map Prod.fst).Nodup) : ofFields fields = dict fields := by
  have hn : (([] ++ fields : Fields).map Prod.fst).Nodup := h
  exact congrArg dict (foldl_set_append hn)

theorem scanValue_of_head? {text : List Char} (h : ∀ c ∈ text.head?, c ∉ ['\x22', '[', '\x7b']) :
    scanValue floatRepr (fuel + 1) text = (scanWord text <|> scanNumber floatRepr text) := by
  rw [scanValue]
  all_goals
    rintro _ rfl
    exact absurd (h _ rfl) (by decide)

theorem head?_encodeInt (n : Int) :
    ∀ c ∈ (encodeInt n ++ rest).head?, c ∉ ['\x22', '[', '\x7b'] := by
  have ⟨d, ds, hd, hi⟩ := toDigits_eq_cons n.natAbs
  have hn : ∀ c ∈ ['\x22', '[', '\x7b'], ¬c.isDigit := by simp
  intro c hc
  unfold encodeInt at hc
  rw [hd] at hc
  split at hc <;> cases hc
  case isTrue  => decide
  case isFalse => exact fun hm => hn _ hm hi

theorem ReadsValues.succ (hi : ReadsItems floatRepr fuel) (hf : ReadsFields floatRepr fuel) :
    ReadsValues floatRepr (fuel + 1) := by
  intro x rest hx hr hl
  cases x
  case null   => rfl
  case bool b => cases b <;> rfl
  case float  => exact hx.elim
  case int n =>
    rw [encode, scanValue_of_head? (head?_encodeInt n), scanWord_encodeInt,
      scanNumber_encodeInt n hr]
    rfl
  case str s =>
    rw [encode, encodeStr, List.cons_append, List.append_assoc, List.singleton_append]
    change (scanString _).map _ = _
    rw [scanString_encodeStr]
    rfl
  case list xs =>
    cases xs
    case nil => rfl
    case cons y ys =>
      have ⟨c, cs, hc, hb, hn⟩ := encode_eq_cons hx.left
      have hs : skip (encode y ++ encodeItems ys ++ rest) = encode y ++ encodeItems ys ++ rest := by
        rw [hc]
        exact skip_eq_self hb
      simp only [encode, List.length_cons] at hl
      rw [encode, List.cons_append, scanValue, hs]
      split
      case h_1 text he =>
        rw [hc] at he
        exact absurd (List.cons.inj he).left hn
      case h_2 => rw [hi y ys rest hx.left hx.right (by omega)]; rfl
  case dict fields =>
    cases fields
    case nil => rfl
    case cons field fields =>
      obtain ⟨key, y⟩ := field
      have hs : skip (encodeStr key ++ ':' :: ' ' :: (encode y ++ encodeFields fields) ++ rest) =
          encodeStr key ++ ':' :: ' ' :: (encode y ++ encodeFields fields) ++ rest := rfl
      simp only [encode, List.length_cons] at hl
      rw [encode, List.cons_append, scanValue, hs]
      change (scanFields floatRepr fuel
        (encodeStr key ++ ':' :: ' ' :: (encode y ++ encodeFields fields) ++ rest)).map _ = _
      rw [hf key y fields rest hx.right.left hx.right.right (by simpa using hl)]
      exact congrArg (fun x => some (x, rest)) (ofFields_of_nodup hx.left)

theorem reads (floatRepr : String → String) (fuel : Nat) :
    ReadsValues floatRepr fuel ∧ ReadsItems floatRepr fuel ∧ ReadsFields floatRepr fuel := by
  induction fuel
  case zero =>
    refine ⟨?_, ?_, ?_⟩
    case refine_1 =>
      intro x rest hx _ hl
      have ⟨c, cs, hc, _⟩ := encode_eq_cons hx
      simp [hc] at hl
    case refine_2 =>
      intro x xs rest hx _ hl
      have ⟨c, cs, hc, _⟩ := encode_eq_cons hx
      simp [hc] at hl
    case refine_3 =>
      intro key x fields rest _ _ hl
      simp [encodeStr] at hl
  case succ fuel ih =>
    have ⟨hv, hi, hf⟩ := ih
    exact ⟨.succ hi hf, .succ hv hi, .succ hv hf⟩

-- The round trip.
theorem loads_dumps (floatRepr : String → String) (h : x.Plain) :
    loads floatRepr (dumps x) = some x := by
  have ⟨c, cs, hc, hb, _⟩ := encode_eq_cons h
  have hs : skip (dumps x).toList = encode x ++ [] := by
    rw [dumps, String.toList_ofList, List.append_nil, hc]
    exact skip_eq_self hb
  have hl : (encode x).length ≤ (dumps x).length + 1 := by
    simp [dumps]
  rw [loads, hs, (reads floatRepr _).left x [] h nofun hl]
  rfl

end Values

section Printable

-- The characters of ASCII that are no control characters.
def Printable (c : Char) : Prop :=
  32 ≤ c.toNat ∧ c.toNat < 127

instance : DecidablePred Printable :=
  fun _ => inferInstanceAs (Decidable (_ ∧ _))

theorem printable_digitChar (h : n < 16) : Printable (Nat.digitChar n) := by
  revert n
  decide

theorem printable_hexDigits {count n : Nat} (h : c ∈ hexDigits count n) : Printable c := by
  induction count generalizing n
  case zero => cases h
  case succ count ih =>
    cases List.mem_append.mp h
    case inl h => exact ih h
    case inr h => exact List.mem_singleton.mp h ▸ printable_digitChar (Nat.mod_lt n (by decide))

theorem printable_encodeChar (h : c ∈ encodeChar d) : Printable c := by
  unfold encodeChar at h
  split at h
  case h_1 l hl =>
    have hm := mem_letters_of_lookup hl
    have hp : ∀ p ∈ letters, Printable p.2 := by decide
    obtain rfl | rfl : c = '\\' ∨ c = l := by simpa using h
    · decide
    · exact hp _ hm
  case h_2 =>
    split_ifs at h with hd
    case pos => exact List.mem_singleton.mp h ▸ hd
    case neg =>
      have ⟨n, _, hc⟩ := List.mem_flatMap.mp h
      obtain rfl | rfl | hc : c = '\\' ∨ c = 'u' ∨ c ∈ hexDigits 4 n := by
        simpa [unicodeEscape] using hc
      · decide
      · decide
      · exact printable_hexDigits hc

theorem printable_encodeStr (h : c ∈ encodeStr s) : Printable c := by
  simp only [encodeStr, List.mem_cons, List.mem_append, List.mem_flatMap, List.not_mem_nil,
    or_false] at h
  obtain rfl | ⟨d, _, hc⟩ | rfl := h
  · decide
  · exact printable_encodeChar hc
  · decide

theorem printable_encodeInt (h : c ∈ encodeInt n) : Printable c := by
  cases List.mem_append.mp h
  case inl h =>
    split_ifs at h
    case pos => exact List.mem_singleton.mp h ▸ by decide
    case neg => cases h
  case inr h =>
    have hd := Char.isDigit_iff_toNat.mp (Nat.isDigit_of_mem_toDigits (by decide) (by decide) h)
    exact ⟨le_trans (by decide) hd.left, lt_of_le_of_lt hd.right (by decide)⟩

mutual

theorem printable_encode : ∀ {x : Json}, x.Plain → ∀ c ∈ encode x, Printable c
  | null, _             => by simp [encode, Printable]
  | bool true, _        => by simp [encode, Printable]
  | bool false, _       => by simp [encode, Printable]
  | int _, _            => fun _ h => printable_encodeInt h
  | str _, _            => fun _ h => printable_encodeStr h
  | list [], _          => by simp [encode, Printable]
  | dict [], _          => by simp [encode, Printable]
  | list (x :: xs), hp  => by
    have hx := printable_encode hp.left
    have hxs := printable_encodeItems hp.right
    simp only [encode, List.forall_mem_cons, List.forall_mem_append]
    exact ⟨by decide, hx, hxs⟩
  | dict ((key, x) :: fields), hp => by
    have hk : ∀ c ∈ encodeStr key, Printable c := fun _ => printable_encodeStr
    have hx := printable_encode hp.right.left
    have hf := printable_encodeFields hp.right.right
    simp only [encode, List.forall_mem_cons, List.forall_mem_append]
    exact ⟨by decide, hk, by decide, by decide, hx, hf⟩

theorem printable_encodeItems : ∀ {xs : List Json}, PlainItems xs →
    ∀ c ∈ encodeItems xs, Printable c
  | [], _       => by simp [encodeItems, Printable]
  | x :: xs, hp => by
    have hx := printable_encode hp.left
    have hxs := printable_encodeItems hp.right
    simp only [encodeItems, List.forall_mem_cons, List.forall_mem_append]
    exact ⟨by decide, by decide, hx, hxs⟩

theorem printable_encodeFields : ∀ {fields : Fields}, PlainFields fields →
    ∀ c ∈ encodeFields fields, Printable c
  | [], _                 => by simp [encodeFields, Printable]
  | (key, x) :: fields, hp => by
    have hk : ∀ c ∈ encodeStr key, Printable c := fun _ => printable_encodeStr
    have hx := printable_encode hp.left
    have hf := printable_encodeFields hp.right
    simp only [encodeFields, List.forall_mem_cons, List.forall_mem_append]
    exact ⟨by decide, by decide, hk, by decide, by decide, hx, hf⟩

end

theorem encodeFields_eq (fields : Fields) : ∃ text, encodeFields fields = text ++ ['\x7d'] := by
  induction fields
  case nil => exact ⟨[], rfl⟩
  case cons field fields ih =>
    obtain ⟨key, x⟩ := field
    have ⟨text, ht⟩ := ih
    exact ⟨',' :: ' ' :: (encodeStr key ++ ':' :: ' ' :: (encode x ++ text)), by
      simp [encodeFields, ht]⟩

-- A `dict` stands between two braces.
theorem encode_dict_eq (fields : Fields) :
    ∃ text, encode (dict fields) = '\x7b' :: (text ++ ['\x7d']) := by
  cases fields
  case nil => exact ⟨[], rfl⟩
  case cons field fields =>
    obtain ⟨key, x⟩ := field
    have ⟨text, ht⟩ := encodeFields_eq fields
    exact ⟨encodeStr key ++ ':' :: ' ' :: (encode x ++ text), by simp [encode, ht]⟩

end Printable
end Json
