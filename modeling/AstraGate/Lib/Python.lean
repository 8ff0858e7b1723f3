import Mathlib.Data.List.Infix
import Mathlib.Logic.Embedding.Basic

-- What the interpreter does with texts and bytes.
namespace Python

inductive Error
  | typeError
  | attributeError
  | keyError
  | indexError
  | valueError
  | invalidOperation
deriving DecidableEq

-- `str.isspace` of a single character.
def isSpace (c : Char) : Bool :=
  let n := c.toNat
  (9 ≤ n && n ≤ 13) || (28 ≤ n && n ≤ 32) || (8192 ≤ n && n ≤ 8202) ||
    n ∈ [133, 160, 5760, 8232, 8233, 8239, 8287, 12288]

-- The zeros of the scripts that have decimal digits, in Unicode 14.
def zeros : List Nat :=
  [48, 1632, 1776, 1984, 2406, 2534, 2662, 2790, 2918, 3046, 3174, 3302, 3430, 3558, 3664, 3792,
    3872, 4160, 4240, 6112, 6160, 6470, 6608, 6784, 6800, 6992, 7088, 7232, 7248, 42528, 43216,
    43264, 43472, 43504, 43600, 44016, 65296, 66720, 68912, 69734, 69872, 69942, 70096, 70384,
    70736, 70864, 71248, 71360, 71472, 71904, 72016, 72784, 73040, 73120, 92768, 92864, 93008,
    120782, 120792, 120802, 120812, 120822, 123200, 123632, 125264, 130032]

-- `unicodedata.decimal(c)`
def decimal? (c : Char) : Option Nat :=
  zeros.find? (fun z => z ≤ c.toNat && c.toNat ≤ z + 9) |>.map (c.toNat - ·)

-- The ASCII digit for a digit of any script. Other characters are left as they are.
def asciiDigit (c : Char) : Char :=
  (decimal? c).elim c Nat.digitChar

def stripBy (p : Char → Bool) (text : List Char) : List Char :=
  (text.dropWhile p).reverse.dropWhile p |>.reverse

-- `text.strip()`
def strip (text : List Char) : List Char :=
  stripBy isSpace text

-- `text.replace(part, "")`, where the next `skip` characters belong to a part that is dropped.
def remove (part : List Char) : (skip : Nat) → List Char → List Char
  | _, []             => []
  | skip + 1, _ :: cs => remove part skip cs
  | 0, c :: cs        =>
    if part.isPrefixOf (c :: cs) then remove part (part.length - 1) cs else c :: remove part 0 cs

-- `text.split(sep, 1)`: what stands before and after the first `sep`, if there is one.
def split (sep : Char) : List Char → Option (List Char × List Char)
  | []      => none
  | c :: cs => if c = sep then some ([], cs) else split sep cs |>.map (Prod.map (c :: ·) id)

-- `part in text`
def Contains (text part : String) : Prop :=
  part.toList <:+: text.toList

instance : Decidable (Contains text part) :=
  inferInstanceAs (Decidable (_ <:+: _))

-- `bytes.decode("utf-8", errors="ignore")`, where the next `skip` bytes belong to a character that
-- has been decoded already. Bytes that do not start a character are dropped one by one.
def decode : (skip : Nat) → List UInt8 → List Char
  | _, []              => []
  | skip + 1, _ :: bs  => decode skip bs
  | 0, b :: bs         =>
    match ByteArray.utf8DecodeChar? ⟨(b :: bs).toArray⟩ 0 with
    | some c => c :: decode (c.utf8Size - 1) bs
    | none   => decode 0 bs

-- `str.encode("utf-8")`
def encode (text : List Char) : List UInt8 :=
  text.flatMap String.utf8EncodeChar

-- `[text[i : i + size] for i in range(0, len(text), size)]`
def slices (size : Nat) (text : List Char) : List (List Char) :=
  List.range ((text.length + size - 1) / size) |>.map fun i => text.drop (size * i) |>.take size

-- `str` of a number.
def str : ℕ ↪ String where
  toFun := Nat.repr
  inj'  := fun n m h => by simpa using congrArg (fun s : String => Nat.ofDigitChars 10 s.toList 0) h

theorem exists_of_bind {x : Except ε α} {f : α → Except ε β} (h : x >>= f = .ok b) :
    ∃ a, x = .ok a ∧ f a = .ok b := by
  cases x
  case error e => cases h
  case ok a    => exact ⟨a, rfl, h⟩

theorem split_eq_some_iff {text before after : List Char} :
    split sep text = some (before, after) ↔ text = before ++ sep :: after ∧ sep ∉ before := by
  induction text generalizing before
  case nil => simp [split]
  case cons c cs ih =>
    by_cases hc : c = sep
    case pos =>
      cases before
      case nil       => simp [split, hc]
      case cons d ds => simp +contextual [split, hc]
    case neg =>
      cases before
      case nil       => simp [split, hc]
      case cons d ds => simp [split, hc, ih, Prod.map]; grind

theorem strip_append_space {text : List Char} (h : isSpace c) :
    strip (text ++ [c]) = strip text := by
  simp only [strip, stripBy, List.dropWhile_append]
  split
  case isTrue he => simp [List.isEmpty_iff.mp he, h]
  case isFalse   => simp [h]

theorem strip_cons_space (h : isSpace c) : strip (c :: text) = strip text := by
  simp only [strip, stripBy, List.dropWhile_cons_of_pos h]

-- A text is stripped of nothing if it neither starts nor ends with white space.
theorem strip_between {c d : Char} (hc : isSpace c = false) (hd : isSpace d = false)
    (text : List Char) : strip (c :: (text ++ [d])) = c :: (text ++ [d]) := by
  have hr : (c :: (text ++ [d])).reverse = d :: (c :: text).reverse := by simp
  rw [strip, stripBy, List.dropWhile_cons_of_neg (by simp [hc]), hr,
    List.dropWhile_cons_of_neg (by simp [hd]), ← hr, List.reverse_reverse]

theorem stripBy_eq_self {p : Char → Bool} {text : List Char} (h : ∀ c ∈ text, p c = false) :
    stripBy p text = text := by
  have hd : ∀ {cs : List Char}, (∀ c ∈ cs, p c = false) → cs.dropWhile p = cs := by
    intro cs h
    cases cs
    case nil       => rfl
    case cons c cs => exact List.dropWhile_cons_of_neg (by simp [h c List.mem_cons_self])
  rw [stripBy, hd h, hd (by simpa using h), List.reverse_reverse]

theorem strip_eq_self {text : List Char} (h : ∀ c ∈ text, isSpace c = false) :
    strip text = text :=
  stripBy_eq_self h

-- A part is not found in a text that lacks one of its characters.
theorem remove_eq_self {part text : List Char} (hp : c ∈ part) (ht : c ∉ text) :
    remove part 0 text = text := by
  induction text
  case nil => rfl
  case cons d ds ih =>
    have hn : ¬part.isPrefixOf (d :: ds) :=
      fun h => ht ((List.isPrefixOf_iff_prefix.mp h).subset hp)
    rw [remove, if_neg hn, ih (fun h => ht (List.mem_cons_of_mem d h))]

theorem asciiDigit_eq_self (h : c.toNat < 128) : asciiDigit c = c := by
  have hd : ∀ n < 128, asciiDigit (Char.ofNat n) = Char.ofNat n := by decide
  simpa using hd c.toNat h

theorem utf8DecodeChar?_encode (c : Char) (bs : List UInt8) :
    ByteArray.utf8DecodeChar? ⟨(String.utf8EncodeChar c ++ bs).toArray⟩ 0 = some c := by
  have hb : ByteArray.mk (String.utf8EncodeChar c ++ bs).toArray =
      (String.utf8EncodeChar c).toByteArray ++ ⟨bs.toArray⟩ := by
    ext1
    simp [List.data_toByteArray]
  rw [hb]
  exact ByteArray.utf8DecodeChar?_utf8EncodeChar_append

theorem decode_length_append {bs bs' : List UInt8} :
    decode bs.length (bs ++ bs') = decode 0 bs' := by
  induction bs
  case nil          => rfl
  case cons b bs ih => exact ih

theorem decode_encode_append (text : List Char) (bs : List UInt8) :
    decode 0 (encode text ++ bs) = text ++ decode 0 bs := by
  induction text
  case nil          => rfl
  case cons c cs ih =>
    have hd := utf8DecodeChar?_encode c (encode cs ++ bs)
    have hl := String.length_utf8EncodeChar c
    rw [encode, List.flatMap_cons, ← encode, List.append_assoc, List.cons_append, ← ih]
    cases hb : String.utf8EncodeChar c <;> rw [hb] at hd hl
    case nil => exact absurd hb String.utf8EncodeChar_ne_nil
    case cons b bs' =>
      have hs : c.utf8Size - 1 = bs'.length := by rw [← hl, List.length_cons, Nat.add_sub_cancel]
      simp only [List.cons_append, decode] at hd ⊢
      rw [hd]
      exact congrArg (c :: ·) (hs ▸ decode_length_append)

-- What has been encoded is decoded without loss.
@[simp]
theorem decode_encode (text : List Char) : decode 0 (encode text) = text := by
  simpa [decode] using decode_encode_append text []

theorem flatten_slices {size : Nat} (h : 0 < size) (text : List Char) :
    (slices size text).flatten = text := by
  have hf : ∀ k, ((List.range k).map fun i => (text.drop (size * i)).take size).flatten =
      text.take (size * k) := by
    intro k
    induction k
    case zero      => rfl
    case succ k ih =>
      rw [List.range_succ, List.map_append, List.flatten_append, ih, List.map_singleton,
        List.flatten_singleton, Nat.mul_succ, List.take_add]
  have hl : text.length ≤ size * ((text.length + size - 1) / size) := by
    have hd := Nat.lt_mul_div_succ (text.length + size - 1) h
    rw [Nat.mul_succ] at hd
    omega
  rw [slices, hf, List.take_of_length_le hl]

theorem length_decode_le (skip : Nat) (bs : List UInt8) : (decode skip bs).length ≤ bs.length := by
  induction bs generalizing skip
  case nil => simp [decode]
  case cons b bs ih =>
    cases skip
    case succ skip => exact Nat.le_succ_of_le (ih skip)
    case zero =>
      simp only [decode]
      split
      case h_1 => exact Nat.succ_le_succ (ih _)
      case h_2 => exact Nat.le_succ_of_le (ih 0)

theorem length_strip_le (text : List Char) : (strip text).length ≤ text.length := by
  have hd := (List.dropWhile_sublist (l := text) isSpace).length_le
  have hr := (List.dropWhile_sublist (l := (text.dropWhile isSpace).reverse) isSpace).length_le
  rw [List.length_reverse] at hr
  rw [strip, stripBy, List.length_reverse]
  exact hr.trans hd

end Python
