import Mathlib.Data.List.Infix
import Mathlib.Data.List.Nodup

-- Reads a list in pages, from its front. The list grows at its front while it is being read, which
-- moves the entries that have been read towards the offset of the next page.
structure Pager (α : Type*) where
  rows    : List α
  offset  : Nat
  emitted : List α
  done    : Bool

namespace Pager

variable {α : Type*} {p : Pager α} {old : List α} {n : Nat} {a : α}

def page (n : Nat) (p : Pager α) : List α :=
  p.rows.drop p.offset |>.take n

-- Reads a page of `n` entries. An empty page is the end.
def fetch (n : Nat) (p : Pager α) : Pager α :=
  match p.page n with
  | []   => { p with done := true }
  | page => { p with offset := p.offset + n, emitted := p.emitted ++ page }

def push (a : α) (p : Pager α) : Pager α :=
  { p with rows := a :: p.rows }

-- A new entry does not move those that have been read to the offset of a page that is yet to come.
def Harmless (p : Pager α) : Prop :=
  p.done ∨ p.offset = 0 ∨ p.rows.length < p.offset

theorem page_eq_nil_iff (hn : 0 < n) : p.page n = [] ↔ p.rows.length ≤ p.offset := by
  rw [page, List.take_eq_nil_iff, List.drop_eq_nil_iff, or_iff_right hn.ne']

theorem fetch_of_le (hn : 0 < n) (h : p.rows.length ≤ p.offset) :
    p.fetch n = { p with done := true } := by
  rw [fetch, (page_eq_nil_iff hn).mpr h]

theorem fetch_of_lt (hn : 0 < n) (h : p.offset < p.rows.length) : p.fetch n =
    { p with offset := p.offset + n, emitted := p.emitted ++ p.page n } := by
  have hp : p.page n ≠ [] := mt (page_eq_nil_iff hn).mp h.not_ge
  unfold fetch
  split
  case h_1 he => exact absurd he hp
  case h_2    => rfl

-- How many entries the pages that have been asked for have room for.
def room (n : Nat) (p : Pager α) : Nat :=
  p.offset + if p.done then n else 0

theorem room_fetch (hn : 0 < n) (hd : p.done = false) : (p.fetch n).room n = p.room n + n := by
  cases lt_or_ge p.offset p.rows.length
  case inl h => simp [fetch_of_lt hn h, room, hd]
  case inr h => simp [fetch_of_le hn h, room, hd]

theorem offset_fetch_lt (hn : 0 < n) (h : p.offset < p.rows.length + n) :
    (p.fetch n).offset < (p.fetch n).rows.length + n := by
  cases lt_or_ge p.offset p.rows.length
  case inl hl => simpa [fetch_of_lt hn hl] using hl
  case inr hl => simpa [fetch_of_le hn hl] using h

-- What holds while all new entries are harmless. The entries `old` were there from the start.
structure Good (old : List α) (p : Pager α) : Prop where
  present  : old ⊆ p.rows
  sublist  : p.emitted.Sublist p.rows
  steady   : p.done = false →
    p.emitted = p.rows.take p.offset ∨ p.emitted <:+ p.rows ∧ p.rows.length ≤ p.offset
  nonempty : p.offset ≠ 0 → p.emitted ≠ []
  complete : p.done ∨ p.rows.length ≤ p.offset → old ⊆ p.emitted

-- An entry has been read twice, or is going to be.
def Doomed (p : Pager α) : Prop :=
  ¬p.emitted.Nodup ∨ p.done = false ∧ ∃ a ∈ p.emitted, a ∈ p.rows.drop p.offset

namespace Good

theorem start (h : p.offset = 0) (he : p.emitted = []) (hd : p.done = false) :
    Good p.rows p where
  present    := List.Subset.refl _
  sublist    := by simp [he]
  steady _   := .inl (by simp [h, he])
  nonempty   := absurd h
  complete c := by
    have hl : p.rows = [] := by simpa [h, hd] using c
    simp [hl]

theorem fetch (h : Good old p) (hn : 0 < n) (hd : p.done = false) : Good old (p.fetch n) := by
  cases lt_or_ge p.offset p.rows.length
  case inl hl =>
    have he : p.emitted = p.rows.take p.offset := by
      cases h.steady hd
      case inl he => exact he
      case inr he => exact absurd he.right hl.not_ge
    have ha : p.emitted ++ p.page n = p.rows.take (p.offset + n) := by
      rw [he, page, List.take_add]
    have hp : p.page n ≠ [] := mt (page_eq_nil_iff hn).mp hl.not_ge
    rw [fetch_of_lt hn hl, ha]
    exact {
      present    := h.present
      sublist    := List.take_sublist ..
      steady _   := .inl rfl
      nonempty _ := ha ▸ List.append_ne_nil_of_right_ne_nil _ hp
      complete c := by
        cases c
        case inl hc => exact absurd hc (by simp [hd])
        case inr hc => simpa [List.take_of_length_le hc] using h.present }
  case inr hl =>
    rw [fetch_of_le hn hl]
    exact { h with
      steady hd  := by cases hd
      complete _ := h.complete (.inr hl) }

theorem suffix_of_le (h : Good old p) (hd : p.done = false) (hl : p.rows.length ≤ p.offset) :
    p.emitted <:+ p.rows := by
  cases h.steady hd
  case inl he => rw [he, List.take_of_length_le hl]
  case inr he => exact he.left

theorem emitted_of_start (h : Good old p) (hd : p.done = false) (ho : p.offset = 0) :
    p.emitted = [] := by
  cases h.steady hd
  case inl he => simp [he, ho]
  case inr he =>
    have hr : p.rows = [] := by simpa [ho] using he.right
    simpa [hr] using he.left

theorem push (h : Good old p) (hh : p.Harmless) : Good old (p.push a) where
  present    := List.subset_cons_of_subset _ h.present
  sublist    := h.sublist.cons _
  nonempty   := h.nonempty
  complete c := h.complete (c.imp_right Nat.le_of_succ_le)
  steady hd  := by
    have hd : p.done = false := hd
    cases hh.resolve_left (by simp [hd])
    case inl ho => exact .inl (by simp [Pager.push, ho, h.emitted_of_start hd ho])
    case inr hl =>
      exact .inr ⟨(h.suffix_of_le hd hl.le).trans (List.suffix_cons ..), Nat.succ_le_of_lt hl⟩

-- Unless a new entry is harmless, the one in front of the offset has been read and is read again.
theorem doomed_push (h : Good old p) (hh : ¬p.Harmless) : Doomed (p.push a) := by
  have ⟨hd, ho, hl⟩ : p.done = false ∧ p.offset ≠ 0 ∧ p.offset ≤ p.rows.length := by
    simpa [Harmless] using hh
  have hp : p.offset = p.offset - 1 + 1 := (Nat.succ_pred ho).symm
  suffices hs : ∃ a ∈ p.emitted, a ∈ p.rows.drop (p.offset - 1) by
    have ⟨b, he, hb⟩ := hs
    refine .inr ⟨hd, b, he, ?_⟩
    change b ∈ (a :: p.rows).drop p.offset
    rw [hp]
    exact hb
  cases h.steady hd
  case inl he =>
    have hlt : p.offset - 1 < p.rows.length := Nat.sub_one_lt_of_le (Nat.pos_of_ne_zero ho) hl
    refine ⟨p.rows[p.offset - 1], ?_, ?_⟩
    · rw [he]
      exact List.mem_take_iff_getElem.mpr ⟨p.offset - 1, by omega, rfl⟩
    · exact List.mem_drop_iff_getElem.mpr ⟨0, by omega, rfl⟩
  case inr he =>
    have hn := h.nonempty ho
    refine ⟨p.emitted.getLast hn, List.getLast_mem hn, ?_⟩
    have hr : p.rows ≠ [] := List.ne_nil_of_length_pos (by omega)
    have hm : p.rows.getLast hr ∈ p.rows.drop (p.rows.length - 1) := by
      simp [List.drop_length_sub_one hr]
    rw [he.left.getLast hn]
    exact List.drop_subset_drop_left _ (by omega) hm

end Good

namespace Doomed

theorem push (h : Doomed p) : Doomed (p.push a) := by
  cases h
  case inl hn => exact .inl hn
  case inr h  =>
    have ⟨hd, b, he, hb⟩ := h
    refine .inr ⟨hd, b, he, ?_⟩
    change b ∈ (a :: p.rows).drop p.offset
    cases ho : p.offset <;> rw [ho] at hb
    case zero   => exact List.mem_cons_of_mem _ hb
    case succ k => exact List.drop_subset_drop_left _ k.le_succ hb

theorem fetch (h : Doomed p) (hn : 0 < n) (hd : p.done = false) : Doomed (p.fetch n) := by
  cases lt_or_ge p.offset p.rows.length
  case inr hl =>
    rw [fetch_of_le hn hl]
    cases h
    case inl hu => exact .inl hu
    case inr h  =>
      have ⟨_, b, _, hb⟩ := h
      simp [List.drop_eq_nil_of_le hl] at hb
  case inl hl =>
    rw [fetch_of_lt hn hl]
    cases h
    case inl hu => exact .inl (mt List.Nodup.of_append_left hu)
    case inr h  =>
      have ⟨_, b, he, hb⟩ := h
      rw [← List.take_append_drop n (p.rows.drop p.offset), List.drop_drop] at hb
      cases List.mem_append.mp hb
      case inl hp => exact .inl (fun hu => List.disjoint_of_nodup_append hu he hp)
      case inr hr => exact .inr ⟨hd, b, List.mem_append_left _ he, hr⟩

theorem not_nodup (h : Doomed p) (hd : p.done) : ¬p.emitted.Nodup := by
  cases h
  case inl hn => exact hn
  case inr h  => exact absurd hd (by simp [h.left])

end Doomed
end Pager
