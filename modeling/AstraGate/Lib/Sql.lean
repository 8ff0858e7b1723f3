import Mathlib.Data.List.Nodup

-- What SQLAlchemy makes of the rows that a query returns.
namespace Sql

inductive Error
  | multipleResultsFound
deriving DecidableEq

-- `result.scalar_one_or_none()`
def scalarOneOrNone : List α → Except Error (Option α)
  | []  => .ok none
  | [x] => .ok (some x)
  | _   => .error .multipleResultsFound

variable {rows : List α} {x : α}

@[simp]
theorem scalarOneOrNone_nil : scalarOneOrNone ([] : List α) = .ok none :=
  rfl

@[simp]
theorem scalarOneOrNone_singleton : scalarOneOrNone [x] = .ok (some x) :=
  rfl

theorem scalarOneOrNone_eq_some_iff : scalarOneOrNone rows = .ok (some x) ↔ rows = [x] := by
  match rows with
  | []          => simp
  | [y]         => simp
  | _ :: _ :: _ => simp [scalarOneOrNone]

theorem scalarOneOrNone_eq_none_iff : scalarOneOrNone rows = .ok none ↔ rows = [] := by
  match rows with
  | []          => simp
  | [_]         => simp
  | _ :: _ :: _ => simp [scalarOneOrNone]

theorem scalarOneOrNone_map (h : rows.length ≤ 1) (f : α → β) :
    scalarOneOrNone (rows.map f) = .ok (rows.head?.map f) := by
  match rows with
  | []          => rfl
  | [_]         => rfl
  | _ :: _ :: _ => simp at h

-- A query by a unique column selects one row at most.
theorem length_filter_le_one [DecidableEq β] {f : α → β} (h : (rows.map f).Nodup) (b : β) :
    (rows.filter (f · = b)).length ≤ 1 := by
  have hc := List.nodup_iff_count_le_one.mp h b
  rw [List.count, List.countP_map, List.countP_eq_length_filter] at hc
  exact hc

-- A query that no two rows answer.
theorem scalarOneOrNone_filter_cases {p : α → Bool} (hd : rows.Nodup)
    (hu : ∀ x ∈ rows, ∀ y ∈ rows, p x → p y → x = y) :
    (∃ x ∈ rows, p x ∧ scalarOneOrNone (rows.filter p) = .ok (some x)) ∨
    (∀ x ∈ rows, ¬p x) ∧ scalarOneOrNone (rows.filter p) = .ok none := by
  have hf := hd.filter p
  have hm {x : α} : x ∈ rows.filter p → x ∈ rows ∧ p x := List.mem_filter.mp
  match he : rows.filter p with
  | []          => exact .inr ⟨List.filter_eq_nil_iff.mp he, rfl⟩
  | [x]         =>
    have ⟨hx, hp⟩ := hm (he ▸ List.mem_singleton_self x)
    exact .inl ⟨x, hx, hp, rfl⟩
  | x :: y :: _ =>
    rw [he] at hf
    have hx := hm (x := x) (by simp [he])
    have hy := hm (x := y) (by simp [he])
    have hn := hu x hx.left y hy.left hx.right hy.right
    simp [hn] at hf

section References

variable [DecidableEq κ] {ref : α → Option κ} {key : β → κ} {k k' : κ} {new : List α}

-- The rows whose column `ref` refers to `k`.
def referring (ref : α → Option κ) (k : κ) (rows : List α) : List α :=
  rows.filter (ref · = some k)

-- The constraint that a column `ref` refers to nothing but the primary keys of the other rows.
def ForeignKey (ref : α → Option κ) (key : β → κ) (rows : List α) (others : List β) : Prop :=
  ∀ row ∈ rows, ∀ k, ref row = some k → ∃ other ∈ others, key other = k

theorem referring_append_of_ne (hr : ∀ row ∈ new, ref row = some k') (hn : k' ≠ k) :
    referring ref k (rows ++ new) = referring ref k rows := by
  have hn : new.filter (ref · = some k) = [] :=
    List.filter_eq_nil_iff.mpr (fun row hm => by simp [hr row hm, hn])
  rw [referring, List.filter_append, hn, List.append_nil, referring]

theorem referring_append_of_new (ho : ∀ row ∈ rows, ref row ≠ some k)
    (hr : ∀ row ∈ new, ref row = some k) : referring ref k (rows ++ new) = new := by
  have ho : rows.filter (ref · = some k) = [] :=
    List.filter_eq_nil_iff.mpr (fun row hm => by simpa using ho row hm)
  have hr : new.filter (ref · = some k) = new :=
    List.filter_eq_self.mpr (fun row hm => by simpa using hr row hm)
  rw [referring, List.filter_append, ho, hr, List.nil_append]

namespace ForeignKey

variable {others others' : List β}

omit [DecidableEq κ] in
theorem append (h : ForeignKey ref key rows others) (hn : ForeignKey ref key new others') :
    ForeignKey ref key (rows ++ new) (others ++ others') := by
  intro row hm k hr
  cases List.mem_append.mp hm
  case inl hm =>
    have ⟨other, ho, hk⟩ := h row hm k hr
    exact ⟨other, List.mem_append_left _ ho, hk⟩
  case inr hm =>
    have ⟨other, ho, hk⟩ := hn row hm k hr
    exact ⟨other, List.mem_append_right _ ho, hk⟩

omit [DecidableEq κ] in
theorem ne_of_new (h : ForeignKey ref key rows others) (hk : ∀ other ∈ others, key other ≠ k) :
    ∀ row ∈ rows, ref row ≠ some k := by
  intro row hm hr
  have ⟨other, ho, he⟩ := h row hm k hr
  exact hk other ho he

end ForeignKey
end References
end Sql
