import AstraGate.Execution.Export.Step
import AstraGate.Lib.Paging

namespace Usage

variable {startDate endDate : Option Time} {rows : List ExportRow} {row : ExportRow}

theorem chunkSize_pos : 0 < chunkSize := by
  decide

theorem csvRow_ne_csvHeader : csvRow row ≠ csvHeader := by
  simp [csvRow, csvHeader]

theorem createdAt_of_csvRow (h : csvRow r₁ = csvRow r₂) : r₁.createdAt = r₂.createdAt :=
  Cell.isoformat.inj (List.cons.inj h).left

theorem insertionSort_of_later (h : ∀ r ∈ rows, r.createdAt < row.createdAt) :
    (rows ++ [row]).insertionSort (fun r₁ r₂ => r₂.createdAt ≤ r₁.createdAt) =
      row :: rows.insertionSort (fun r₁ r₂ => r₂.createdAt ≤ r₁.createdAt) := by
  induction rows
  case nil => rfl
  case cons r rows ih =>
    have ⟨hr, h⟩ := List.forall_mem_cons.mp h
    rw [List.cons_append, List.insertionSort_cons, ih h]
    exact if_neg hr.not_ge

theorem selectRange_of_later (h : ∀ r ∈ rows, r.createdAt < row.createdAt) :
    selectRange startDate endDate (rows ++ [row]) =
      if inRange startDate endDate row then row :: selectRange startDate endDate rows
      else selectRange startDate endDate rows := by
  rw [selectRange, List.filter_append]
  split_ifs with hr
  case pos =>
    rw [List.filter_singleton, hr]
    exact insertionSort_of_later fun r hm => h r (List.mem_of_mem_filter hm)
  case neg => simp [hr, selectRange]

theorem length_selectRange (h : ∀ r ∈ rows, inRange startDate endDate r) :
    (selectRange startDate endDate rows).length = rows.length := by
  rw [selectRange, List.length_insertionSort, List.filter_eq_self.mpr h]

theorem nodup_map_selectRange (h : (rows.map ExportRow.createdAt).Nodup) :
    ((selectRange startDate endDate rows).map ExportRow.createdAt).Nodup := by
  rw [selectRange, ((List.perm_insertionSort ..).map _).nodup_iff]
  exact h.sublist (List.filter_sublist.map _)

end Usage

namespace Export

open Usage

variable {startDate endDate : Option Time} {s s' : State} {row : ExportRow}

namespace State

-- The export, as it pages through the rows of the range.
def pager (startDate endDate : Option Time) (s : State) : Pager ExportRow where
  rows    := selectRange startDate endDate s.rows
  offset  := s.offset
  emitted := s.emitted
  done    := s.done

theorem pager_query :
    (s.query startDate endDate).pager startDate endDate =
      (s.pager startDate endDate).fetch chunkSize := by
  have hp : (s.pager startDate endDate).page chunkSize =
      selectPage startDate endDate s.offset s.rows :=
    rfl
  rw [Pager.fetch, hp, query]
  cases selectPage startDate endDate s.offset s.rows <;> rfl

theorem pager_insert (h : ∀ r ∈ s.rows, r.createdAt < row.createdAt) :
    (s.insert row).pager startDate endDate =
      if inRange startDate endDate row then (s.pager startDate endDate).push row
      else s.pager startDate endDate := by
  unfold pager insert
  rw [selectRange_of_later h]
  split_ifs <;> rfl

theorem Initial.good (h : s.Initial) :
    (s.pager startDate endDate).Good (selectRange startDate endDate s.rows) :=
  .start (p := s.pager startDate endDate) h.offset h.emitted h.running

-- The rows have been created at different times.
def Distinct (s : State) : Prop :=
  (s.rows.map ExportRow.createdAt).Nodup

theorem query_rows : (s.query startDate endDate).rows = s.rows := by
  unfold query
  split <;> rfl

theorem nodup_csv (hd : s.Distinct) (h : s.emitted.Sublist (selectRange startDate endDate s.rows)) :
    s.csv.Nodup := by
  have hn : ((selectRange startDate endDate s.rows).map ExportRow.createdAt).Nodup :=
    nodup_map_selectRange hd
  have hm : (s.emitted.map csvRow).Nodup := by
    refine List.Nodup.map_on (fun r₁ h₁ r₂ h₂ he => ?_) (h.nodup hn.of_map)
    exact List.inj_on_of_nodup_map hn (h.subset h₁) (h.subset h₂) (createdAt_of_csvRow he)
  refine List.nodup_cons.mpr ⟨fun hc => ?_, hm⟩
  have ⟨r, _, he⟩ := List.mem_map.mp hc
  exact csvRow_ne_csvHeader he

end State

namespace Step

-- A row is inserted out of the range, before the first query or after the last one, or else while
-- the rows of the range are fewer than those that the queries had room for.
def Harmless (e : Step startDate endDate s s') : Prop :=
  match e with
  | insert row _ => inRange startDate endDate row → (s.pager startDate endDate).Harmless
  | query _      => True

theorem preserves_distinct (e : Step startDate endDate s s') (h : s.Distinct) : s'.Distinct := by
  cases e
  case insert row later =>
    rw [State.Distinct, State.insert, List.map_append]
    refine List.Nodup.append h (List.nodup_singleton _) (fun t ht he => ?_)
    have ⟨r, hr, hc⟩ := List.mem_map.mp ht
    exact (later r hr).ne (hc.trans <| List.mem_singleton.mp he)
  case query => rwa [State.Distinct, State.query_rows]

theorem keeps_good (e : Step startDate endDate s s') (h : (s.pager startDate endDate).Good old)
    (hh : e.Harmless) : (s'.pager startDate endDate).Good old := by
  cases e
  case insert row later =>
    rw [State.pager_insert later]
    split_ifs with hr
    case pos => exact h.push (hh hr)
    case neg => exact h
  case query running =>
    rw [State.pager_query]
    exact h.fetch chunkSize_pos running

theorem doomed_of_not_harmless (e : Step startDate endDate s s')
    (h : (s.pager startDate endDate).Good old) (hh : ¬e.Harmless) :
    (s'.pager startDate endDate).Doomed := by
  cases e
  case insert row later =>
    have ⟨hr, hh⟩ := Classical.not_imp.mp hh
    rw [State.pager_insert later, if_pos hr]
    exact h.doomed_push hh
  case query => exact absurd trivial hh

theorem preserves_doomed (e : Step startDate endDate s s')
    (h : (s.pager startDate endDate).Doomed) : (s'.pager startDate endDate).Doomed := by
  cases e
  case insert row later =>
    rw [State.pager_insert later]
    split_ifs
    case pos => exact h.push
    case neg => exact h
  case query running =>
    rw [State.pager_query]
    exact h.fetch chunkSize_pos running

theorem offset_lt (e : Step startDate endDate s s')
    (h : s.offset < (selectRange startDate endDate s.rows).length + chunkSize) :
    s'.offset < (selectRange startDate endDate s'.rows).length + chunkSize := by
  cases e
  case insert row later =>
    rw [State.insert, selectRange_of_later later]
    split_ifs
    case pos => exact h.trans_le (Nat.add_le_add_right (Nat.le_succ _) _)
    case neg => exact h
  case query =>
    have hp := Pager.offset_fetch_lt (p := s.pager startDate endDate) chunkSize_pos h
    rwa [← State.pager_query] at hp

theorem room (e : Step startDate endDate s s') : (s'.pager startDate endDate).room chunkSize =
    (s.pager startDate endDate).room chunkSize + chunkSize * e.queries := by
  cases e
  case insert row later =>
    rw [State.pager_insert later]
    split_ifs <;> rfl
  case query running =>
    rw [State.pager_query, Pager.room_fetch chunkSize_pos running]
    rfl

end Step

-- The header and each row are yielded once, and the rows that were there at the start are yielded.
structure ExactlyOnce (startDate endDate : Option Time) (s s' : State) : Prop where
  nodup : s'.csv.Nodup
  once  : s'.done → ∀ r ∈ selectRange startDate endDate s.rows, s'.csv.count (csvRow r) = 1

theorem exactlyOnce_of_good (h : s'.Distinct)
    (hg : (s'.pager startDate endDate).Good (selectRange startDate endDate s.rows)) :
    ExactlyOnce startDate endDate s s' where
  nodup        := s'.nodup_csv h hg.sublist
  once hd r hr := by
    have he : r ∈ s'.emitted := hg.complete (.inl hd) hr
    have hm : csvRow r ∈ s'.csv := List.mem_cons_of_mem _ (List.mem_map_of_mem he)
    exact List.count_eq_one_of_mem (s'.nodup_csv h hg.sublist) hm

theorem room_eq (es : Run startDate endDate s s') : (s'.pager startDate endDate).room chunkSize =
    (s.pager startDate endDate).room chunkSize + chunkSize * es.sum Step.queries := by
  induction es
  case refl         => rfl
  case step e _ ih => rw [ih, e.room, Steps.sum, Nat.mul_add, Nat.add_assoc]

-- However the queries are interleaved with insertions, the rows of the range bound their number.
theorem queries_lt (es : Run startDate endDate s s') (h : s.Initial) :
    chunkSize * es.sum Step.queries <
      (selectRange startDate endDate s'.rows).length + 2 * chunkSize := by
  have hs : (s.pager startDate endDate).room chunkSize = 0 := by
    simp [Pager.room, State.pager, h.offset, h.running]
  have hr : (s'.pager startDate endDate).room chunkSize ≤ s'.offset + chunkSize := by
    refine Nat.add_le_add_left ?_ _
    split_ifs
    case pos => exact le_rfl
    case neg => exact Nat.zero_le _
  have ho : s'.offset < (selectRange startDate endDate s'.rows).length + chunkSize :=
    es.invariant
      (I := fun t => t.offset < (selectRange startDate endDate t.rows).length + chunkSize)
      (fun e => e.offset_lt) (h.offset ▸ Nat.add_pos_right _ chunkSize_pos)
  calc chunkSize * es.sum Step.queries
    _ = (s'.pager startDate endDate).room chunkSize := by rw [room_eq es, hs, Nat.zero_add]
    _ ≤ s'.offset + chunkSize                       := hr
    _ < (selectRange startDate endDate s'.rows).length + 2 * chunkSize := by omega

-- Without further insertions the export comes to its end.
theorem exists_done (startDate endDate : Option Time) (s : State) :
    ∃ (s' : State) (_ : Run startDate endDate s s'), s'.done := by
  induction hn : (selectRange startDate endDate s.rows).length - s.offset
    using Nat.strong_induction_on generalizing s
  case h n ih =>
    cases hd : s.done
    case true  => exact ⟨s, .refl, hd⟩
    case false =>
      have hq : (s.query startDate endDate).pager startDate endDate =
          (s.pager startDate endDate).fetch chunkSize :=
        State.pager_query
      cases lt_or_ge s.offset (selectRange startDate endDate s.rows).length
      case inr hl =>
        rw [Pager.fetch_of_le chunkSize_pos hl] at hq
        exact ⟨_, .step (.query hd) .refl, congrArg Pager.done hq⟩
      case inl hl =>
        rw [Pager.fetch_of_lt chunkSize_pos hl] at hq
        have ho : (s.query startDate endDate).offset = s.offset + chunkSize :=
          congrArg Pager.offset hq
        have hp := chunkSize_pos
        have ⟨s', es, h⟩ := ih _ (by rw [State.query_rows, ho]; omega)
          (s.query startDate endDate) rfl
        exact ⟨s', .step (.query hd) es, h⟩

theorem harmless_or_doomed (es : Run startDate endDate s s') (h : s.Initial) :
    es.All Step.Harmless ∧
      (s'.pager startDate endDate).Good (selectRange startDate endDate s.rows) ∨
    ¬es.All Step.Harmless ∧ (s'.pager startDate endDate).Doomed :=
  es.all_and_or
    (I := fun t => (t.pager startDate endDate).Good (selectRange startDate endDate s.rows))
    (D := fun t => (t.pager startDate endDate).Doomed)
    (fun e hg hp => e.keeps_good hg hp) (fun e hg hp => e.doomed_of_not_harmless hg hp)
    (fun e hd => e.preserves_doomed hd) h.good

-- All exports end. Those without a harmful insertion yield each row once, and no others do.
theorem exportUsageRecords_exactlyOnce_iff (es : Run startDate endDate s s') (h : s.Initial) :
    chunkSize * es.sum Step.queries <
        (selectRange startDate endDate s'.rows).length + 2 * chunkSize ∧
      (∃ (s'' : State) (_ : Run startDate endDate s' s''), s''.done) ∧
      (es.All Step.Harmless → ExactlyOnce startDate endDate s s') ∧
      (s'.done → (ExactlyOnce startDate endDate s s' ↔ es.All Step.Harmless)) := by
  have hd : s'.Distinct := es.invariant (fun e => e.preserves_distinct) h.distinct
  refine ⟨queries_lt es h, exists_done .., ?_⟩
  cases harmless_or_doomed es h
  case inl hg =>
    have he := exactlyOnce_of_good hd hg.right
    exact ⟨fun _ => he, fun _ => iff_of_true he hg.left⟩
  case inr hn =>
    refine ⟨(absurd · hn.left), fun hd => iff_of_false (fun he => ?_) hn.left⟩
    exact hn.right.not_nodup hd (List.nodup_cons.mp he.nodup).right.of_map

def callAt (createdAt : Time) : ExportRow where
  createdAt       := createdAt
  email           := "ada@example.com"
  keyPrefix       := "sk-astra"
  modelName       := "gpt-4o"
  providerName    := "openai"
  inputTokens     := 1000
  outputTokens    := 200
  baseCostUsd     := 9 / 2000
  markupRate      := 1 / 5
  billedAmountUsd := 27 / 5000
  latencyMs       := some 800
  cacheHit        := false
  status          := "success"

theorem exportUsageRecords_exactlyOnce_of_two : ∃ (s s' : State) (_ : Run (some 2) none s s'),
    s'.done ∧ s'.csv = [csvHeader, csvRow (callAt 3), csvRow (callAt 2)] ∧
      ExactlyOnce (some 2) none s s' := by
  let s : State := { rows := [1, 3, 2].map callAt, offset := 0, emitted := [], done := false }
  let es : Run (some 2) none s _ := .step (.query rfl) <| .step (.query rfl) .refl
  have hi : s.Initial := ⟨by decide, rfl, rfl, rfl⟩
  have ⟨_, _, he, _⟩ := exportUsageRecords_exactlyOnce_iff es hi
  exact ⟨s, _, es, by decide +kernel, by decide +kernel, he ⟨trivial, trivial, trivial⟩⟩

-- After a first page that is full and has all rows of the range, one more row is not harmless.
theorem not_harmless_of_full (h : s.Initial)
    (hl : (selectRange startDate endDate s.rows).length = chunkSize) :
    ¬((s.query startDate endDate).pager startDate endDate).Harmless := by
  have ho : s.offset < (selectRange startDate endDate s.rows).length := by
    rw [h.offset, hl]
    exact chunkSize_pos
  rw [State.pager_query, Pager.fetch_of_lt chunkSize_pos ho]
  simp [Pager.Harmless, State.pager, h.offset, h.running, hl, chunkSize_pos.ne']

-- One call after the first page of 500, and the last row of that page is the first of the next.
theorem not_exportUsageRecords_exactlyOnce_of_insert :
    ¬∀ (startDate endDate : Option Time) (s s' : State) (_ : Run startDate endDate s s'),
      s.Initial → ExactlyOnce startDate endDate s s' := by
  intro h
  let s : State := {
    rows := (List.range 500).map callAt, offset := 0, emitted := [], done := false }
  have hi : s.Initial := by
    refine ⟨?_, rfl, rfl, rfl⟩
    rw [List.map_map]
    exact List.nodup_range.map (fun _ _ => id)
  have hl : (selectRange none none s.rows).length = chunkSize := by
    rw [length_selectRange fun _ _ => rfl, List.length_map, List.length_range, chunkSize]
  have later : ∀ r ∈ (s.query none none).rows, r.createdAt < (callAt 500).createdAt := by
    rw [State.query_rows]
    simp only [s, List.forall_mem_map, List.mem_range]
    exact fun _ ht => ht
  obtain ⟨s', es, hd⟩ := exists_done none none ((s.query none none).insert (callAt 500))
  let es' : Run none none s s' := .step (.query rfl) <| .step (.insert (callAt 500) later) es
  cases harmless_or_doomed es' hi
  case inl hg => exact not_harmless_of_full hi hl (hg.left.right.left rfl)
  case inr hn =>
    exact hn.right.not_nodup hd (List.nodup_cons.mp (h none none s s' es' hi).nodup).right.of_map

end Export
