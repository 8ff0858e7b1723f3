import AstraGate.Execution.Markup.Concurrent
import AstraGate.Services.Theorems.Markup

open Function

namespace Markup.Concurrent

variable {providers : List UUID} {s s' s₁ s₂ : State} {id : UUID} {t : TaskId} {k : Task}

-- Every lookup of a rate finds one row at most, so that requests can be priced.
structure Priced (configs : List MarkupConfig) : Prop where
  unambiguous : Unambiguous configs
  resolves    : ∀ models : List Model, (models.map Model.id).Nodup → ∀ modelId providerId,
    ∃ rate, resolveFromDb models configs modelId providerId = .ok rate

theorem priced_iff {configs : List MarkupConfig} : Priced configs ↔ Unambiguous configs :=
  ⟨Priced.unambiguous, fun h => ⟨h, fun _ hm _ _ => ⟨_, resolveFromDb_of_unambiguous hm h⟩⟩⟩

namespace Step

-- A row that is committed is the first one at its level: no other transaction has committed one
-- since the lookup.
def Undisturbed {s s' : State} : Step providers s s' → Prop
  | commit _ (.insert l _ _) _ => l.rows s.configs = []
  | _                          => True

theorem unambiguous_iff (e : Step providers s s') (h : Unambiguous s.configs) :
    Unambiguous s'.configs ↔ e.Undisturbed := by
  cases e
  case commit t write task =>
    cases write
    case insert l id rate =>
      have hr : ∀ l' : Level, l'.rows (s.commit t (.insert l id rate)).configs =
          l'.rows s.configs ++ if l = l' then [l.newConfig id rate] else [] :=
        fun l' => Level.rows_append.trans <| congrArg _ Level.rows_newConfig
      constructor
      case mp =>
        intro hu
        have hu := hu l
        rw [hr] at hu
        have hn : l.rows s.configs = [] := by simpa using hu
        exact hn
      case mpr =>
        intro hn l'
        rw [hr]
        by_cases hl : l = l'
        case pos =>
          have hn : l'.rows s.configs = [] := hl ▸ hn
          simp [hn, hl]
        case neg => simpa [hl] using h l'
    case update id rate =>
      refine iff_of_true (fun l' => ?_) trivial
      have hr :
          l'.rows (s.commit t (.update id rate)).configs = setRate id rate (l'.rows s.configs) :=
        Level.rows_setRate
      rw [hr, setRate_length]
      exact h l'
  all_goals exact iff_of_true h trivial

end Step

-- The lookup and the insertion are two statements, and the constraint does not stop a second row.
theorem priced_iff_undisturbed (es : Run providers s₁ s₂) (h : s₁.Initial) :
    es.Visits (fun s => Priced s.configs) ↔ es.All Step.Undisturbed :=
  es.all_iff_all (I := fun s => Unambiguous s.configs) (fun _ _ hp => hp.unambiguous)
    (fun e hu => priced_iff.trans (e.unambiguous_iff hu)) (fun l => h.unambiguous l)

theorem State.New.setTask (h : s.New id) (hk : ∀ l rate, k ≠ .flushed (.insert l id rate)) :
    (s.setTask t k).New id where
  committed           := h.committed
  flushed t' l rate   := by
    by_cases ht : t' = t
    case pos => simpa [State.setTask, ht] using hk l rate
    case neg => simpa [State.setTask, ht] using h.flushed t' l rate

-- Two requests for different levels do not disturb each other.
theorem priced_of_two_levels : ∃ (s₁ s₂ : State) (es : Run [3] s₁ s₂),
    s₂.configs.length = 2 ∧ es.Visits fun s => Priced s.configs := by
  let s₁ : State := { configs := [], tasks := fun _ => .fresh }
  let body : MarkupRequest := ⟨0, by decide +kernel⟩
  have hn : ∀ id, ((s₁.setTask 1 <| .looked .global 0 none).setTask 2 <|
      .looked (.provider 3) 0 none).New id :=
    fun id => State.New.setTask (State.New.setTask ⟨nofun, nofun⟩ nofun) nofun
  let es : Run [3] s₁ _ :=
    .step (.look 1 .global body none rfl nofun rfl) <|
    .step (.look 2 (.provider 3) body none rfl (by decide) rfl) <|
    .step (.insert 1 .global 1 0 rfl (hn 1) nofun) <|
    .step (.insert 2 (.provider 3) 2 0 rfl ((hn 2).setTask nofun) nofun) <|
    .step (.commit 1 (.insert .global 1 0) rfl) <|
    .step (.commit 2 (.insert (.provider 3) 2 0) rfl) .refl
  have h : s₁.Initial := ⟨fun l => by cases l <;> exact Nat.zero_le 1, fun _ => rfl⟩
  exact ⟨s₁, _, es, rfl, (priced_iff_undisturbed es h).mpr
    ⟨trivial, trivial, trivial, trivial, rfl, rfl, trivial⟩⟩

-- Two requests for the global rate that both find none.
theorem not_priced_of_two_inserts : ∃ (s₁ s₂ : State) (_ : Run [] s₁ s₂), s₁.Initial ∧
    (globalRows s₂.configs).length = 2 ∧
    resolveFromDb [⟨7, 3, "gpt-4o", 0, 0, none, true⟩] s₂.configs 7 3 =
      .error .multipleResultsFound := by
  let s₁ : State := { configs := [], tasks := fun _ => .fresh }
  let body : MarkupRequest := ⟨0, by decide +kernel⟩
  have hn : ∀ id,
      ((s₁.setTask 1 <| .looked .global 0 none).setTask 2 <| .looked .global 0 none).New id :=
    fun id => State.New.setTask (State.New.setTask ⟨nofun, nofun⟩ nofun) nofun
  let es : Run [] s₁ _ :=
    .step (.look 1 .global body none rfl nofun rfl) <|
    .step (.look 2 .global body none rfl nofun rfl) <|
    .step (.insert 1 .global 1 0 rfl (hn 1) nofun) <|
    .step (.insert 2 .global 2 0 rfl ((hn 2).setTask nofun) nofun) <|
    .step (.commit 1 (.insert .global 1 0) rfl) <|
    .step (.commit 2 (.insert .global 2 0) rfl) .refl
  exact ⟨s₁, _, es, ⟨fun l => by cases l <;> exact Nat.zero_le 1, fun _ => rfl⟩, rfl, rfl⟩

end Markup.Concurrent
