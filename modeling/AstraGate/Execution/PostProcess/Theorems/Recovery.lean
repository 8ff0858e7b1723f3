import AstraGate.Execution.PostProcess.Step

open Function

namespace PostProcess

-- A call of `_post_process_in_session` with these arguments has raised an exception, and has been
-- rolled back.
def Task.Failed (args : Arguments) : Task → Prop
  | failed task => task.args = some args
  | _           => False

variable {intOf : Json.IntOf} {users : Set UUID} {s s' s₁ s₂ : State} {t : TaskId}

namespace Step

-- The task that takes the step.
def taskId : Step intOf users s s' → Option TaskId
  | tick _ => none
  | start t .. | missing t .. | select t .. | insert t .. | get t .. | skip t .. | release t ..
  | settle t .. | delete t .. | alert t .. | deduct t .. | check t .. | bump t .. | commit t ..
  | load t .. | write t .. | commitKey t _ | fail t _ => some t

-- The step changes nothing that is committed.
def Keeps (_ : Step intOf users s s') : Prop :=
  s'.committed = s.committed

-- The step removes the key that records the hold of a request.
def Deletes (requestId : String) : Step intOf users s s' → Prop
  | delete _ w _ ok _ => ok ∧ w.args.requestId = requestId
  | _                 => False

theorem preserves_over (e : Step intOf users s s') (h : s.tasks t = .over) :
    s'.tasks t = .over := by
  have hu : ∀ {t' k}, s.tasks t' ≠ .over → update s.tasks t' k t = .over := by
    intro t' k hn
    have ht : t ≠ t' := fun he => hn (he ▸ h)
    rw [update_of_ne ht, h]
  cases e
  case tick => exact h
  case fail t' task =>
    exact hu (fun ho => by rw [ho] at task; contradiction)
  all_goals exact hu (by simp [*])

-- Only a commit, after which the task is over, changes what is committed.
theorem keeps_of_not_over (e : Step intOf users s s') (h : e.taskId = some t)
    (hn : s'.tasks t ≠ .over) : e.Keeps := by
  cases e
  case commit t' w task =>
    cases h
    exact absurd (update_self ..) hn
  case commitKey t' task =>
    cases h
    exact absurd (update_self ..) hn
  all_goals rfl

theorem holds_of_not_deletes (e : Step intOf users s s') (h : ¬e.Deletes requestId) :
    s'.holds requestId = s.holds requestId := by
  cases e
  case delete t' w account ok task =>
    cases ok
    case false => rfl
    case true  =>
      have hr : requestId ≠ w.args.requestId := fun he => h ⟨rfl, he.symm⟩
      exact update_of_ne hr ..
  all_goals rfl

theorem holds_of_deletes (e : Step intOf users s s') (h : e.Deletes requestId) :
    s'.holds requestId = none := by
  cases e <;> try contradiction
  case delete t' w account ok task =>
    obtain ⟨rfl, rfl⟩ := h
    exact update_self ..

-- No step records a hold.
theorem preserves_none (e : Step intOf users s s') (h : s.holds requestId = none) :
    s'.holds requestId = none := by
  by_cases hd : e.Deletes requestId
  case pos => exact e.holds_of_deletes hd
  case neg => rw [e.holds_of_not_deletes hd, h]

end Step

namespace Run

theorem keeps_of_not_over (es : Run intOf users s₁ s₂) (hn : s₂.tasks t ≠ .over) :
    es.All (fun e => e.taskId = some t → e.Keeps) := by
  induction es
  case refl => trivial
  case step e es ih =>
    refine ⟨fun he => e.keeps_of_not_over he (fun ho => hn ?_), ih hn⟩
    exact es.invariant (fun e => e.preserves_over) ho

theorem holds_of_not_deletes (es : Run intOf users s₁ s₂) (hd : es.All (¬·.Deletes requestId)) :
    s₂.holds requestId = s₁.holds requestId :=
  es.invariant_of_all (I := fun s => s.holds requestId = s₁.holds requestId)
    (fun e h hd => (e.holds_of_not_deletes hd).trans h) rfl hd

theorem not_deletes_of_holds (es : Run intOf users s₁ s₂) (h : s₂.holds requestId = some hold) :
    es.All (¬·.Deletes requestId) := by
  induction es
  case refl => trivial
  case step e es ih =>
    refine ⟨fun hd => ?_, ih h⟩
    have hn := es.invariant (fun e => e.preserves_none) (e.holds_of_deletes hd)
    exact nomatch hn.symm.trans h

-- `GET` finds what was recorded before the run if nothing has removed it by then.
theorem getHoldAmount_eq_some_iff (es : Run intOf users s₁ s₂)
    (hh : s₁.holds requestId = some hold) :
    Credit.getHoldAmount (s₂.holds requestId) s₂.now true = some hold.amount ↔
      es.All (¬·.Deletes requestId) ∧ s₂.now < hold.expires := by
  constructor
  case mp =>
    intro h
    have ⟨found, hf, _⟩ := Option.map_eq_some_iff.mp h
    have ⟨hs, hl⟩ := Option.filter_eq_some_iff.mp hf
    have hd := es.not_deletes_of_holds hs
    cases hs.symm.trans ((es.holds_of_not_deletes hd).trans hh)
    exact ⟨hd, of_decide_eq_true hl⟩
  case mpr =>
    intro ⟨hd, hl⟩
    rw [es.holds_of_not_deletes hd, hh]
    simp [Credit.getHoldAmount, hl]

end Run

-- After the failure of a call, nothing that it has done is committed, and `release_hold` and
-- `settle_credit` still find what its request holds.
structure Recoverable (t : TaskId) (requestId : String) (amount : ℚ)
    (es : Run intOf users s₁ s₂) : Prop where
  keeps : es.All (fun e => e.taskId = some t → e.Keeps)
  held  : Credit.getHoldAmount (s₂.holds requestId) s₂.now true = some amount

-- If the call is the only one at work, then the database is as it was before.
theorem Recoverable.committed_eq {requestId : String} {amount : ℚ}
    {es : Run intOf users s₁ s₂} (h : Recoverable t requestId amount es)
    (ho : es.All (fun e => ∀ t', e.taskId = some t' → t' = t)) : s₂.committed = s₁.committed := by
  have hk := Steps.all_and.mpr ⟨ho, h.keeps⟩
  refine es.invariant_of_all (I := fun s => s.committed = s₁.committed) (fun e hc hp => ?_) rfl hk
  cases ht : e.taskId
  case none =>
    cases e <;> try contradiction
    exact hc
  case some t' =>
    have hk := hp.right (ht.trans (congrArg some <| hp.left t' ht))
    exact Eq.trans hk hc

-- The key in Redis is removed before the transaction is committed, and is not restored by a
-- rollback.
theorem recoverable_iff_not_deletes (es : Run intOf users s₁ s₂) (ht : (s₂.tasks t).Failed args)
    (hh : s₁.holds args.requestId = some hold) :
    Recoverable t args.requestId hold.amount es ↔
      es.All (¬·.Deletes args.requestId) ∧ s₂.now < hold.expires := by
  have hn : s₂.tasks t ≠ .over := fun ho => by rw [ho] at ht; contradiction
  have hg := es.getHoldAmount_eq_some_iff hh
  constructor
  case mp  => exact fun h => hg.mp h.held
  case mpr => exact fun h => ⟨es.keeps_of_not_over hn, hg.mpr h⟩

-- The commit of a response from the cache fails after the key has been removed.
theorem not_recoverable_of_deleted :
    ¬∀ (intOf : Json.IntOf) (users : Set UUID) (s₁ s₂ : State) (es : Run intOf users s₁ s₂)
      (t : TaskId) (args : Arguments) (hold : Credit.Hold), s₁.tasks t = .fresh →
      (s₂.tasks t).Failed args → s₁.holds args.requestId = some hold → s₂.now < hold.expires →
      Recoverable t args.requestId hold.amount es := by
  intro h
  let s₁ := Sample.state (fun _ => some ⟨1, 1, 60000⟩)
  let args := Sample.args "a" 4 [("cache_hit", .bool true)]
  have hb : bill Sample.intOf Sample.model (1 / 4) args.litellmResponse =
      .ok ⟨⟨0, 0, 0⟩, true, 0, 0⟩ := rfl
  have hn : none ≠ some 0 := (Option.some_ne_none 0).symm
  let es : Run Sample.intOf {1} s₁ _ :=
    .step (.start 0 args rfl) <|
    .step (.select 0 args 0 Sample.model Sample.provider rfl rfl rfl rfl) <|
    .step (.insert 0 args 0 Sample.model Sample.provider.toProvider _ 0 rfl hb rfl rfl <| by
      exact .setTask (.lockProvider <| .setTask Sample.unused hn) hn) <|
    .step (.get 0 _ true rfl) <|
    .step (.release 0 _ 1 rfl rfl rfl) <|
    .step (.delete 0 _ _ true rfl) <|
    .step (.bump 0 _ _ Sample.key rfl rfl rfl rfl) <|
    .step (.fail 0 rfl) .refl
  have hl : (0 : Time) < 60000 := by decide
  have hr := h Sample.intOf {1} s₁ _ es 0 args ⟨1, 1, 60000⟩ rfl rfl rfl hl
  exact nomatch (hr.held : none = some _)

-- The call fails before it removes the key of a response that is charged.
theorem recoverable_of_not_deleted : ∃ (intOf : Json.IntOf) (s₁ s₂ : State)
    (es : Run intOf {1} s₁ s₂), s₁.holds "a" = some ⟨1, 1, 60000⟩ ∧ s₂.now = 5 ∧
      Recoverable 0 "a" 1 es := by
  let s₁ := Sample.state (fun _ => some ⟨1, 1, 60000⟩)
  let args := Sample.args "a" 4 [("usage", .dict [("prompt_tokens", .int 1000)])]
  have hb : bill Sample.intOf Sample.model (1 / 4) args.litellmResponse =
      .ok ⟨⟨1000, 0, 1000⟩, false, 1 / 500, 1 / 400⟩ :=
    bill_ok_iff.mpr ⟨_, rfl, by decide +kernel⟩
  have hn : none ≠ some 0 := (Option.some_ne_none 0).symm
  let es : Run Sample.intOf {1} s₁ _ :=
    .step (.start 0 args rfl) <|
    .step (.select 0 args 0 Sample.model Sample.provider rfl rfl rfl rfl) <|
    .step (.insert 0 args 0 Sample.model Sample.provider.toProvider _ 0 rfl hb rfl rfl <| by
      exact .setTask (.lockProvider <| .setTask Sample.unused hn) hn) <|
    .step (.get 0 _ true rfl) <|
    .step (.settle 0 _ _ rfl Bool.false_ne_true rfl) <|
    .step (.tick 5) <|
    .step (.fail 0 rfl) .refl
  have hd : es.All (¬·.Deletes args.requestId) := ⟨id, id, id, id, id, id, id, trivial⟩
  have hl : (5 : Time) < 60000 := by decide
  have hf := recoverable_iff_not_deletes (t := 0) es (show Task.Failed args _ from rfl) rfl
  exact ⟨Sample.intOf, s₁, _, es, rfl, rfl, hf.mpr ⟨hd, hl⟩⟩

end PostProcess
