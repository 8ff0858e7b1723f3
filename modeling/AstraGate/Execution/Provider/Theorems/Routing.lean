import AstraGate.Execution.Provider.Theorems.Invariant

open Function

namespace Providers

open Admin PostProcess ProviderBalance

variable {s s' s₀ s₁ s₂ s₃ : State} {id i : UUID} {row : ProviderRow} {w : Walk} {fuel : Nat}

-- A provider is stopped once its hard stop is committed, or is only waiting for its commit.
inductive State.Stopped (s : State) (id : UUID) : Prop
  | committed (row : ProviderRow) (found : s.providers.rows id = some row)
    (hardStop : row.status = .hardStop)
  | ready (t : TaskId) (p : Provider) (row : ProviderRow) (task : s.tasks t = .ready id p)
    (locked : s.providers.pending id = some (t, some row)) (hardStop : row.status = .hardStop)

-- No status is cached for a provider that is not its own, or that has been stopped since.
structure State.Fresh (s : State) : Prop where
  named   : ∀ {id status}, s.cache id = some status → status.providerId = id
  current : ∀ {id status}, s.cache id = some status → status.status ≠ .hardStop → ¬s.Stopped id

-- A status that lets requests through is not cached after the provider has been stopped.
def Step.Timely (e : Step s s') : Prop :=
  match e with
  | fill _ w _ status _ => status.status ≠ .hardStop → ¬s.Stopped w.currentId
  | _                   => True

-- A check that finds the provider in hard stop, with a balance in the warning band.
def Step.Relapse (id : UUID) (e : Step s s') : Prop :=
  match e with
  | check _ id' _ p .. =>
    id' = id ∧ p.status = .hardStop ∧ p.hardStopThreshold ≤ p.balanceUsd ∧
      p.balanceUsd < p.warningThreshold
  | _ => False

-- The commit of a transaction of post-processing that leaves the provider in hard stop.
def Step.Stops (id : UUID) (e : Step s s') : Prop :=
  match e with
  | commit _ id' _ row .. => id' = id ∧ ∃ r ∈ row, r.status = .hardStop
  | _                     => False

def Step.Releases (id : UUID) (e : Step s s') : Prop :=
  match e with
  | commitAdmin _ id' .releaseHardStop .. => id' = id
  | _                                     => False

-- A status on its way to the cache is that of the provider it has been loaded for, and a decision
-- does not return the provider `id`.
def Task.Named : Task → Prop
  | caching w _ status => status.providerId = w.currentId
  | _                  => True

def Task.Avoids (id : UUID) : Task → Prop
  | routed d => ∀ p ∈ d.provider, p.providerId ≠ id
  | _        => True

-- Post-processing that is about to commit leaves the provider in hard stop.
def Task.Holds (id : UUID) : Task → Prop
  | checked i p | ready i p => i = id → p.status = .hardStop
  | _                       => True

theorem State.of_update {P : Task → Prop} (h : P (s.tasks t)) (hp : P task) :
    P (update s.tasks t' task t) := by
  by_cases ht : t = t'
  case pos => subst ht; simpa using hp
  case neg => simpa [ht] using h

theorem Task.avoids_ofWalk_enter : (Task.ofWalk (w.enter fuel)).Avoids id := by
  cases h : w.enter fuel
  case inl d => simp [ofWalk, Avoids, Walk.enter_eq_inl h]
  case inr   => trivial

theorem Task.avoids_ofWalk_route {o : Option ProviderStatus}
    (h : ∀ p ∈ o, p.status ≠ .hardStop → p.providerId ≠ id) :
    (Task.ofWalk (w.route fuel o)).Avoids id := by
  cases hr : w.route fuel o
  case inl d =>
    intro p hp
    have ho := Walk.route_eq_inl hr hp
    exact h p ho.left ho.right.left
  case inr => trivial

@[simp]
theorem Task.ofWalk_ne_ready : Task.ofWalk r ≠ .ready id p := by
  cases r <;> simp [ofWalk]

theorem Task.holds_ofWalk : (Task.ofWalk r).Holds id := by
  cases r <;> trivial

theorem Task.named_ofWalk : (Task.ofWalk r).Named := by
  cases r <;> trivial

theorem Step.preserves_named (e : Step s s') (h : (s.tasks t).Named) : (s'.tasks t).Named := by
  cases e
  case check => exact State.of_update h (by split <;> trivial)
  case resolve | hit | loadNone | fill => exact State.of_update h Task.named_ofWalk
  case load => exact State.of_update h rfl
  case expire => exact h
  all_goals exact State.of_update h trivial

-- A step whose task does not get ready to commit a hard stop does not stop a provider.
theorem State.Stopped.of_update (h : s'.Stopped id)
    (hr : s'.providers.rows id = s.providers.rows id) (ht : s'.tasks = update s.tasks t task)
    (hp : ∀ {t' row}, s'.providers.pending id = some (t', row) →
      t' = t ∨ s.providers.pending id = some (t', row))
    (hk : ∀ {p row}, task = .ready id p → s'.providers.pending id = some (t, some row) →
      row.status = .hardStop → s.Stopped id) : s.Stopped id := by
  cases h
  case committed row found hardStop => exact .committed row (hr ▸ found) hardStop
  case ready t' p row task' locked hardStop =>
    rw [ht] at task'
    by_cases he : t' = t
    case pos =>
      subst he
      exact hk (update_self t' task s.tasks ▸ task') locked hardStop
    case neg =>
      rw [update_of_ne he] at task'
      exact .ready t' p row task' ((hp locked).resolve_left he) hardStop

theorem State.Stopped.of_commit {new : Option ProviderRow} (h : (s.commit t i new).Stopped id)
    (hn : i = id → ∀ row ∈ new, row.status = .hardStop → s.Stopped id) : s.Stopped id := by
  by_cases hi : i = id
  case neg =>
    exact h.of_update (by simp [Ne.symm hi]) rfl (fun hp => .inr <| Table.pending_of_rollback hp)
      (by simp)
  case pos =>
    cases h
    case committed row found hardStop => exact hn hi row (by simpa [hi] using found) hardStop
    case ready locked _               => simp [hi] at locked

-- A step that stops a provider drops its status from the cache.
theorem Step.stopped_or_dropped (e : Step s s') (h : s.Coherent) (hs : s'.Stopped id) :
    s.Stopped id ∨ s'.cache id = none := by
  cases e
  case select | deduct | flush =>
    exact .inl <| hs.of_update rfl rfl Table.pending_of_lock (by simp)
  case skip t i p task =>
    refine .inl <| hs.of_update rfl rfl .inr (fun he locked hardStop => ?_)
    cases he
    obtain ⟨-, row, ho, -, hn⟩ := h.writes task locked
    exact .committed row ho (Option.some.inj hn ▸ hardStop)
  case check t i now p row task locked =>
    refine .inl <| hs.of_update rfl rfl Table.pending_of_lock (fun he hl hardStop => ?_)
    by_cases hd : (checkThresholds now p).cacheDirty
    case pos => simp [hd] at he
    case neg =>
      obtain ⟨-, old, c, ho, -, hp, -⟩ := h.writes task locked
      have hb := not_not.mp (cacheDirty_iff.not.mp hd)
      simp only [hd, Bool.false_eq_true, if_false, Task.ready.injEq] at he
      cases he.left
      simp only [State.lock_providers, Table.lock_pending, update_self, Option.some.injEq,
        Prod.mk.injEq, true_and] at hl
      refine .committed old ho ?_
      rw [← hardStop, ← hl, Provider.store, checkThresholds_status, hb, hp, deducted]
  case dropAgain t i p task =>
    by_cases hi : i = id
    case pos => exact .inr (by simp [State.drop, hi])
    case neg => exact .inl <| hs.of_update rfl rfl .inr (by simp [hi])
  case commit t i p row task locked =>
    refine .inl <| hs.of_commit (fun hi row hr hardStop => ?_)
    subst hi hr
    exact .ready t p row task locked hardStop
  case commitAdmin t i request loaded new row task locked =>
    refine .inl <| hs.of_commit (fun hi row hr hardStop => ?_)
    subst hi hr
    obtain ⟨-, -, old, ho, ok, hn⟩ := h.writes task locked
    exact .committed old ho <| hardStop_of_flush ok (Option.some.inj hn ▸ hardStop)
  case abort =>
    exact .inl <| hs.of_update rfl rfl (fun hp => .inr <| Table.pending_of_rollback hp) (by simp)
  case expire =>
    cases hs
    case committed row found hardStop        => exact .inl (.committed row found hardStop)
    case ready t p row task locked hardStop  => exact .inl (.ready t p row task locked hardStop)
  all_goals exact .inl <| hs.of_update rfl rfl .inr (by simp)

theorem Step.cached (e : Step s s') (hn : ∀ t, (s.tasks t).Named) (ht : e.Timely)
    (hc : s'.cache id = some status) :
    s.cache id = some status ∨
      status.providerId = id ∧ (status.status ≠ .hardStop → ¬s.Stopped id) := by
  have hd : ∀ {i}, update s.cache i none id = some status → s.cache id = some status := by
    intro i hu
    by_cases hi : id = i
    case pos => simp [hi] at hu
    case neg => simpa [hi] using hu
  cases e
  case fill t w fuel status' task =>
    by_cases hi : id = w.currentId
    case pos =>
      subst hi
      have he : some status' = some status := by simpa [State.fill] using hc
      have hw := hn t
      rw [task] at hw
      cases he
      exact .inr ⟨hw, ht⟩
    case neg => exact .inl (by simpa [State.fill, hi] using hc)
  case drop | dropAgain | clear | expire => exact .inl (hd hc)
  all_goals exact .inl hc

structure State.Invariant (s : State) : Prop where
  coherent : s.Coherent
  named    : ∀ t, (s.tasks t).Named
  fresh    : s.Fresh

theorem State.Initial.invariant (h : s.Initial) (hf : s.Fresh) : s.Invariant where
  coherent := h.coherent
  named    := fun t => h.fresh t ▸ trivial
  fresh    := hf

theorem Step.preserves_invariant (e : Step s s') (h : s.Invariant) (ht : e.Timely) :
    s'.Invariant where
  coherent := e.preserves_coherent h.coherent
  named    := fun t => e.preserves_named (h.named t)
  fresh    := by
    constructor
    case named =>
      intro id status hc
      cases e.cached h.named ht hc
      case inl ho => exact h.fresh.named ho
      case inr hl => exact hl.left
    case current =>
      intro id status hc hn hs
      have hs := (e.stopped_or_dropped h.coherent hs).resolve_right (by simp [hc])
      cases e.cached h.named ht hc
      case inl ho => exact h.fresh.current ho hn hs
      case inr hl => exact hl.right hn hs

theorem Step.timely_of_fresh (e : Step s s') (hf : s'.Fresh) : e.Timely := by
  cases e <;> try trivial
  case fill t w fuel status task =>
    intro hn hs
    have ht : s.tasks =
        update (update s.tasks t (.ofWalk (w.route fuel status))) t (s.tasks t) := by simp
    exact hf.current (update_self ..) hn <| hs.of_update rfl ht .inr (by simp [task])

-- In every run from a fresh cache, the cache stays fresh exactly if statuses are cached in time.
theorem visits_fresh_iff (es : Run s s') (hi : s.Initial) (hf : s.Fresh) :
    es.Visits State.Fresh ↔ es.All Step.Timely := by
  refine es.all_iff_all (I := State.Invariant) (fun e h hf => ?_) (fun e h => ?_) (hi.invariant hf)
  case refine_1 => exact e.preserves_invariant h (e.timely_of_fresh hf)
  case refine_2 => exact ⟨e.timely_of_fresh, fun ht => (e.preserves_invariant h ht).fresh⟩

structure State.HardStop (s : State) (id : UUID) : Prop where
  committed : ∃ row, s.providers.rows id = some row ∧ row.status = .hardStop
  pending   : ∀ {t row}, s.providers.pending id = some (t, row) → (s.tasks t).Holds id

namespace State.HardStop

theorem stopped (h : s.HardStop id) : s.Stopped id := by
  have ⟨row, found, hardStop⟩ := h.committed
  exact .committed row found hardStop

theorem of_update (h : s.HardStop id) (hr : s'.providers.rows id = s.providers.rows id)
    (ht : s'.tasks = update s.tasks t task)
    (hp : ∀ {t' row}, s'.providers.pending id = some (t', row) →
      t' = t ∨ s.providers.pending id = some (t', row))
    (hk : ∀ {row}, s'.providers.pending id = some (t, row) → task.Holds id) :
    s'.HardStop id where
  committed := hr ▸ h.committed
  pending   := by
    intro t' row hl
    rw [ht]
    by_cases he : t' = t
    case pos => subst he; simpa using hk hl
    case neg => simpa [he] using h.pending ((hp hl).resolve_left he)

theorem commit_self {new : Option ProviderRow} (h : ∃ r ∈ new, r.status = .hardStop) :
    (s.commit t id new).HardStop id where
  committed := by simpa using h
  pending   := by simp

theorem commit {new : Option ProviderRow} (h : s.HardStop id)
    (hn : i = id → ∃ r ∈ new, r.status = .hardStop) : (s.commit t i new).HardStop id := by
  by_cases hi : i = id
  case pos => exact hi ▸ commit_self (hn hi)
  case neg =>
    exact h.of_update (by simp [Ne.symm hi]) rfl (fun hp => .inr <| Table.pending_of_rollback hp)
      (fun _ => trivial)

end State.HardStop

-- A hard stop that is committed stays so until it is released or relapses.
theorem Step.preserves_hardStop (e : Step s s') (h : s.Coherent) (hs : s.HardStop id)
    (hr : ¬e.Relapse id) (hl : ¬e.Releases id) : s'.HardStop id := by
  have ⟨row, found, hardStop⟩ := hs.committed
  cases e
  case select | deduct | flush =>
    exact hs.of_update rfl rfl Table.pending_of_lock (fun _ => trivial)
  case skip t i p task =>
    refine hs.of_update rfl rfl .inr (fun locked hi => ?_)
    have ⟨_, old, ho, hp, _⟩ := h.writes task locked
    cases Option.some.inj (found.symm.trans ho)
    exact hp ▸ hardStop
  case check t i now p _ task locked =>
    refine hs.of_update rfl rfl Table.pending_of_lock (fun _ => ?_)
    have hb : i = id → (checkThresholds now p).provider.status = .hardStop := by
      rintro rfl
      have ⟨_, old, c, ho, _, hp, _⟩ := h.writes task locked
      cases Option.some.inj (found.symm.trans ho)
      have hp : p.status = .hardStop := by rw [hp, deducted]; exact hardStop
      exact checkThresholds_status.trans <| bandStatus_of_hardStop hp (fun hw => hr ⟨rfl, hp, hw⟩)
    split
    · exact hb
    · exact hb
  case dropAgain t i p task =>
    refine hs.of_update rfl rfl .inr (fun locked => ?_)
    have hp := hs.pending locked
    rwa [task] at hp
  case commit t i p _ task locked =>
    refine hs.commit (fun hi => ?_)
    subst hi
    obtain ⟨-, old, ho, rfl, -⟩ := h.writes task locked
    have hp := hs.pending locked
    rw [task] at hp
    exact ⟨p.store, rfl, hp rfl⟩
  case commitAdmin t i request loaded new _ task locked =>
    refine hs.commit (fun hi => ?_)
    subst hi
    obtain ⟨-, -, old, ho, ok, rfl⟩ := h.writes task locked
    cases Option.some.inj (found.symm.trans ho)
    have hn : request ≠ .releaseHardStop := by rintro rfl; exact hl rfl
    exact ⟨_, rfl, (flush_status ok hn).trans hardStop⟩
  case abort =>
    exact hs.of_update rfl rfl (fun hp => .inr <| Table.pending_of_rollback hp) (fun _ => trivial)
  case expire => exact ⟨hs.committed, hs.pending⟩
  case resolve | hit | loadNone | fill =>
    exact hs.of_update rfl rfl .inr (fun _ => Task.holds_ofWalk)
  all_goals exact hs.of_update rfl rfl .inr (fun _ => trivial)

theorem Step.preserves_avoids (e : Step s s') (hi : s.Invariant) (hs : s.HardStop id)
    (ht : e.Timely) (h : (s.tasks t).Avoids id) : (s'.tasks t).Avoids id := by
  cases e
  case resolve => exact State.of_update h Task.avoids_ofWalk_enter
  case hit w fuel status task found =>
    refine State.of_update h <| Task.avoids_ofWalk_route (fun p hp hn he => ?_)
    cases hp
    have hw : w.currentId = id := (hi.fresh.named found).symm.trans he
    exact hi.fresh.current found hn (hw ▸ hs.stopped)
  case loadNone => exact State.of_update h <| Task.avoids_ofWalk_route (by simp)
  case fill t' w fuel status task =>
    refine State.of_update h <| Task.avoids_ofWalk_route (fun p hp hn he => ?_)
    cases hp
    have hw := hi.named t'
    rw [task] at hw
    exact ht hn (hw.symm.trans he ▸ hs.stopped)
  case check => exact State.of_update h (by split <;> trivial)
  case expire => exact h
  all_goals exact State.of_update h trivial

-- Once a hard stop is committed, no request that starts before its release is routed to the
-- provider, as long as statuses are cached in time and no check lets the hard stop relapse.
theorem routed_ne_of_hardStop {d : ProviderRoutingDecision} {p : ProviderStatus}
    (es₁ : Run s₀ s₁) (e : Step s₁ s₂) (es₂ : Run s₂ s₃) (hi : s₀.Initial) (hf : s₀.Fresh)
    (he : e.Stops id) (hl : es₂.All (¬·.Releases id)) (ht : s₂.tasks t = .fresh)
    (hd : s₃.tasks t = .routed d) (hp : d.provider = some p) (ht₁ : es₁.All Step.Timely)
    (ht₂ : es₂.All Step.Timely) (hr : es₂.All (¬·.Relapse id)) : p.providerId ≠ id := by
  have h₁ : s₁.Invariant :=
    es₁.invariant_of_all (fun e h ht => e.preserves_invariant h ht) (hi.invariant hf) ht₁
  have h₂ : s₂.Invariant ∧ s₂.HardStop id := by
    cases e <;> try contradiction
    case commit task locked =>
      obtain ⟨rfl, hs⟩ := he
      exact ⟨Step.preserves_invariant (.commit _ _ _ _ task locked) h₁ trivial, .commit_self hs⟩
  have hk : ∀ {s s' : State} (e : Step s s'),
      (s.Invariant ∧ s.HardStop id) ∧ (s.tasks t).Avoids id →
      (e.Timely ∧ ¬e.Relapse id) ∧ ¬e.Releases id →
      (s'.Invariant ∧ s'.HardStop id) ∧ (s'.tasks t).Avoids id := by
    intro s s' e ⟨⟨h, hs⟩, ha⟩ ⟨⟨ht, hr⟩, hl⟩
    have hs' := e.preserves_hardStop h.coherent hs hr hl
    exact ⟨⟨e.preserves_invariant h ht, hs'⟩, e.preserves_avoids h hs ht ha⟩
  have ha : (s₂.tasks t).Avoids id := ht ▸ trivial
  have hs : es₂.All fun e => (e.Timely ∧ ¬e.Relapse id) ∧ ¬e.Releases id :=
    Steps.all_and.mpr ⟨Steps.all_and.mpr ⟨ht₂, hr⟩, hl⟩
  have ha := (es₂.invariant_of_all hk ⟨h₂, ha⟩ hs).right
  rw [hd] at ha
  exact ha p hp

-- A request has loaded the status of a provider with $3 while another one that costs $2 was on its
-- way. It caches what it has loaded after the provider has been put into hard stop.
theorem not_routed_ne_of_stale_status :
    ¬∀ (s₀ s₁ s₂ s₃ : State) (_ : Run s₀ s₁) (e : Step s₁ s₂) (es₂ : Run s₂ s₃) (id : UUID)
      (t : TaskId) (d : ProviderRoutingDecision) (p : ProviderStatus), s₀.Initial → s₀.Fresh →
      e.Stops id → es₂.All (¬·.Releases id) → s₂.tasks t = .fresh → s₃.tasks t = .routed d →
      d.provider = some p → p.providerId ≠ id := by
  intro h
  let row := Provider.store ⟨"openai", 3, 2, 2, .normal, none, none, none, true⟩
  let s : State := ⟨⟨fun _ => some row, fun _ => none⟩, fun _ => none, fun _ => .fresh⟩
  let c : Charge := ⟨0, "r", 1, 2⟩
  let es₁ : Run s _ :=
    .step (.resolve 0 1 3 rfl) <|
    .step (.miss 0 _ _ rfl rfl) <|
    .step (.load 0 _ _ row rfl rfl) <|
    .step (.select 1 1 row rfl rfl rfl) <|
    .step (.deduct 1 1 c row.toProvider _ _ _ rfl rfl rfl) <|
    .step (.drop 1 1 _ rfl) <|
    .step (.check 1 1 0 _ _ rfl rfl) <|
    .step (.dropAgain 1 1 _ (if_pos (by decide +kernel))) .refl
  have h := h s _ _ _ es₁ (.commit 1 1 _ _ rfl rfl) <|
    .step (.fill 0 _ _ _ rfl) <|
    .step (.resolve 2 1 3 rfl) <|
    .step (.hit 2 _ _ _ rfl rfl) .refl
  exact h 1 2 _ _ ⟨fun _ => rfl, fun _ => rfl⟩ ⟨nofun, nofun⟩ ⟨rfl, _, rfl, by decide +kernel⟩
    ⟨id, id, id, trivial⟩ rfl rfl rfl rfl

-- The next request is routed to the fallback.
theorem routed_ne_of_timely_fill :
    ∃ (s₀ s₁ s₂ s₃ : State) (_ : Run s₀ s₁) (e : Step s₁ s₂) (_ : Run s₂ s₃)
      (d : ProviderRoutingDecision) (p : ProviderStatus), e.Stops 1 ∧ s₃.tasks 2 = .routed d ∧
      d.provider = some p ∧ p.providerId ≠ 1 := by
  let row := Provider.store ⟨"openai", 3, 2, 2, .normal, some 2, none, none, true⟩
  let fallback := Provider.store ⟨"azure", 9, 2, 2, .normal, none, none, none, true⟩
  let s : State :=
    ⟨⟨fun id => if id = 1 then some row else some fallback, fun _ => none⟩, fun _ => none,
      fun _ => .fresh⟩
  let c : Charge := ⟨0, "r", 1, 2⟩
  let stopped := (checkThresholds 0 (deducted c row)).provider.store
  let w₁ : Walk := ⟨1, 1, [1], false⟩
  let w₂ : Walk := ⟨1, 2, [2, 1], true⟩
  have hw : Task.ofWalk (w₁.route 3 (providerToStatus 1 stopped.toProvider)) = .checking w₂ 2 :=
    congrArg Task.ofWalk (by decide +kernel : _ = Sum.inr (w₂, 2))
  let es₁ : (s₁ : State) × Run s s₁ := ⟨_,
    .step (.select 1 1 row rfl rfl rfl) <|
    .step (.deduct 1 1 c row.toProvider _ _ _ rfl rfl rfl) <|
    .step (.drop 1 1 _ rfl) <|
    .step (.check 1 1 0 _ _ rfl rfl) <|
    .step (.dropAgain 1 1 _ (if_pos (by decide +kernel))) .refl⟩
  let e : (s₂ : State) × Step es₁.fst s₂ := ⟨_, .commit 1 1 _ _ rfl rfl⟩
  let es₂ : (s₃ : State) × Run e.fst s₃ := ⟨_,
    .step (.resolve 2 1 3 rfl) <|
    .step (.miss 2 _ _ rfl rfl) <|
    .step (.load 2 w₁ 3 stopped rfl rfl) <|
    .step (.fill 2 w₁ 3 _ rfl) <|
    .step (.miss 2 w₂ 2 hw rfl) <|
    .step (.load 2 w₂ 2 fallback rfl rfl) <|
    .step (.fill 2 w₂ 2 _ rfl) .refl⟩
  have he : e.snd.Stops 1 := ⟨rfl, _, rfl, by decide +kernel⟩
  have hl : es₂.snd.All (¬·.Releases 1) := ⟨id, id, id, id, id, id, id, trivial⟩
  have hr : es₂.snd.All (¬·.Relapse 1) := ⟨id, id, id, id, id, id, id, trivial⟩
  have hs₁ : es₁.snd.All Step.Timely := ⟨trivial, trivial, trivial, trivial, trivial, trivial⟩
  have hs₂ : es₂.snd.All Step.Timely := by
    refine ⟨trivial, trivial, trivial, fun hn => ?_, trivial, trivial, fun _ hs => ?_, trivial⟩
    case refine_1 => exact absurd (by decide +kernel) hn
    case refine_2 =>
      cases hs
      case committed row found hardStop =>
        cases Option.some.inj (found : some fallback = some row)
        exact absurd hardStop (by decide +kernel)
      case ready locked _ => exact nomatch (locked : none = some _)
  have hp := routed_ne_of_hardStop es₁.snd e.snd es₂.snd ⟨fun _ => rfl, fun _ => rfl⟩
    ⟨nofun, nofun⟩ he hl (t := 2) rfl rfl rfl hs₁ hs₂ hr
  exact ⟨s, _, _, _, es₁.snd, e.snd, es₂.snd, _, _, he, rfl, rfl, hp⟩

end Providers
