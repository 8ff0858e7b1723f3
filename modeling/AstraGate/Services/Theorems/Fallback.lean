import AstraGate.Lib.Pursuit
import AstraGate.Services.Theorems.ProviderBalance

namespace ProviderBalance

-- Requests may be routed to the provider.
def Usable (check : UUID → Option ProviderStatus) (id : UUID) : Prop :=
  ∃ s ∈ check id, s.isActive ∧ s.status ≠ .hardStop

def fallbackOf (check : UUID → Option ProviderStatus) (id : UUID) : Option UUID :=
  check id |>.bind (·.fallbackProviderId)

variable {check : UUID → Option ProviderStatus}

instance : DecidablePred (Usable check) :=
  fun id => inferInstanceAs (Decidable (∃ s ∈ check id, _))

-- The decision is for the provider that the reference walk ends at, if there is one.
def Meets (check : UUID → Option ProviderStatus) (originalId : UUID) (d : ProviderRoutingDecision) :
    Option UUID → Prop
  | none    => d.provider = none
  | some id =>
    d.provider = check id ∧ (d.isFallback ↔ id ≠ originalId) ∧
      d.reason = if id = originalId then .ok else .fallback

namespace Walk

variable {w w' : Walk} {fuel fuel' : Nat} {d : ProviderRoutingDecision} {f : UUID}
  {passed : List UUID}

theorem route_of_usable (h : Usable check w.currentId) :
    w.route fuel (check w.currentId) =
      .inl (w.decide (check w.currentId) (if w.isFallback then .fallback else .ok)) := by
  have ⟨s, hs, ha, hh⟩ := h
  rw [Option.mem_def.mp hs]
  simp [route, ha, ProviderStatus.isHardStop, hh]

theorem route_of_end (fuel : Nat) (h : ¬Usable check w.currentId)
    (hf : fallbackOf check w.currentId = none) :
    ∃ d, w.route fuel (check w.currentId) = .inl d ∧ d.provider = none := by
  cases hc : check w.currentId
  case none   => exact ⟨_, rfl, rfl⟩
  case some s =>
    have hs : s.fallbackProviderId = none := by simpa [fallbackOf, hc] using hf
    by_cases ha : s.isActive
    case neg => exact ⟨_, by simp only [route, ha, hs]; rfl, rfl⟩
    case pos =>
      have hh : s.status = .hardStop := by
        by_contra hn
        exact h ⟨s, hc, ha, hn⟩
      exact ⟨_, by simp only [route, ha, hs, ProviderStatus.isHardStop, hh]; rfl, rfl⟩

theorem route_of_link (fuel : Nat) (h : ¬Usable check w.currentId)
    (hf : fallbackOf check w.currentId = some f) :
    w.route fuel (check w.currentId) = w.followTo fuel f := by
  have ⟨s, hc, hs⟩ := Option.bind_eq_some_iff.mp hf
  rw [hc]
  by_cases ha : s.isActive
  case neg => simp [route, ha, hs]
  case pos =>
    have hh : s.status = .hardStop := by
      by_contra hn
      exact h ⟨s, hc, ha, hn⟩
    simp [route, ha, hs, ProviderStatus.isHardStop, hh]

theorem route_zero_ne_inr {r : Walk × Nat} : w.route 0 o ≠ .inr r := by
  intro h
  have ⟨_, hf⟩ := route_eq_inr h
  exact nomatch (enter_eq_inr hf).right.right

theorem resolve_of_inl (h : w.route fuel (check w.currentId) = .inl d) :
    w.resolve check fuel = d := by
  cases fuel <;> simp only [resolve, h]

theorem resolve_of_inr (h : w.route (fuel + 1) (check w.currentId) = .inr (w', fuel)) :
    w.resolve check (fuel + 1) = w'.resolve check fuel := by
  simp only [resolve, h]

theorem resolveTraced_of_inl (h : w.route fuel (check w.currentId) = .inl d) :
    w.resolveTraced check fuel = { trace := [w.currentId], result := .ok d } := by
  cases fuel <;> simp [resolveTraced, checkProviderStatus, h] <;> rfl

theorem resolveTraced_of_inr (h : w.route (fuel + 1) (check w.currentId) = .inr (w', fuel)) :
    w.resolveTraced check (fuel + 1) =
      (do Traced.emit w.currentId; w'.resolveTraced check fuel) := by
  simp [resolveTraced, checkProviderStatus, h]

theorem mem_visited_of_enter (h : w.enter (fuel + 1) = .inl d) : w.currentId ∈ w.visited := by
  simp only [enter] at h
  split at h
  case isTrue hv => exact hv
  case isFalse   => contradiction

-- Either the loop ends at the current provider, as the reference walk does, or both go on.
theorem meets_or_link (check : UUID → Option ProviderStatus) (h : w.Entered) :
    (∀ fuel, Meets check w.originalId (w.resolve check fuel)
      (pursue (Usable check) (fallbackOf check) fuel w.currentId)) ∨
      ¬Usable check w.currentId ∧ ∃ f, fallbackOf check w.currentId = some f := by
  by_cases hu : Usable check w.currentId
  case pos =>
    refine .inl fun fuel => ?_
    rw [pursue_of_good hu, resolve_of_inl (route_of_usable hu)]
    refine ⟨rfl, h.fallback, ?_⟩
    by_cases ho : w.currentId = w.originalId <;> simp [decide, h.fallback, ho]
  case neg =>
    cases hf : fallbackOf check w.currentId
    case some f => exact .inr ⟨hu, f, rfl⟩
    case none   =>
      refine .inl fun fuel => ?_
      have ⟨d, hr, hd⟩ := route_of_end fuel hu hf
      rw [pursue_of_end hu hf, resolve_of_inl hr]
      exact hd

-- What the loop decides is what the reference walk asks for. The visited providers hide none that
-- is usable, as they only ever lead to each other.
theorem resolve_meets (h : w.Entered) (hv : w.visited = w.currentId :: passed)
    (ht : Trail (Usable check) (fallbackOf check) passed w.currentId) :
    Meets check w.originalId (w.resolve check fuel)
      (pursue (Usable check) (fallbackOf check) fuel w.currentId) := by
  induction fuel generalizing w passed <;> cases meets_or_link check h
  case zero.inl hm | succ.inl hm => exact hm _
  case zero.inr hl =>
    have ⟨hu, f, hf⟩ := hl
    rw [pursue_zero_of_bad hu, resolve_of_inl (route_of_link _ hu hf)]
    rfl
  case succ.inr fuel ih hl =>
    have ⟨hu, f, hf⟩ := hl
    have hr := route_of_link (fuel + 1) hu hf
    have ht' := ht.pass hu hf
    rw [pursue_of_link hu hf]
    cases hw : w.followTo (fuel + 1) f
    case inl d =>
      rw [ht'.pursue_eq_none (hv ▸ mem_visited_of_enter hw), resolve_of_inl (hr.trans hw)]
      exact enter_eq_inl hw
    case inr r =>
      have ⟨w', fuel'⟩ := r
      have ⟨he, ho, hn⟩ := h.followTo hw
      have ⟨_, hw', _⟩ := enter_eq_inr hw
      cases hn
      subst hw'
      rw [resolve_of_inr (hr.trans hw)]
      exact ih he (by simp [hv]) ht'

theorem resolveTraced_result :
    (w.resolveTraced check fuel).result = .ok (w.resolve check fuel) := by
  induction fuel generalizing w
  case zero =>
    cases hr : w.route 0 (check w.currentId)
    case inl d => rw [resolveTraced_of_inl hr, resolve_of_inl hr]
    case inr r => exact absurd hr route_zero_ne_inr
  case succ fuel ih =>
    cases hr : w.route (fuel + 1) (check w.currentId)
    case inl d => rw [resolveTraced_of_inl hr, resolve_of_inl hr]
    case inr r =>
      have ⟨w', fuel'⟩ := r
      have ⟨_, hf⟩ := route_eq_inr hr
      cases (enter_eq_inr hf).right.right
      rw [resolveTraced_of_inr hr, resolve_of_inr hr, Traced.result_emit_bind, ih]

-- The providers that are looked up are the current one and such as have not been visited.
theorem resolveTraced_trace (check : UUID → Option ProviderStatus) (fuel : Nat)
    (hv : w.currentId ∈ w.visited) :
    (w.resolveTraced check fuel).trace.Nodup ∧
      (w.resolveTraced check fuel).trace.length ≤ fuel + 1 ∧
      ∀ id ∈ (w.resolveTraced check fuel).trace, id ∈ w.visited → id = w.currentId := by
  induction fuel generalizing w
  case zero =>
    cases hr : w.route 0 (check w.currentId)
    case inl d => simp [resolveTraced_of_inl hr]
    case inr r => exact absurd hr route_zero_ne_inr
  case succ fuel ih =>
    cases hr : w.route (fuel + 1) (check w.currentId)
    case inl d => simp [resolveTraced_of_inl hr]
    case inr r =>
      have ⟨w', fuel'⟩ := r
      have ⟨f, hf⟩ := route_eq_inr hr
      have ⟨hn, he, hs⟩ := enter_eq_inr hf
      cases hs
      subst he
      rw [resolveTraced_of_inr hr, Traced.trace_emit_bind]
      have ⟨hd, hl, ho⟩ := ih (w := { w with
        currentId := f, isFallback := true, visited := f :: w.visited }) List.mem_cons_self
      refine ⟨List.nodup_cons.mpr ⟨fun hi => ?_, hd⟩, Nat.succ_le_succ hl, ?_⟩
      case refine_1 => exact hn (ho _ hi (List.mem_cons_of_mem f hv) ▸ hv)
      case refine_2 =>
        refine List.forall_mem_cons.mpr ⟨fun _ => rfl, fun id hi hw => ?_⟩
        exact absurd (ho id hi (List.mem_cons_of_mem f hw) ▸ hw) hn

end Walk

variable {id id' : UUID} {m n : Nat}

theorem resolveProviderForRequestTraced_result :
    (resolveProviderForRequestTraced check id m).result =
      .ok (resolveProviderForRequest check id m) :=
  Walk.resolveTraced_result

theorem resolveProviderForRequest_meets (check : UUID → Option ProviderStatus) (id : UUID)
    (m : Nat) :
    Meets check id (resolveProviderForRequest check id m)
      (pursue (Usable check) (fallbackOf check) m id) :=
  Walk.resolve_meets Walk.entered_start rfl .nil

theorem resolveProviderForRequest_of_follows (hn : n ≤ m)
    (h : Follows (Usable check) (fallbackOf check) n id id') (hu : Usable check id') :
    (resolveProviderForRequest check id m).provider = check id' ∧
      ((resolveProviderForRequest check id m).isFallback ↔ id' ≠ id) ∧
      (resolveProviderForRequest check id m).reason = if id' = id then .ok else .fallback := by
  have hm := resolveProviderForRequest_meets check id m
  rwa [pursue_eq_some_iff.mpr ⟨⟨n, hn, h⟩, hu⟩] at hm

theorem resolveProviderForRequest_isSome_iff :
    (resolveProviderForRequest check id m).provider.isSome ↔
      ∃ n ≤ m, ∃ id', Follows (Usable check) (fallbackOf check) n id id' ∧ Usable check id' := by
  constructor
  case mp =>
    intro hp
    have hm := resolveProviderForRequest_meets check id m
    cases hf : pursue (Usable check) (fallbackOf check) m id <;> rw [hf] at hm
    case none =>
      have hn : (resolveProviderForRequest check id m).provider = none := hm
      exact nomatch hn ▸ hp
    case some id' =>
      have ⟨⟨n, hn, hw⟩, hu⟩ := pursue_eq_some_iff.mp hf
      exact ⟨n, hn, id', hw, hu⟩
  case mpr =>
    intro ⟨n, hn, id', hw, hu⟩
    have ⟨s, hs, _⟩ := hu
    rw [(resolveProviderForRequest_of_follows hn hw hu).left, Option.mem_def.mp hs]
    rfl

-- Routing is the reference walk: it gets to the first usable provider within `m` hops, if there is
-- one, and looks up each provider once at most.
theorem resolveProviderForRequest_follows (check : UUID → Option ProviderStatus) (id : UUID)
    (m : Nat) :
    ∃ d, (resolveProviderForRequestTraced check id m).result = .ok d ∧
      (d.provider.isSome ↔
        ∃ n ≤ m, ∃ id', Follows (Usable check) (fallbackOf check) n id id' ∧ Usable check id') ∧
      (∀ n ≤ m, ∀ id', Follows (Usable check) (fallbackOf check) n id id' → Usable check id' →
        d.provider = check id' ∧ (d.isFallback ↔ id' ≠ id) ∧
          d.reason = if id' = id then .ok else .fallback) ∧
      (resolveProviderForRequestTraced check id m).trace.Nodup ∧
      (resolveProviderForRequestTraced check id m).trace.length ≤ m + 1 := by
  obtain ⟨hd, hl, _⟩ := Walk.resolveTraced_trace check m
    (w := { Walk.start id with visited := [id] }) (List.mem_singleton_self id)
  exact ⟨_, resolveProviderForRequestTraced_result, resolveProviderForRequest_isSome_iff,
    fun _ hn _ hf hu => resolveProviderForRequest_of_follows hn hf hu, hd, hl⟩

-- A chain of two stopped providers that lead back to the first one.
example :
    let check id : Option ProviderStatus :=
      if id = 1 ∨ id = 2 then
        some {
          providerId := id, name := "", status := .hardStop, balanceUsd := 0,
          warningThreshold := 0, hardStopThreshold := 0, fallbackProviderId := some (3 - id),
          isActive := true }
      else none
    (resolveProviderForRequestTraced check 1 3).trace = [1, 2] := by
  decide

end ProviderBalance
