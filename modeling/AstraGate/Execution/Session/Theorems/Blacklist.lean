import AstraGate.Execution.Session.Step
import Mathlib.Data.List.Nodup

open Function

namespace Session

open Auth

variable {settings : Settings} {jwt : Jwt} {s s' s₁ s₂ : State} {t : TaskId} {k : Task}
  {payload : Payload} {ttl : Nat} {g g' : Grant}

-- A logout that is over, with or without a reply of Redis.
def Task.isGone : Task → Bool
  | .left _ | .lost _ => true
  | _                 => false

theorem Task.eq_of_isGone (hk : k.isGone) (hp : k.token = some payload) :
    k = .left payload ∨ k = .lost payload := by
  cases k
  case left => cases hp; exact .inl rfl
  case lost => cases hp; exact .inr rfl
  all_goals cases hk

namespace State

-- No two refresh tokens have the same random id.
def Distinct (s : State) : Prop :=
  (s.grants.map Grant.refreshJti).Nodup

-- The token has less than a second to live, or is on the blacklist for all of its life but the last
-- second.
def Bars (s : State) (payload : Payload) : Prop :=
  1000 * payload.exp < s.now + 1000 ∨
    ∃ e, s.blacklist payload.jti = some e ∧ ∀ x ∈ e.expires, 1000 * payload.exp < x + 1000

-- What holds of the logouts in every run.
structure Recorded (settings : Settings) (s : State) : Prop where
  distinct : s.Distinct
  issued   : ∀ t payload, (s.tasks t).token = some payload →
    ∃ g ∈ s.grants, payload = g.refreshPayload settings
  due      : ∀ t payload ttl, s.tasks t = .leaving payload ttl →
    1000 * payload.exp < s.now + 1000 * ttl + 1000
  barred   : ∀ t payload, s.tasks t = .left payload → s.Bars payload
  owed     : ∀ jti e, s.blacklist jti = some e →
    ∃ t payload, (s.tasks t).isGone ∧ (s.tasks t).token = some payload ∧ payload.jti = jti

theorem Initial.recorded (h : s.Initial) : s.Recorded settings where
  distinct         := by simp [Distinct, h.none]
  issued t p ht    := by rw [h.fresh t] at ht; cases ht
  due t p ttl ht   := nomatch (h.fresh t).symm.trans ht
  barred t p ht    := nomatch (h.fresh t).symm.trans ht
  owed jti e he    := nomatch (h.empty jti).symm.trans he

theorem Bars.mono (h : s.Bars payload) (hn : s.now ≤ s'.now) (hb : s'.blacklist = s.blacklist) :
    s'.Bars payload := by
  cases h
  case inl h => exact .inl (h.trans_le <| Nat.add_le_add_right hn _)
  case inr h => exact .inr (hb ▸ h)

theorem Bars.live (h : s.Bars payload) (ht : s.now + 1000 ≤ 1000 * payload.exp) :
    ∃ e ∈ s.blacklist payload.jti, e.Live s.now := by
  cases h
  case inl h => exact absurd ht h.not_ge
  case inr h =>
    obtain ⟨e, he, hx⟩ := h
    exact ⟨e, he, fun x hxe => lt_of_add_lt_add_right <| ht.trans_lt (hx x hxe)⟩

theorem Distinct.eq (h : s.Distinct) (hg : g ∈ s.grants) (hg' : g' ∈ s.grants)
    (he : g.refreshJti = g'.refreshJti) : g = g' :=
  List.inj_on_of_nodup_map h hg hg' he

-- The random id of a refresh token says which one it is.
theorem Recorded.eq_of_jti {t' : TaskId} {payload' : Payload} (h : s.Recorded settings)
    (hp : (s.tasks t).token = some payload) (hp' : (s.tasks t').token = some payload')
    (he : payload.jti = payload'.jti) : payload = payload' := by
  obtain ⟨g, hg, rfl⟩ := h.issued t _ hp
  obtain ⟨g', hg', rfl⟩ := h.issued t' _ hp'
  rw [h.distinct.eq hg hg' he]

-- A step of a task that leaves the blacklist alone.
theorem Recorded.of_update (h : s.Recorded settings) (hd : s'.Distinct) (hn : s.now ≤ s'.now)
    (hg : s.grants ⊆ s'.grants) (hb : s'.blacklist = s.blacklist)
    (hs : s'.tasks = update s.tasks t k) (ht : (s.tasks t).isGone = false)
    (issued : ∀ payload ∈ k.token, ∃ g ∈ s'.grants, payload = g.refreshPayload settings)
    (due : ∀ payload ttl, k = .leaving payload ttl →
      1000 * payload.exp < s'.now + 1000 * ttl + 1000)
    (barred : ∀ payload, k = .left payload → s'.Bars payload) : s'.Recorded settings := by
  have hk : ∀ t', t' ≠ t → s'.tasks t' = s.tasks t' := fun t' he => by rw [hs, update_of_ne he]
  have hself : s'.tasks t = k := by rw [hs, update_self]
  refine ⟨hd, ?issued, ?due, ?barred, ?owed⟩
  case issued =>
    intro t' p hp
    by_cases he : t' = t
    case pos => subst he; exact issued p (hself ▸ hp)
    case neg =>
      have ⟨g, hm, hg'⟩ := h.issued t' p (hk t' he ▸ hp)
      exact ⟨g, hg hm, hg'⟩
  case due =>
    intro t' p ttl hp
    by_cases he : t' = t
    case pos => subst he; exact due p ttl (hself.symm.trans hp)
    case neg =>
      refine (h.due t' p ttl ((hk t' he).symm.trans hp)).trans_le ?_
      exact Nat.add_le_add_right (Nat.add_le_add_right hn _) _
  case barred =>
    intro t' p hp
    by_cases he : t' = t
    case pos => subst he; exact barred p (hself.symm.trans hp)
    case neg => exact (h.barred t' p ((hk t' he).symm.trans hp)).mono hn hb
  case owed =>
    intro jti e he
    rw [hb] at he
    obtain ⟨t', p, hgone, hp, hj⟩ := h.owed jti e he
    have hne : t' ≠ t := by rintro rfl; rw [hgone] at ht; cases ht
    exact ⟨t', p, hk t' hne ▸ hgone, hk t' hne ▸ hp, hj⟩

-- A `SETEX`, after which the logout is over.
theorem Recorded.setex (h : s.Recorded settings) (ht : s.tasks t = .leaving payload ttl)
    (hk : k = .left payload ∨ k = .lost payload) :
    ((s.setex payload ttl).setTask t k).Recorded settings := by
  let s' := (s.setex payload ttl).setTask t k
  have htok : (s.tasks t).token = some payload := by rw [ht]; rfl
  have hktok : k.token = some payload ∧ k.isGone := by rcases hk with rfl | rfl <;> exact ⟨rfl, rfl⟩
  have hself : s'.tasks t = k := update_self ..
  have hother : ∀ t', t' ≠ t → s'.tasks t' = s.tasks t' := fun t' he => update_of_ne he ..
  have hnew : s'.Bars payload := by
    refine .inr ⟨_, update_self .., fun x hx => ?_⟩
    cases hx
    have := h.due t payload ttl ht
    omega
  refine ⟨h.distinct, ?issued, ?due, ?barred, ?owed⟩
  case issued =>
    intro t' p hp
    by_cases he : t' = t
    case pos =>
      subst he
      have hp' : (s'.tasks t').token = some p := hp
      rw [hself, hktok.left] at hp'
      cases hp'
      exact h.issued t' payload htok
    case neg => exact h.issued t' p (hother t' he ▸ hp)
  case due =>
    intro t' p ttl' hp
    by_cases he : t' = t
    case pos =>
      subst he
      cases hself.symm.trans hp
      rcases hk with hk | hk <;> cases hk
    case neg => exact h.due t' p ttl' ((hother t' he).symm.trans hp)
  case barred =>
    intro t' p hp
    have hp' : (s'.tasks t').token = some p := congrArg Task.token hp
    by_cases he : t' = t
    case pos =>
      subst he
      rw [hself, hktok.left] at hp'
      cases hp'
      exact hnew
    case neg =>
      have hps : s.tasks t' = .left p := (hother t' he).symm.trans hp
      by_cases hj : p.jti = payload.jti
      case pos =>
        cases h.eq_of_jti (congrArg Task.token hps) htok hj
        exact hnew
      case neg =>
        refine (h.barred t' p hps).imp id fun ⟨e, he, hx⟩ => ⟨e, ?_, hx⟩
        exact (update_of_ne hj ..).trans he
  case owed =>
    intro jti e he
    by_cases hj : jti = payload.jti
    case pos =>
      refine ⟨t, payload, ?_, ?_, hj.symm⟩
      · exact (congrArg Task.isGone hself).trans hktok.right
      · exact (congrArg Task.token hself).trans hktok.left
    case neg =>
      obtain ⟨t', p, hgone, hp, hj'⟩ := h.owed jti e ((update_of_ne hj ..).symm.trans he)
      have hne : t' ≠ t := by rintro rfl; rw [ht] at hgone; cases hgone
      exact ⟨t', p, hother t' hne ▸ hgone, hother t' hne ▸ hp, hj'⟩

theorem Distinct.mint (h : s.Distinct) (hu : g.refreshJti ∉ s.jtis) : (s.mint t g).Distinct := by
  refine List.nodup_cons.mpr ⟨fun hm => hu ?_, h⟩
  obtain ⟨g', hg', he⟩ := List.mem_map.mp hm
  exact List.mem_flatMap.mpr ⟨g', hg', by simp [he]⟩

end State

-- Genuine refresh tokens that verify are those of the sign-ins.
theorem genuine_refresh (ht : payload.type = "refresh") (hg : s.Issued settings payload) :
    ∃ g ∈ s.grants, payload = g.refreshPayload settings := by
  obtain ⟨g, hm, rfl | rfl⟩ := hg
  case inl =>
    have hr : "access" = "refresh" := ht
    exact absurd hr (by decide)
  case inr => exact ⟨g, hm, rfl⟩

theorem Step.preserves_recorded (e : Step settings jwt s s') (h : s.Recorded settings)
    (hg : e.Genuine) : s'.Recorded settings := by
  have hr : ∀ {l : List Grant}, l ⊆ l := @List.Subset.refl _
  cases e
  case tick d =>
    exact {
      distinct := h.distinct
      issued   := h.issued
      due      := fun t p ttl hp => by have := h.due t p ttl hp; dsimp only; omega
      barred   := fun t p hp => (h.barred t p hp).mono (Nat.le_add_right ..) rfl
      owed     := h.owed }
  case write users => exact ⟨h.distinct, h.issued, h.due, h.barred, h.owed⟩
  case mint t g task later ordered unused =>
    have hn : s.now ≤ g.refresh.issued :=
      later.trans <| g.access.ordered.trans <| ordered.trans g.refresh.ordered
    exact h.of_update (h.distinct.mint unused) hn (List.subset_cons_self ..) rfl rfl
      (by rw [task]; rfl) nofun nofun nofun
  case leave t refreshToken payload later task passed ordered =>
    obtain ⟨hv, -, ht, -, -⟩ := checkLogout_eq_ok_iff.mp passed
    refine h.of_update h.distinct ordered hr rfl rfl (by rw [task]; rfl) ?_ ?_ nofun
    · intro p hp
      cases hp
      exact genuine_refresh ht (hg payload hv)
    · intro p ttl hp
      cases hp
      dsimp only [State.leave, State.setTask, blacklistTtl]
      omega
  case setex t payload ttl task positive     => exact h.setex task (.inl rfl)
  case loseSetex t payload ttl task positive => exact h.setex task (.inr rfl)
  case skip t payload task =>
    refine h.of_update h.distinct le_rfl hr rfl rfl (by rw [task]; rfl) ?_ nofun ?_
    · intro p hp
      cases hp
      exact h.issued t payload (by rw [task]; rfl)
    · intro p hp
      cases hp
      exact .inl (h.due t payload 0 task)
  case abort t task =>
    refine h.of_update h.distinct le_rfl hr rfl rfl ?_ nofun nofun nofun
    cases ht : s.tasks t <;> rw [ht] at task <;> first | rfl | cases task
  all_goals
    rename s.tasks _ = _ => task
    exact h.of_update h.distinct le_rfl hr rfl rfl (by rw [task]; rfl) nofun nofun nofun

-- However logouts interleave and Redis fails: a refresh token that someone has logged out with is
-- on the blacklist until the last second of its life, and nothing else ever is.
theorem loggedOut_blacklisted (es : Run settings jwt s₁ s₂) (h : s₁.Initial)
    (hg : es.All Step.Genuine) :
    (∀ t payload, s₂.tasks t = .left payload → s₂.now + 1000 ≤ 1000 * payload.exp →
      ∃ e ∈ s₂.blacklist payload.jti, e.Live s₂.now) ∧
    ∀ jti, s₂.blacklist jti ≠ none → ∃ g ∈ s₂.grants, g.refreshJti = jti ∧
      ∃ t, s₂.tasks t = .left (g.refreshPayload settings) ∨
        s₂.tasks t = .lost (g.refreshPayload settings) := by
  have hr : s₂.Recorded settings :=
    es.invariant_of_all (fun e => e.preserves_recorded) h.recorded hg
  constructor
  case left => exact fun t payload ht hl => (hr.barred t payload ht).live hl
  case right =>
    intro jti hj
    have ⟨e, he⟩ := Option.ne_none_iff_exists'.mp hj
    obtain ⟨t, p, hgone, hp, rfl⟩ := hr.owed jti e he
    obtain ⟨g, hm, rfl⟩ := hr.issued t p hp
    exact ⟨g, hm, rfl, t, Task.eq_of_isGone hgone hp⟩

-- Someone logs out twice with the same token, of which the second logout is blacklisted first.
theorem loggedOut_blacklisted_of_two_logouts :
    ∃ (settings : Settings) (s₁ s₂ : State) (_ : Run settings .plain s₁ s₂) (payload : Payload),
      s₂.tasks 2 = .left payload ∧ s₂.tasks 3 = .left payload ∧
        ∃ e ∈ s₂.blacklist payload.jti, e.Live s₂.now := by
  let settings : Settings := ⟨"access", "refresh", 15, 1⟩
  let user : User := ⟨7, "a@b.c", none, "customer", true, 0, none⟩
  let g : Grant := {
    userId     := ⟨7, by decide⟩
    role       := "customer"
    access     := ⟨1000, 1000, le_rfl⟩
    accessJti  := "a"
    refresh    := ⟨1000, 1001, by decide⟩
    refreshJti := "r" }
  let s₁ : State := {
    now       := 0
    users     := { byId := fun i => if i = 7 then some user else none, id := by grind }
    grants    := []
    blacklist := fun _ => none
    tasks     := fun _ => .fresh }
  let p := g.refreshPayload settings
  have hl := @checkLogout_encode settings .plain 1001 p (by decide) rfl (by decide) (by decide)
  let es : Run settings .plain s₁ _ :=
    .step (.load 1 g.userId user rfl rfl rfl) <|
    .step (.mint 1 g rfl (by decide) (by decide) (by simp [State.jtis, s₁])) <|
    .step (.leave 2 _ p 1001 rfl hl (by decide)) <|
    .step (.leave 3 _ p 1500 rfl hl (by decide)) <|
    .step (.setex 3 p (blacklistTtl 1500 p) rfl (by decide)) <|
    .step (.tick 500) <|
    .step (.setex 2 p (blacklistTtl 1001 p) rfl (by decide)) .refl
  have hg q hq : ∃ g' ∈ [g], q = g'.accessPayload settings ∨ q = g'.refreshPayload settings :=
    ⟨g, .head _, .inr (@Jwt.eq_of_verify .plain settings.jwtRefreshSecret p q hq)⟩
  refine ⟨settings, s₁, _, es, p, rfl, rfl, ?_⟩
  exact (loggedOut_blacklisted es ⟨rfl, fun _ => rfl, fun _ => rfl⟩
    ⟨trivial, trivial, hg, hg, trivial, trivial, trivial, trivial⟩).left 2 p rfl (by decide)

end Session
