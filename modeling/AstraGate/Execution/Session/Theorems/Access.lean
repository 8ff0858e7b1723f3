import AstraGate.Execution.Session.Step
import AstraGate.Lib.Python

open Function

namespace Session

open Auth
open RateLimit (seconds)

variable {settings : Settings} {jwt : Jwt} {s s' s₁ s₂ : State} {t : TaskId} {k : Task}
  {call : Call} {decodedAt : Time} {userId : UUID} {user : User} {g : Grant}

-- The header carries an access token that a sign-in has given to the user, and that has not been
-- expired when it was decoded.
def State.Authenticates (settings : Settings) (jwt : Jwt) (s : State) (call : Call)
    (decodedAt : Time) (userId : UUID) : Prop :=
  ∃ g ∈ s.grants, g.userId.val = userId ∧
    Bears settings jwt call.authorization (g.accessPayload settings) ∧
    seconds decodedAt ≤ seconds (g.access.expiry + settings.jwtAccessTokenExpireMinutes * 60000)

-- What the user's row has to be like by the time that it is read.
structure State.Accepts (settings : Settings) (jwt : Jwt) (s : State) (call : Call)
    (decodedAt : Time) (user : User) : Prop where
  token  : s.Authenticates settings jwt call decodedAt user.id
  row    : s.users.byId user.id = some user
  active : user.isActive
  admin  : call.admin → user.role = "admin"

theorem bears_unique {authorization : String} {p p' : Payload}
    (h : Bears settings jwt authorization p) (h' : Bears settings jwt authorization p') :
    p = p' := by
  obtain ⟨token, ht, hv⟩ := h
  obtain ⟨token', ht', hv'⟩ := h'
  have he : token = token' := by
    have ha := getTokenFromHeader_eq_ok_iff.mpr ht
    exact Except.ok.inj (ha.symm.trans (getTokenFromHeader_eq_ok_iff.mpr ht'))
  rw [he, hv'] at hv
  exact (Option.some.inj hv).symm

theorem bears_encode {payload : Payload} :
    Bears settings jwt ("Bearer " ++ jwt.encode settings.jwtSecret payload) payload :=
  ⟨_, rfl, jwt.verify_encode ..⟩

theorem parseUuid_accessPayload :
    Billing.parseUuid (g.accessPayload settings).sub = some g.userId.val :=
  g.userId.parseUuid_str

-- Genuine access tokens that verify are those of the sign-ins.
theorem genuine_access {payload : Payload} (ht : payload.type = "access")
    (hg : s.Issued settings payload) :
    ∃ g ∈ s.grants, payload = g.accessPayload settings := by
  obtain ⟨g, hm, rfl | rfl⟩ := hg
  case inl => exact ⟨g, hm, rfl⟩
  case inr =>
    have hr : "refresh" = "access" := ht
    exact absurd hr (by decide)

theorem authenticates_of_ok (h : authenticate settings jwt s.now call.authorization = .ok userId)
    (hg : ∀ payload, Bears settings jwt call.authorization payload → s.Issued settings payload) :
    s.Authenticates settings jwt call s.now userId := by
  obtain ⟨payload, hb, he, ht, hs⟩ := authenticate_eq_ok_iff.mp h
  obtain ⟨g, hm, rfl⟩ := genuine_access ht (hg payload hb)
  exact ⟨g, hm, Option.some.inj (parseUuid_accessPayload.symm.trans hs), hb, he⟩

theorem State.Authenticates.ok (h : s.Authenticates settings jwt call s.now userId) :
    authenticate settings jwt s.now call.authorization = .ok userId := by
  obtain ⟨g, -, rfl, hb, he⟩ := h
  exact authenticate_eq_ok_iff.mpr ⟨_, hb, he, rfl, parseUuid_accessPayload⟩

theorem State.Authenticates.unique {userId' : UUID} {decodedAt' : Time}
    (h : s.Authenticates settings jwt call decodedAt userId)
    (h' : s.Authenticates settings jwt call decodedAt' userId') : userId = userId' := by
  obtain ⟨g, -, rfl, hb, -⟩ := h
  obtain ⟨g', -, rfl, hb', -⟩ := h'
  have he : (g.accessPayload settings).sub = (g'.accessPayload settings).sub :=
    congrArg (·.sub) (bears_unique hb hb')
  rw [Cache.Id.str_injective he]

theorem answer_eq_ok_iff {row : Option User} : call.answer row = .ok user ↔
    row = some user ∧ user.isActive ∧ (call.admin → user.role = "admin") := by
  rw [← and_assoc, ← currentUser_eq_ok_iff, Call.answer]
  cases currentUser row
  case error e => simp [bind, Except.bind]
  case ok user' =>
    simp only [bind, Except.bind, Except.ok.injEq]
    cases call.admin
    case false => simp
    case true  => simpa [requireAdmin_eq_ok_iff] using fun he => by rw [he]

theorem answer_ne_valueError {row : Option User} : call.answer row ≠ .error .valueError := by
  have hu : currentUser row ≠ .error .valueError := by
    cases row <;> grind [currentUser, unauthenticated]
  unfold Call.answer
  cases hc : currentUser row
  case error e => simpa [bind, Except.bind, hc] using hu
  case ok user =>
    simp only [bind, Except.bind]
    grind [requireAdmin]

namespace Step

-- How a call ends, and when it has decoded its token.
def ends? (e : Step settings jwt s s') : Option (Call × Time × Except Refusal User) :=
  match e with
  | refuse _ call error ..           => some (call, s.now, .error error)
  | answer _ call decodedAt userId _ =>
    some (call, decodedAt, call.answer <| s.users.byId userId)
  | _                                => none

end Step

-- Calls that have decoded their tokens have been authenticated.
def State.Sound (settings : Settings) (jwt : Jwt) (s : State) : Prop :=
  ∀ t call decodedAt userId, s.tasks t = .decoded call decodedAt userId →
    s.Authenticates settings jwt call decodedAt userId

theorem State.Initial.sound (h : s.Initial) : s.Sound settings jwt :=
  fun t _ _ _ ht => nomatch (h.fresh t).symm.trans ht

theorem State.Authenticates.mono (h : s.Authenticates settings jwt call decodedAt userId)
    (hs : s.grants ⊆ s'.grants) : s'.Authenticates settings jwt call decodedAt userId :=
  have ⟨g, hm, hg⟩ := h
  ⟨g, hs hm, hg⟩

-- A step that moves one task keeps the others sound.
theorem State.Sound.of_update (h : s.Sound settings jwt) (hg : s.grants ⊆ s'.grants)
    (hs : s'.tasks = update s.tasks t k)
    (hk : ∀ call decodedAt userId, k = .decoded call decodedAt userId →
      s'.Authenticates settings jwt call decodedAt userId) : s'.Sound settings jwt := by
  intro t' call decodedAt userId ht
  by_cases he : t' = t
  case pos => rw [hs, he, update_self] at ht; exact hk _ _ _ ht
  case neg => rw [hs, update_of_ne he] at ht; exact (h t' _ _ _ ht).mono hg

theorem Step.preserves_sound (e : Step settings jwt s s') (h : s.Sound settings jwt)
    (hg : e.Genuine) : s'.Sound settings jwt := by
  cases e
  case tick  => exact h
  case write => exact h
  case decode t call userId task passed =>
    refine h.of_update (List.Subset.refl _) rfl ?_
    intro _ _ _ hk
    cases hk
    exact authenticates_of_ok passed hg
  case mint => exact h.of_update (List.subset_cons_self ..) rfl nofun
  all_goals exact h.of_update (List.Subset.refl _) rfl nofun

theorem Step.ends_iff (e : Step settings jwt s s') (h : s.Sound settings jwt) (hg : e.Genuine) :
    ∀ call decodedAt outcome, e.ends? = some (call, decodedAt, outcome) →
      outcome ≠ .error .valueError ∧
        ∀ user, outcome = .ok user ↔ s.Accepts settings jwt call decodedAt user := by
  intro call decodedAt outcome he
  cases e
  case refuse t call error task refused =>
    cases he
    constructor
    case left =>
      intro hv
      cases hv
      obtain ⟨payload, hb, ht, hn⟩ := authenticate_eq_valueError refused
      obtain ⟨g, -, rfl⟩ := genuine_access ht (hg payload hb)
      cases hn.symm.trans parseUuid_accessPayload
    case right =>
      refine fun user => ⟨nofun, fun ha => ?_⟩
      cases refused.symm.trans ha.token.ok
  case answer t call decodedAt userId task =>
    cases he
    refine ⟨answer_ne_valueError, fun user => answer_eq_ok_iff.trans ⟨?_, fun ha => ?_⟩⟩
    case refine_1 =>
      intro ⟨hr, ha, had⟩
      cases s.users.id hr
      exact ⟨h t _ _ _ task, hr, ha, had⟩
    case refine_2 =>
      rw [(h t _ _ _ task).unique ha.token]
      exact ⟨ha.row, ha.active, ha.admin⟩
  all_goals cases he

-- Whatever else goes on: a call is let in as a user if and only if it carries an access token that
-- a sign-in has given to this user less than its lifetime ago, and the user is active, and an
-- admin where one is asked for, by the time that the row is read. It never fails otherwise.
theorem calls_accepted_iff (es : Run settings jwt s₁ s₂) (h : s₁.Initial)
    (hg : es.All Step.Genuine) :
    es.All fun {s _} e => ∀ call decodedAt outcome, e.ends? = some (call, decodedAt, outcome) →
      outcome ≠ .error .valueError ∧
        ∀ user, outcome = .ok user ↔ s.Accepts settings jwt call decodedAt user :=
  es.all_of_invariant (fun e => e.preserves_sound) (fun e => e.ends_iff) h.sound hg

-- Someone who has signed in as a customer is an admin by the time that the row is read.
theorem calls_accepted_iff_of_promotion :
    ∃ (settings : Settings) (s₁ s₂ : State) (es : Run settings .plain s₁ s₂) (call : Call)
      (user : User), es.collect Step.ends? = [(call, 1001, .ok user)] ∧ user.role = "admin" ∧
      es.All fun {s _} e => ∀ call decodedAt outcome, e.ends? = some (call, decodedAt, outcome) →
        outcome ≠ .error .valueError ∧
          ∀ user, outcome = .ok user ↔ s.Accepts settings .plain call decodedAt user := by
  let settings : Settings := ⟨"access", "refresh", 15, 7⟩
  let user role : User := ⟨7, "a@b.c", none, role, true, 0, none⟩
  let users role : UsersById := {
    byId := fun i => if i = 7 then some (user role) else none
    id   := by grind }
  let g : Grant := {
    userId     := ⟨7, by decide⟩
    role       := "customer"
    access     := ⟨1000, 1000, le_rfl⟩
    accessJti  := "a"
    refresh    := ⟨1000, 1001, by decide⟩
    refreshJti := "r" }
  let s₁ : State := {
    now       := 0
    users     := users "customer"
    grants    := []
    blacklist := fun _ => none
    tasks     := fun _ => .fresh }
  let token := Jwt.plain.encode settings.jwtSecret (g.accessPayload settings)
  let call : Call := ⟨"Bearer " ++ token, true⟩
  have hb : Bears settings .plain call.authorization (g.accessPayload settings) := bears_encode
  have hd : authenticate settings .plain 1001 call.authorization = .ok 7 :=
    authenticate_eq_ok_iff.mpr ⟨_, hb, by decide, rfl, g.userId.parseUuid_str⟩
  let es : Run settings .plain s₁ _ :=
    .step (.load 1 g.userId (user "customer") rfl rfl rfl) <|
    .step (.mint 1 g rfl (by decide) (by decide) (by simp [State.jtis, s₁])) <|
    .step (.decode 2 call 7 rfl hd) <|
    .step (.write <| users "admin") <|
    .step (.answer 2 call 1001 7 rfl) .refl
  have hg : es.All Step.Genuine :=
    ⟨trivial, trivial, fun _ hp => ⟨g, .head _, .inl (bears_unique hp hb)⟩, trivial, trivial,
      trivial⟩
  exact ⟨settings, s₁, _, es, call, user "admin", rfl, rfl,
    calls_accepted_iff es ⟨rfl, fun _ => rfl, fun _ => rfl⟩ hg⟩

end Session
