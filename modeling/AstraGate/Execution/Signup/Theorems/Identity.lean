import AstraGate.Execution.Signup.Theorems.Invariant
import AstraGate.Lib.Python

open Function

namespace Signup

open Auth State

variable {str : UUID → String} {hashKey : String → String} {hashpw : String → String → String}
  {s s' s₁ s₂ : State}

-- The account of Google belongs to the active user with its email, and so do the tokens.
def State.Owned (str : UUID → String) (s : State) (i : Identity) (response : TokenResponse) :
    Prop :=
  ∃ row, s.users.rows i.email = some row ∧ row.oauthProvider = some "google" ∧
    row.oauthSub = some i.sub ∧ row.isActive ∧
    response.accessToken = createAccessToken (str row.id) row.role ∧
    response.refreshToken = createRefreshToken (str row.id)

namespace Step

-- The call that a step answers, and the account of Google that it is for.
def google? (e : Step str hashKey hashpw s s') : Option (TaskId × Identity) :=
  match e with
  | signIn t _ i ..          => some (t, i)
  | commitLink t user sub .. => some (t, { email := user.email, sub })
  | commit t user ..         => user.oauthSub.map (t, { email := user.email, sub := · })
  | _                        => none

-- If a step answers a sign-in with Google with tokens, then these are the owner's.
def AnswersOwner (e : Step str hashKey hashpw s s') : Prop :=
  ∀ t i response, e.google? = some (t, i) → s'.tasks t = .answered (.ok response) →
    s'.Owned str i response

theorem answersOwner (e : Step str hashKey hashpw s s') (h : s.Invariant) : e.AnswersOwner := by
  intro t i response hi hr
  cases e
  case signIn t idInfo i' row task valid taken linked =>
    cases hi
    have hs : Auth.signIn str row i.sub = .ok response :=
      Task.answered.inj <| (update_self ..).symm.trans hr
    have hl := h.linkage (.inl taken)
    have ⟨hsub, ha, hresponse⟩ := signIn_eq_ok hs hl linked
    exact ⟨row, taken, hl.linked linked, hsub, ha, hresponse ▸ ⟨rfl, rfl⟩⟩
  case commitLink t user sub row task active pending =>
    cases hi
    cases Task.answered.inj <| (update_self ..).symm.trans hr
    have ⟨hs, row', hu, hid⟩ : (Task.linked user sub).Sound s.users.rows := task ▸ h.sound t
    obtain ⟨-, old, ho, rfl⟩ := h.writes task pending
    cases hu.symm.trans ho
    have ha : row'.isActive = user.isActive := congrArg (·.isActive) hid
    have hi : row'.id = user.id := congrArg (·.id) hid
    have hro : row'.role = user.role := congrArg (·.role) hid
    refine ⟨_, update_self .., rfl, if_neg (hs ▸ nofun), ha.trans active, ?_⟩
    exact ⟨congrArg₂ (createAccessToken <| str ·) hi.symm hro.symm,
      congrArg (createRefreshToken <| str ·) hi.symm⟩
  case commit t user key plaintext row task pending =>
    obtain ⟨sub, hs, hi⟩ := Option.map_eq_some_iff.mp hi
    cases hi
    cases Task.answered.inj <| (update_self ..).symm.trans hr
    have ⟨ha, _⟩ : (Task.keyed user key plaintext).Sound s.users.rows := task ▸ h.sound t
    have hp : s.users.pending user.email = some (t, some user) := h.locked (by rw [task]; rfl)
    have hl := h.linkage (.inr ⟨t, hp⟩)
    have hu : ¬Unlinked user := fun hu => nomatch (hl.unlinked hu).symm.trans hs
    obtain ⟨-, -, rfl⟩ := h.writes task pending
    exact ⟨user, update_self .., hl.linked hu, hs, ha, rfl, rfl⟩
  all_goals cases hi

end Step

-- However the calls interleave, nobody's id, email, password, role or activation changes, an
-- account stays linked to the provider that it is linked to, and the tokens for a sign-in with
-- Google are those of the user with this email, who is linked to this account of Google by then.
theorem signIns_owned (es : Run str hashKey hashpw s₁ s₂) (h : s₁.Initial) :
    Keeps s₁.users.rows s₂.users.rows ∧ es.All Step.AnswersOwner := by
  have hi : ∀ {s s' : State}, Step str hashKey hashpw s s' → s.Invariant → s'.Invariant :=
    fun e h => e.preserves_invariant h
  constructor
  case left =>
    refine (es.invariant (I := fun s => s.Invariant ∧ Keeps s₁.users.rows s.users.rows) ?_
      ⟨h.invariant, .refl _⟩).right
    exact fun e h => ⟨hi e h.left, h.right.trans (e.keeps h.left)⟩
  case right => exact es.all_of_preserved hi (fun e h => e.answersOwner h) h.invariant

-- A user who has registered with a password signs in with Google twice, and somebody else with the
-- same email fails.
theorem signIns_owned_of_mismatch :
    let row : UserRow := ⟨⟨7, "a@b.c", some "hash", "customer", true, 2, none⟩, none, none⟩
    ∃ (s₁ s₂ : State) (es : Run Python.str id (fun p _ => p) s₁ s₂),
      s₂.tasks 2 = .answered (.ok <| tokens Python.str row none) ∧
      s₂.tasks 3 = .answered (.error accountMismatch) ∧
      Keeps s₁.users.rows s₂.users.rows ∧ es.All Step.AnswersOwner := by
  intro row
  let rows : String → Option UserRow := fun email => if email = "a@b.c" then some row else none
  let s₁ : State := {
    users := ⟨rows, fun _ => none⟩, accounts := fun _ => none, transactions := [], keys := [],
    tasks := fun _ => .fresh }
  let idInfo (sub : String) : IdInfo := ⟨some "a@b.c", some sub, true⟩
  have hr : ∀ {email row'}, rows email = some row' → email = "a@b.c" ∧ row' = row := by
    intro email row' hr
    by_cases he : email = "a@b.c"
    case pos => simpa [rows, he, eq_comm] using hr
    case neg => simp [rows, he] at hr
  let es : Run Python.str id (fun p _ => p) s₁ _ :=
    .step (.load 1 (some <| idInfo "g") ⟨"a@b.c", "g"⟩ row rfl rfl rfl rfl) <|
    .step (.flushLink 1 row "g" row rfl rfl rfl) <|
    .step (.commitLink 1 row "g" _ rfl rfl rfl) <|
    .step (.signIn 2 (some <| idInfo "g") ⟨"a@b.c", "g"⟩ (link row "g" row) rfl rfl rfl nofun) <|
    .step (.signIn 3 (some <| idInfo "h") ⟨"a@b.c", "h"⟩ (link row "g" row) rfl rfl rfl nofun) .refl
  have h : s₁.Initial := {
    fresh _        := rfl
    quiet _        := rfl
    email h        := by rw [(hr h).left, (hr h).right]
    ids h h' _     := (hr h).left.trans (hr h').left.symm
    unknown _      := ⟨rfl, by simp [s₁], by simp [s₁]⟩
    linkage h      := (hr h).right ▸ ⟨fun _ => rfl, fun h => (h rfl).elim⟩ }
  exact ⟨s₁, _, es, rfl, rfl, signIns_owned es h⟩

end Signup
