import AstraGate.Execution.Signup.Theorems.Invariant
import AstraGate.Lib.Python

open Function

namespace Signup

open Auth State

variable {str : UUID → String} {hashKey : String → String} {hashpw : String → String → String}
  {s s' s₁ s₂ : State} {old : UUID → Prop} {email : String} {user : UserRow} {userId : UUID}

namespace State

theorem Initial.complete (h : s.Initial) : s.Complete s.HasUser where
  provisioned hu hn := absurd hu hn
  unknown           := h.unknown

theorem hasUser_of_keeps (h : Keeps s.users.rows s'.users.rows) (hu : s.HasUser userId) :
    s'.HasUser userId := by
  have ⟨email, row, hr, hi⟩ := hu
  have ⟨row', hr', he, _⟩ := h email row hr
  exact ⟨email, row', hr', (congrArg (·.id) he : row'.id = row.id).trans hi⟩

-- The id of a user who has not been committed yet belongs to nobody else.
theorem Invariant.not_hasUser (h : s.Invariant) (hu : (s.tasks t).user? = some user) :
    ¬s.HasUser user.id := by
  intro ⟨email, row, hr, hi⟩
  have hp := h.locked hu
  have he := h.ids (.inl hr) (.inr ⟨t, hp⟩) hi
  have ⟨_, ho, _⟩ := (h.coherent hp).of_user? hu
  rw [he, ho] at hr
  contradiction

section Elsewhere

variable {accounts' : UUID → Option CreditAccount} {transactions' : List CreditTransaction}
  {keys' : List VirtualKey}

theorem Provisioned.elsewhere (h : s.Provisioned userId)
    (he : s.Elsewhere accounts' transactions' keys') :
    State.Provisioned {
      s with accounts := accounts', transactions := transactions', keys := keys' } userId where
  account   := fun hn => h.account ((he.accounts userId).mp hn)
  credit    := by
    obtain ⟨new, rfl, hn⟩ := he.transactions
    have hf : Sql.referring freeCreditOf userId new = [] :=
      List.filter_eq_nil_iff.mpr fun tx hm => by simp [freeCreditOf, (hn tx hm).left]
    rw [Sql.referring, List.filter_append, ← Sql.referring, ← Sql.referring, h.credit, hf,
      List.append_nil]
  key       := by
    obtain ⟨f, new, rfl, hf, -⟩ := he.keys
    obtain ⟨key, hk, hu, hn⟩ := h.key
    obtain ⟨hfu, hfn⟩ := hf key
    exact ⟨f key, List.mem_append_left _ <| List.mem_map_of_mem hk, hfu.trans hu, hfn.trans hn⟩

theorem Unknown.elsewhere (h : s.Unknown userId) (hu : ¬s.HasUser userId)
    (he : s.Elsewhere accounts' transactions' keys') :
    State.Unknown {
      s with accounts := accounts', transactions := transactions', keys := keys' } userId where
  account := (he.accounts userId).mpr h.account
  credit  := by
    obtain ⟨new, rfl, hn⟩ := he.transactions
    refine List.forall_mem_append.mpr ⟨h.credit, fun tx hm hi => ?_⟩
    exact hu (hi ▸ (hn tx hm).right)
  key     := by
    obtain ⟨f, new, rfl, hf, hn⟩ := he.keys
    refine List.forall_mem_append.mpr ⟨fun key hm => ?_, fun key hm hi => hu (hi ▸ hn key hm)⟩
    obtain ⟨key', hm', rfl⟩ := List.mem_map.mp hm
    exact (hf key').left ▸ h.key key' hm'

end Elsewhere

section Commit

variable {t : TaskId} {key : VirtualKey}

theorem provisioned_commit (h : s.Unknown user.id) (hu : key.userId = user.id)
    (hn : key.name = "Default Key") :
    (s.commit str t user key plaintext row).Provisioned user.id where
  account := by simp [commit, setTask]
  credit  := by
    refine Sql.referring_append_of_new (fun tx hm => ?_) (by simp [freeCreditOf, signupCredit])
    simp only [freeCreditOf, ne_eq, Option.ite_none_right_eq_some, Option.some.injEq, not_and]
    exact fun _ => h.credit tx hm
  key     := ⟨key, List.mem_append_right _ <| List.mem_singleton_self key, hu, hn⟩

theorem granted_commit (h : s.Unknown user.id) (hu : key.userId = user.id)
    (hn : key.name = "Default Key") (ha : key.isActive) :
    (s.commit str t user key plaintext row).Granted user.id where
  account := ⟨newAccount, update_self .., rfl⟩
  credit  := by
    have hs : s.transactions.filter (·.userId = user.id) = [] :=
      List.filter_eq_nil_iff.mpr fun tx ht => by simpa using h.credit tx ht
    exact ⟨signupCredit user.id, by simp [State.commit, setTask, hs, signupCredit], rfl, rfl, rfl⟩
  key     := by
    have hs : s.keys.filter (·.userId = user.id) = [] :=
      List.filter_eq_nil_iff.mpr fun key hk => by simpa using h.key key hk
    exact ⟨key, by simp [State.commit, setTask, hs, hu], hn, ha⟩

theorem Provisioned.commit (h : s.Provisioned userId) (hn : userId ≠ user.id) :
    (s.commit str t user key plaintext row).Provisioned userId where
  account := by simpa [State.commit, setTask, hn] using h.account
  credit  := by
    have hr : ∀ tx ∈ [signupCredit user.id], freeCreditOf tx = some user.id := by
      simp [freeCreditOf, signupCredit]
    exact (Sql.referring_append_of_ne hr hn.symm).trans h.credit
  key     := by
    obtain ⟨key', hk, hu, hd⟩ := h.key
    exact ⟨key', List.mem_append_left _ hk, hu, hd⟩

theorem Unknown.commit (h : s.Unknown userId) (hn : userId ≠ user.id)
    (hu : key.userId = user.id) : (s.commit str t user key plaintext row).Unknown userId where
  account := by simpa [State.commit, setTask, hn] using h.account
  credit  := List.forall_mem_append.mpr ⟨h.credit, by simpa [signupCredit] using hn.symm⟩
  key     := List.forall_mem_append.mpr ⟨h.key, by simpa [hu] using hn.symm⟩

end Commit
end State

namespace Step

-- The email of the user that a step creates.
def created? (e : Step str hashKey hashpw s s') : Option String :=
  match e with
  | commit _ user .. => some user.email
  | _                => none

-- A sign-up fails because its user has too many keys.
def Refuses (e : Step str hashKey hashpw s s') : Prop :=
  match e with
  | refuse .. => True
  | _         => False

theorem created?_eq_some (e : Step str hashKey hashpw s s') (h : s.Invariant)
    (hc : e.created? = some email) :
    s.users.rows email = none ∧ s'.users.rows email ≠ none := by
  cases e
  case commit t user key plaintext row task pending =>
    obtain ⟨-, ho, rfl⟩ := h.writes task pending
    cases hc
    exact ⟨ho, by simp [State.commit, setTask]⟩
  all_goals cases hc

theorem preserves_complete (e : Step str hashKey hashpw s s') (h : s.Invariant)
    (hc : s.Complete old) : s'.Complete old := by
  have hk := e.keeps h
  -- Steps that create no user, and leave the other tables alone.
  have quiet (hu : ∀ {userId}, s'.HasUser userId → s.HasUser userId)
      (ha : s'.accounts = s.accounts) (ht : s'.transactions = s.transactions)
      (hy : s'.keys = s.keys) : s'.Complete old := by
    constructor
    case provisioned =>
      intro userId hu' ho
      have hp := hc.provisioned (hu hu') ho
      exact ⟨ha ▸ hp.account, ht ▸ hp.credit, hy ▸ hp.key⟩
    case unknown =>
      intro userId hn
      have hp := hc.unknown (fun hu' => hn (hasUser_of_keeps hk hu'))
      exact ⟨ha ▸ hp.account, ht ▸ hp.credit, hy ▸ hp.key⟩
  cases e
  case commitLink t user sub row task active pending =>
    refine quiet (fun hu => ?_) rfl rfl rfl
    obtain ⟨-, old, ho, rfl⟩ := h.writes task pending
    obtain ⟨email, row, hr, hi⟩ := hu
    by_cases he : email = user.email
    case pos =>
      subst he
      cases (update_self ..).symm.trans hr
      exact ⟨_, old, ho, hi⟩
    case neg => exact ⟨email, row, (update_of_ne he ..).symm.trans hr, hi⟩
  case count email row failedLoginAttempts lockedUntil free committed =>
    refine quiet (fun hu => ?_) rfl rfl rfl
    obtain ⟨email', row', hr, hi⟩ := hu
    by_cases he : email' = email
    case pos =>
      subst he
      cases (update_self ..).symm.trans hr
      exact ⟨_, row, committed, hi⟩
    case neg => exact ⟨email', row', (update_of_ne he ..).symm.trans hr, hi⟩
  case commit t user key plaintext row task pending =>
    have hn : ¬s.HasUser user.id := h.not_hasUser (t := t) (by rw [task]; rfl)
    have ⟨_, hu, hd, _⟩ : (Task.keyed user key plaintext).Sound s.users.rows := task ▸ h.sound t
    obtain ⟨-, ho, rfl⟩ := h.writes task pending
    constructor
    case provisioned =>
      intro userId hu' hold
      by_cases he : userId = user.id
      case pos => exact he ▸ provisioned_commit (hc.unknown hn) hu hd
      case neg =>
        obtain ⟨email, row, hr, hi⟩ := hu'
        by_cases hm : email = user.email
        case pos =>
          subst hm
          cases (update_self ..).symm.trans hr
          exact absurd hi.symm he
        case neg =>
          refine (hc.provisioned ?_ hold).commit he
          exact ⟨email, row, (update_of_ne hm ..).symm.trans hr, hi⟩
    case unknown =>
      intro userId hu'
      have he : userId ≠ user.id := fun he => hu' ⟨user.email, user, update_self .., he.symm⟩
      exact (hc.unknown fun hu => hu' (hasUser_of_keeps hk hu)).commit he hu
  case elsewhere accounts transactions keys he =>
    exact ⟨fun hu ho => (hc.provisioned hu ho).elsewhere he,
      fun hu => (hc.unknown hu).elsewhere hu he⟩
  all_goals exact quiet id rfl rfl rfl

-- A sign-up commits all that its user is to get.
theorem granted (e : Step str hashKey hashpw s s') (h : s.Invariant) (hc : s.Complete old)
    (he : e.created? = some email) :
    ∃ user, s'.users.rows email = some user ∧ s'.Granted user.id := by
  cases e
  case commit t user key plaintext row task pending =>
    cases he
    have hn : ¬s.HasUser user.id := h.not_hasUser (t := t) (by rw [task]; rfl)
    have ⟨_, hu, hd, ha⟩ : (Task.keyed user key plaintext).Sound s.users.rows := task ▸ h.sound t
    obtain ⟨-, -, rfl⟩ := h.writes task pending
    exact ⟨user, update_self .., granted_commit (hc.unknown hn) hu hd ha⟩
  all_goals cases he

-- A user who is being created has no keys yet.
theorem not_refuses (e : Step str hashKey hashpw s s') (h : s.Invariant) (hc : s.Complete old) :
    ¬e.Refuses := by
  cases e
  case refuse t user id randomPart e task error =>
    have hn : ¬s.HasUser user.id := h.not_hasUser (t := t) (by rw [task]; rfl)
    have hk := VirtualKey.createVirtualKey_of_forall_ne hashKey
      (VirtualKey.defaultCreation user.id id randomPart) (hc.unknown hn).key
    exact nomatch hk.symm.trans error
  all_goals exact id

end Step

-- However sign-ups, sign-ins and failures interleave, a user is created with a dollar of free
-- credit and an active key, and has a credit account, one free credit and a default key from then
-- on. Nobody else has any of them, no email is created twice, and no sign-up fails for the limit of
-- keys.
theorem signups_complete (es : Run str hashKey hashpw s₁ s₂) (h : s₁.Initial) :
    (es.All fun {_ s} e => ∀ email ∈ e.created?,
        ∃ user, s.users.rows email = some user ∧ s.Granted user.id) ∧
      es.Visits (State.Complete s₁.HasUser) ∧ (es.collect Step.created?).Nodup ∧
        es.All fun e => ¬e.Refuses := by
  let I s := State.Invariant s ∧ s.Complete s₁.HasUser
  have hi : ∀ {s s'} (e : Step str hashKey hashpw s s'), I s → I s' :=
    fun e h => ⟨e.preserves_invariant h.left, e.preserves_complete h.left h.right⟩
  have h₁ : I s₁ := ⟨h.invariant, h.complete⟩
  refine ⟨?granted, ?complete, ?once, ?unlimited⟩
  case granted   => exact es.all_of_preserved hi (fun e h _ he => e.granted h.left h.right he) h₁
  case complete  => exact es.all_of_preserved hi (fun e h => (hi e h).right) h₁
  case unlimited => exact es.all_of_preserved hi (fun e h => e.not_refuses h.left h.right) h₁
  case once =>
    refine (es.nodup_collect (fun s email => s.users.rows email ≠ none) hi ?_ ?_ h₁).left
    case refine_1 =>
      intro s s' e h email hr
      have ⟨row, hr⟩ := Option.ne_none_iff_exists'.mp hr
      have ⟨row', hr', _⟩ := e.keeps h.left email row hr
      exact hr' ▸ nofun
    case refine_2 =>
      intro s s' e h email hc
      have ⟨hn, hs⟩ := e.created?_eq_some h.left hc
      exact ⟨fun hn' => hn' hn, hs⟩

-- Two registrations with the same email that both find it free, and a sign-in with Google after
-- the first of them has been committed.
theorem signups_complete_of_two_registrations :
    ∃ (s₁ s₂ : State) (es : Run Python.str id (fun p _ => p) s₁ s₂),
      es.collect Step.created? = ["a@b.c"] ∧
      (∃ row, s₂.users.rows "a@b.c" = some row ∧ row.oauthSub = some "g") ∧
      (es.All fun {_ s} e => ∀ email ∈ e.created?,
        ∃ user, s.users.rows email = some user ∧ s.Granted user.id) ∧
      es.Visits (State.Complete s₁.HasUser) := by
  let s₁ : State := {
    users := ⟨fun _ => none, fun _ => none⟩, accounts := fun _ => none, transactions := [],
    keys := [], tasks := fun _ => .fresh }
  let r : Request := .register ⟨"a@b.c", "password", by decide, by decide⟩ ""
  let n : NewUser := ⟨"a@b.c", some "password", none, none⟩
  let key : VirtualKey := .create id (VirtualKey.defaultCreation 7 8 "x")
  let idInfo : IdInfo := ⟨some "a@b.c", some "g", true⟩
  have hn : ∀ s : State, s.users = s₁.users → s.New 7 := by
    intro s hs email row hv
    rw [State.Version, hs] at hv
    obtain hv | ⟨t, hv⟩ := hv <;> cases hv
  let es : Run Python.str id (fun p _ => p) s₁ _ :=
    .step (.miss 1 r rfl rfl) <|
    .step (.miss 2 r rfl rfl) <|
    .step (.insert 1 n 7 rfl rfl rfl (hn _ rfl)) <|
    .step (.credit 1 (n.row 7) rfl) <|
    .step (.mint 1 (n.row 7) 8 "x" key rfl rfl) <|
    .step (.commit 1 (n.row 7) key "ag-sk-x" _ rfl rfl) <|
    .step (.duplicate 2 n (n.row 7) rfl rfl rfl) <|
    .step (.load 3 (some idInfo) ⟨"a@b.c", "g"⟩ (n.row 7) rfl rfl rfl rfl) <|
    .step (.flushLink 3 (n.row 7) "g" (n.row 7) rfl rfl rfl) <|
    .step (.commitLink 3 (n.row 7) "g" _ rfl rfl rfl) .refl
  have h : s₁.Initial := {
    fresh _     := rfl
    quiet _     := rfl
    email hr    := by cases hr
    ids hr      := by cases hr
    unknown _   := ⟨rfl, by simp [s₁], by simp [s₁]⟩
    linkage hr  := by cases hr }
  obtain ⟨hg, hc, -⟩ := signups_complete es h
  exact ⟨s₁, _, es, rfl, ⟨_, rfl, rfl⟩, hg, hc⟩

end Signup
