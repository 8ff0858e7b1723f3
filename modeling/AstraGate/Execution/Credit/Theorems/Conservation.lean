import AstraGate.Execution.Credit.Theorems.Invariant

open Function

namespace Credit

-- The steps of runs in which Redis is available and no key of a hold expires before it is read.
def Step.Kept (e : Step s s') : Prop :=
  match e with
  | set _ _ ok _          => ok = true
  | get r _ _ ok _        => ok = true ∧ ∀ key, s.holds r = some key → s.now < key.expires
  | delete _ _ _ _ _ ok _ => ok = true
  | _                     => True

-- Where every step was kept, resolutions have found what is held.
def Task.Kept : Task → Prop
  | stored q | held q => q.setAt ≠ none
  | looked q _ l | adjusted q _ l _ | cleaned q _ l _ => l.heldAmount = some q.amount
  | _ => True

def State.Kept (s : State) : Prop :=
  ∀ r, (s.tasks r).Kept

theorem State.Initial.kept {s : State} (h : s.Initial) : s.Kept := by
  intro r
  rw [h.fresh r]
  trivial

theorem Step.preserves_kept (e : Step s s') (hi : s.Keyed) (h : s.Kept) (he : e.Kept) :
    s'.Kept := by
  cases e
  case tick                 => exact h
  case signup               => exact h
  case refuse task _ _      => exact State.forall_of_update h task rfl (fun _ => trivial)
  case hold task _ _        => exact State.forall_of_update h task rfl (fun _ => trivial)
  case set task =>
    exact State.forall_of_update h task rfl (fun _ => by simp_all [Kept, Task.Kept])
  case commitHold task _    => exact State.forall_of_update h task rfl id
  case get r q how ok task =>
    refine State.forall_of_update h task rfl (fun hk => ?_)
    have hkey := hi _ _ task
    have ⟨at₁, hs⟩ := Option.ne_none_iff_exists'.mp hk
    simp only [Task.Keyed, hs, Option.map_some] at hkey
    simpa [Task.Kept, getHoldAmount, hkey, he.left, holdKey] using he.right _ hkey
  case skip task _          => exact State.forall_of_update h task rfl (fun _ => trivial)
  case select task _ _ _    => exact State.forall_of_update h task rfl id
  case delete task          => exact State.forall_of_update h task rfl id
  case commit task _        => exact State.forall_of_update h task rfl (fun _ => trivial)
  case topup task _ _ _     => exact State.forall_of_update h task rfl (fun _ => trivial)
  case commitTopup task _   => exact State.forall_of_update h task rfl (fun _ => trivial)
  case abort                => exact State.forall_of_update h rfl rfl (fun _ => trivial)

-- The user for whom a step adds to the ledger, and what it adds.
def Step.booking (e : Step s s') : UUID × ℚ :=
  match e with
  | signup u ..                 => (u, 1)
  | commit _ q how ..           => (q.userId, how.booked)
  | commitTopup _ _ u amount .. => (u, amount)
  | _                           => (0, 0)

def Step.booked (e : Step s s') (u : UUID) : ℚ :=
  Escrow.share u (some e.booking)

theorem Step.ledgerSum_eq (e : Step s s') (h : Invariant s) (u : UUID) :
    ledgerSum u s'.ledger = ledgerSum u s.ledger + e.booked u := by
  cases e
  case signup v new free => simp [booked, booking, State.signup, Auth.signupCredit]
  case commit r q how l txs account task locked =>
    obtain ⟨a, ha⟩ := h.account_of_pending locked
    obtain ⟨b, txs', hb, -, htxs⟩ := how.apply_some q.userId l.heldAmount a
    have hw := h.coherent.writes task locked
    cases (ha ▸ hb).symm.trans hw.right
    simp [booked, booking, State.commit, htxs]
  case commitTopup r now v amount tx account task locked =>
    obtain ⟨-, id, a, b, -, hb, -⟩ := h.coherent.writes task locked
    cases hb
    simp [booked, booking, State.commit]
  case commitHold => simp [booked, booking, State.commit]
  all_goals exact (add_zero _).symm.trans <| congrArg _ (ite_self 0).symm

-- What a step changes a user's balance by is booked, or moves into or out of an outstanding hold.
theorem Step.balance_add_outstanding (e : Step s s') (h : Invariant s) (hk : s.Kept) (u : UUID) :
    s'.balance u + s'.outstanding u = s.balance u + s.outstanding u + e.booked u := by
  cases e
  case tick => simp [booked, booking, State.balance, State.outstanding]
  case signup v new free =>
    have ho : (s.signup v).outstanding u = s.outstanding u := rfl
    rw [ho]
    by_cases hv : u = v
    case pos =>
      subst hv
      simp [booked, booking, State.signup, State.balance, new, Auth.newAccount]
      ring
    case neg => simp [booked, booking, State.signup, State.balance, hv, Ne.symm hv]
  case commitHold r q account task locked =>
    rw [h.balance_commit locked, State.outstanding_update (s := s) rfl, task]
    by_cases hu : q.userId = u <;> simp [booked, booking, Task.change, hu]
    ring
  case commit r q how l txs account task locked =>
    have hl : l.heldAmount = some q.amount := by simpa [Task.Kept, task] using hk r
    rw [h.balance_commit locked, State.outstanding_update (s := s) rfl, task]
    by_cases hu : q.userId = u <;> simp [booked, booking, Task.change, hu, hl]
    cases how <;> simp [Resolution.change, Resolution.booked] <;> ring
  case commitTopup r now v amount tx account task locked =>
    rw [h.balance_commit locked, State.outstanding_update (s := s) rfl, task]
    by_cases hu : v = u <;> simp [booked, booking, Task.change, hu]
    ring
  case skip r q l task lost =>
    have hr := hk r
    rw [task] at hr
    cases lost.symm.trans hr
  case abort =>
    rw [State.outstanding_update (s := s) rfl]
    simp [booked, booking, State.balance, State.rollback]
  case refuse task _ _ | hold task _ _ | set task | get task | select task _ _ _ | delete task
    | topup task _ _ _ =>
    rw [State.outstanding_update (s := s) rfl, task]
    simp [booked, booking, State.balance, State.lock, State.set, State.get, State.delete]

-- No commit of a hold overdraws the account, and a refused hold leaves no trace.
def Step.Guarded (e : Step s s') : Prop :=
  match e with
  | commitHold _ q .. => 0 ≤ s'.balance q.userId
  | refuse ..         =>
    s'.accounts = s.accounts ∧ s'.ledger = s.ledger ∧ s'.holds = s.holds
  | _                 => True

theorem Step.guarded (e : Step s s') (h : Invariant s) : e.Guarded := by
  cases e
  case refuse => exact ⟨rfl, rfl, rfl⟩
  case commitHold r q account task locked =>
    have ⟨_, a, ha, _⟩ := h.coherent.writes task locked
    have ⟨b, hb, hc, _⟩ := holdCredit_ok ha
    rw [Guarded, h.balance_commit locked, task]
    simpa [Task.change, State.balance, hb] using sub_nonneg.mpr hc
  all_goals trivial

structure Balanced (s : State) : Prop where
  invariant : Invariant s
  kept      : s.Kept
  balanced  : ∀ u, s.balance u + s.outstanding u = ledgerSum u s.ledger

theorem Step.preserves_balanced (e : Step s s') (h : Balanced s) (he : e.Kept) : Balanced s' where
  invariant := e.preserves_invariant h.invariant
  kept      := e.preserves_kept h.invariant.keyed h.kept he
  balanced u := by
    rw [e.balance_add_outstanding h.invariant h.kept, h.balanced, e.ledgerSum_eq h.invariant]

theorem State.Initial.outstanding_eq_zero {s : State} (h : s.Initial) : s.outstanding u = 0 := by
  simp [State.outstanding, h.fresh]

-- From a service whose balances are the sums of their bookings, every run with a working Redis ends
-- in a state where the balances and the outstanding holds add up to the bookings.
theorem balance_add_outstanding_eq_ledgerSum (es : Run s₁ s₂) (h : s₁.Initial)
    (hb : ∀ u, s₁.balance u = ledgerSum u s₁.ledger) (hk : es.All Step.Kept) :
    (∀ u, s₂.balance u + s₂.outstanding u = ledgerSum u s₂.ledger) ∧ es.All Step.Guarded := by
  have h₁ : Balanced s₁ := {
    invariant  := h.invariant
    kept       := h.kept
    balanced u := by rw [h.outstanding_eq_zero, add_zero, hb] }
  constructor
  case left =>
    have h₂ : Balanced s₂ := es.invariant_of_all (fun e => e.preserves_balanced) h₁ hk
    exact h₂.balanced
  case right =>
    exact es.all_of_invariant (fun e => e.preserves_balanced)
      (fun e h _ => e.guarded h.invariant) h₁ hk

-- A new user holds $0.25, tops up by $5 meanwhile, and is charged $0.125.
theorem balance_add_outstanding_of_topup :
    ∃ (s₁ s₂ : State), Nonempty (Run s₁ s₂) ∧
      s₂.balance 1 + s₂.outstanding 1 = ledgerSum 1 s₂.ledger ∧ s₂.balance 1 = 47/8 := by
  let s := State.initial (fun _ => none) []
  let es : Run s _ :=
    .step (.signup 1 rfl rfl) <|
    .step (.hold 7 1 (1/4) ⟨3/4, none, none, none⟩ rfl rfl (by decide +kernel)) <|
    .step (.set 7 ⟨1, 1/4, none⟩ true rfl) <|
    .step (.commitHold 7 _ _ rfl rfl) <|
    .step (.tick 3) <|
    .step (.topup 8 1 5 "pi_1" ⟨3/4, none, none, none⟩ _ _ rfl rfl rfl rfl) <|
    .step (.get 7 _ (.settle (1/8) (some 9)) true rfl) <|
    .step (.commitTopup 8 _ 1 5 _ _ rfl rfl) <|
    .step (.select 7 _ _ _ _ _ rfl nofun rfl rfl) <|
    .step (.delete 7 _ _ _ _ true rfl) <|
    .step (.commit 7 _ _ _ _ _ rfl rfl) .refl
  have hx : ∀ key, some (holdKey 1 (1/4) 0) = some key → 3 < key.expires := by
    intro key h
    cases h
    decide
  have hk : es.All Step.Kept :=
    ⟨trivial, trivial, rfl, trivial, trivial, trivial, ⟨rfl, hx⟩, trivial, trivial, rfl, trivial,
      trivial⟩
  have hs := balance_add_outstanding_eq_ledgerSum es State.initial_isInitial (fun _ => rfl) hk
  exact ⟨s, _, ⟨es⟩, hs.left 1, by decide +kernel⟩

end Credit
