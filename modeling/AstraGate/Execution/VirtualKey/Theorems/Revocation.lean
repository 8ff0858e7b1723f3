import AstraGate.Execution.VirtualKey.Theorems.Authentication

open Function

namespace VirtualKeyAuth

variable {hashKey : String → String} {s s' s₁ s₂ s₃ : State} {undecided : Set TaskId}
  {token : String}

-- A call is refused as one without a key.
def Refused (v : Except HTTPException VirtualKey) : Prop :=
  ∃ e, v = .error e ∧ e.statusCode = 401

theorem refused_checkRow {row : Option VirtualKey} (h : Revoked row) : Refused (checkRow row) := by
  obtain ⟨key, rfl, ha⟩ := h
  exact ⟨revokedKey, if_neg (by simp [ha]), rfl⟩

-- The token is revoked, and the calls with it have been refused, if they are decided by now.
def State.Shut (hashKey : String → String) (undecided : Set TaskId) (token : String) (s : State) :
    Prop :=
  Revoked (s.keys.rows <| hashKey token) ∧ ∀ t ∈ undecided, ∀ authorization v,
    (s.tasks t).verdict = some (authorization, v) → Bears authorization token → Refused v

theorem Step.preserves_shut (e : Step hashKey s s') (h : s.Invariant hashKey)
    (hs : s.Shut hashKey undecided token) : s'.Shut hashKey undecided token := by
  refine ⟨e.revoked h hs.left, fun t ht authorization v hv hb => ?_⟩
  cases e.verdict_eq h t
  case inl he => exact hs.right t ht authorization v (he ▸ hv) hb
  case inr he =>
    obtain ⟨-, a, ha⟩ := he
    obtain ⟨rfl, rfl⟩ := Prod.mk.inj (Option.some.inj (hv.symm.trans ha))
    rw [plainCheck_of_ok (bearerToken_eq_ok_iff.mpr hb)]
    exact refused_checkRow hs.left

-- Once a key is revoked, it is for ever, and every call with it that is not decided by then is
-- refused, no matter what it has found in the cache and what is cached afterwards.
theorem revoked_forever (es₁ : Run hashKey s₁ s₂) (es₂ : Run hashKey s₂ s₃) (token : String)
    (h : s₁.Initial) (hr : Revoked (s₂.keys.rows <| hashKey token)) :
    Revoked (s₃.keys.rows <| hashKey token) ∧ ∀ t authorization v,
      (s₂.tasks t).verdict = none → (s₃.tasks t).verdict = some (authorization, v) →
        Bears authorization token → ∃ e, v = .error e ∧ e.statusCode = 401 := by
  have hi : s₂.Invariant hashKey := es₁.invariant (fun e => e.preserves_invariant) h.invariant
  let undecided : Set TaskId := { t | (s₂.tasks t).verdict = none }
  have h₂ : s₂.Shut hashKey undecided token :=
    ⟨hr, fun t ht authorization v hv => nomatch (show _ = none from ht).symm.trans hv⟩
  have h₃ : s₃.Invariant hashKey ∧ s₃.Shut hashKey undecided token := by
    refine es₂.invariant (I := fun s => s.Invariant hashKey ∧ s.Shut hashKey undecided token) ?_
      ⟨hi, h₂⟩
    exact fun e h => ⟨e.preserves_invariant h.left, e.preserves_shut h.left h.right⟩
  exact ⟨h₃.right.left, fun t _ _ ht hv hb => h₃.right.right t ht _ _ hv hb⟩

-- A call caches the key after it has been revoked, and another one finds it there.
theorem revoked_forever_of_stale :
    ∃ (key : VirtualKey) (s₁ s₂ s₃ : State) (_ : Run id s₁ s₂) (_ : Run id s₂ s₃),
      s₁.keys.rows "x" = some key ∧ key.isActive ∧
      (s₃.cache "vk:x").map CachedKey.isActive = some true ∧
      ∃ v, (s₃.tasks 3).verdict = some (some "Bearer x", v) ∧
        ∃ e, v = .error e ∧ e.statusCode = 401 := by
  let key : VirtualKey := ⟨7, 1, "Default Key", none, "x", "x", true, none, none, 0, 0, none⟩
  let s₁ : State := {
    keys  := { rows := fun h => if h = "x" then some key else none, pending := fun _ => none }
    cache := fun _ => none
    tasks := fun _ => .fresh }
  have header : bearerToken (some "Bearer x") = .ok "x" := by rfl
  let s₂ := s₁.setTask 1 (.uncached (some "Bearer x") "x")
    |>.lookup 1 (some "Bearer x") "x"
    |>.setTask 2 (.loaded key)
    |>.flush 2 key key 0
    |>.invalidate 2 key
    |>.commit 2 "x" (some <| key.revoke 0)
  let es₁ : Run id s₁ s₂ :=
    .step (.miss 1 (some "Bearer x") "x" rfl header) <|
    .step (.lookup 1 (some "Bearer x") "x" rfl) <|
    .step (.load 2 key rfl rfl rfl) <|
    .step (.flush 2 key key 0 rfl rfl rfl) <|
    .step (.invalidate 2 key rfl) <|
    .step (.commit 2 "x" (some <| key.revoke 0) rfl rfl) .refl
  let es₂ : Run id s₂ _ :=
    .step (.store 1 (some "Bearer x") "x" key rfl) <|
    .step (.hit 3 (some "Bearer x") "x" (keyCacheData key) rfl header rfl) <|
    .step (.recheck 3 (some "Bearer x") "x" rfl) .refl
  have hr := revoked_forever es₁ es₂ "x" ⟨fun _ => rfl, fun _ => rfl, fun _ => rfl⟩ ⟨_, rfl, rfl⟩
  exact ⟨key, s₁, s₂, _, es₁, es₂, rfl, rfl, rfl, _, rfl,
    hr.right 3 _ _ rfl rfl (bearerToken_eq_ok_iff.mp header)⟩

end VirtualKeyAuth
