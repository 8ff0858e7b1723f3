import AstraGate.Execution.VirtualKey.Step

open Function

namespace VirtualKeyAuth

variable {hashKey : String → String} {s s' s₁ s₂ : State} {keyHash : String}

-- A key that has been revoked, and will never be active again.
def Revoked (row : Option VirtualKey) : Prop :=
  ∃ key, row = some key ∧ key.isActive = false

-- What is known to be inactive, by the cache or by a call that is about to fill it, is revoked.
structure State.Invariant (hashKey : String → String) (s : State) : Prop where
  hashed  : ∀ t authorization keyHash,
    s.tasks t = .cached authorization keyHash ∨ s.tasks t = .uncached authorization keyHash →
      ∃ token, bearerToken authorization = .ok token ∧ keyHash = hashKey token
  cached  : ∀ keyHash entry, s.cache (VirtualKey.cacheKey keyHash) = some entry →
    entry.isActive = false → Revoked (s.keys.rows keyHash)
  caching : ∀ t authorization keyHash key, s.tasks t = .caching authorization keyHash key →
    key.isActive = false → Revoked (s.keys.rows keyHash)
  pending : s.keys.Coherent fun _ _ old new => Revoked old → Revoked new

theorem State.Initial.invariant (h : s.Initial) : s.Invariant hashKey where
  hashed t a k ht      := by simp [h.fresh t] at ht
  cached k e he        := by simp [h.empty] at he
  caching t a k key ht := by simp [h.fresh t] at ht
  pending              := .of_quiet h.quiet

-- How far a step takes the task that it is a step of.
inductive Task.Advance (hashKey : String → String) (s : State) : Task → Task → Prop
  | reject (header : bearerToken a = .error e) : Advance hashKey s .fresh (.decided a (.error e))
  | revoked (header : bearerToken a = .ok token)
    (cached : s.cache (VirtualKey.cacheKey <| hashKey token) = some entry)
    (inactive : entry.isActive = false) : Advance hashKey s .fresh (.decided a (.error revokedKey))
  | cached (header : bearerToken a = .ok token) :
    Advance hashKey s .fresh (.cached a (hashKey token))
  | uncached (header : bearerToken a = .ok token) :
    Advance hashKey s .fresh (.uncached a (hashKey token))
  | recheck : Advance hashKey s (.cached a k) (.decided a (checkRow <| s.keys.rows k))
  | unknown (row : s.keys.rows k = none) :
    Advance hashKey s (.uncached a k) (.decided a (.error invalidKey))
  | read (row : s.keys.rows k = some key) : Advance hashKey s (.uncached a k) (.caching a k key)
  | store : Advance hashKey s (.caching a k key) (.decided a (checkActive key))
  | manage {k k' : Task} (old : ¬k.isCall) (new : ¬k'.isCall) : Advance hashKey s k k'

theorem Task.not_isCall_of_isOpen {k : Task} (h : k.isOpen) : ¬k.isCall := by
  cases k <;> simp_all [isCall, isOpen]

theorem Task.isOpen_of_isComplete {k : Task} (h : k.isComplete) : k.isOpen := by
  cases k <;> simp_all [isOpen, isComplete]

namespace Step

theorem advance (e : Step hashKey s s') :
    ∀ t, s'.tasks t = s.tasks t ∨ (s.tasks t).Advance hashKey s (s'.tasks t) := by
  have upd : ∀ {t k}, (s.tasks t).Advance hashKey s k →
      ∀ t', update s.tasks t k t' = s.tasks t' ∨
        (s.tasks t').Advance hashKey s (update s.tasks t k t') := by
    intro t k h t'
    by_cases ht : t' = t
    case pos => subst ht; exact .inr (by rwa [update_self])
    case neg => exact .inl (update_of_ne ht ..)
  cases e
  case reject task header          => exact upd (task ▸ .reject header)
  case hit entry task header cached =>
    cases ha : entry.isActive
    case true  => simpa [State.hit, ha] using upd (task ▸ .cached header)
    case false => simpa [State.hit, ha] using upd (task ▸ .revoked header cached ha)
  case miss task header            => exact upd (task ▸ .uncached header)
  case recheck task                => exact upd (task ▸ .recheck)
  case lookup keyHash task =>
    cases hr : s.keys.rows keyHash
    case none => simpa [State.lookup, hr] using upd (task ▸ .unknown hr)
    case some => simpa [State.lookup, hr] using upd (task ▸ .read hr)
  case store task                  => exact upd (task ▸ .store)
  case failStore task              => exact upd (task ▸ .store)
  case expire                      => exact fun _ => .inl rfl
  case count task _                => exact upd (task ▸ .manage nofun nofun)
  case insert task _ _             => exact upd (task ▸ .manage nofun nofun)
  case load task _ _               => exact upd (task ▸ .manage nofun nofun)
  case flush task _ _              => exact upd (task ▸ .manage nofun nofun)
  case invalidate task             => exact upd (task ▸ .manage nofun nofun)
  case failInvalidate task         => exact upd (task ▸ .manage nofun nofun)
  case commit task _ =>
    exact upd (.manage (Task.not_isCall_of_isOpen <| Task.isOpen_of_isComplete task) nofun)
  case rollback task _             => exact upd (.manage (Task.not_isCall_of_isOpen task) nofun)
  case use                         => exact fun _ => .inl rfl

-- A key that has been revoked stays so.
theorem revoked (e : Step hashKey s s') (h : s.Invariant hashKey)
    (hr : Revoked (s.keys.rows keyHash)) :
    Revoked (s'.keys.rows keyHash) := by
  cases e
  case commit keyHash' row _ hp =>
    by_cases hk : keyHash = keyHash'
    case pos => subst hk; simpa [State.commit] using h.pending hp hr
    case neg => simpa [State.commit, hk] using hr
  case use keyHash' row _ _ _ _ hc =>
    by_cases hk : keyHash = keyHash'
    case pos =>
      subst hk
      have ⟨key, hk, ha⟩ := hr
      cases hc.symm.trans hk
      exact ⟨_, update_self .., ha⟩
    case neg => simpa [hk] using hr
  all_goals exact hr

-- An entry of the cache has been there before, or is what a call has read.
theorem cache_cases (e : Step hashKey s s')
    (h : s'.cache (VirtualKey.cacheKey keyHash) = some entry) :
    s.cache (VirtualKey.cacheKey keyHash) = some entry ∨
      ∃ t a key, s.tasks t = .caching a keyHash key ∧ entry = keyCacheData key := by
  have gone : ∀ {k}, update s.cache (VirtualKey.cacheKey k) none (VirtualKey.cacheKey keyHash) =
      some entry → s.cache (VirtualKey.cacheKey keyHash) = some entry := by
    intro k h
    by_cases hk : VirtualKey.cacheKey keyHash = VirtualKey.cacheKey k
    case pos => rw [hk, update_self] at h; contradiction
    case neg => rwa [update_of_ne hk] at h
  cases e
  case store t a keyHash' key task =>
    by_cases hk : keyHash = keyHash'
    case pos =>
      subst hk
      simp only [State.store, State.setTask_cache, State.setCache_cache, update_self,
        Option.some.injEq] at h
      exact .inr ⟨t, a, key, task, h.symm⟩
    case neg =>
      rw [State.store, State.setTask_cache, State.setCache_cache,
        update_of_ne (VirtualKey.cacheKey_inj.not.mpr hk)] at h
      exact .inl h
  case expire     => exact .inl (gone h)
  case invalidate => exact .inl (gone h)
  all_goals exact .inl h

theorem preserves_pending (e : Step hashKey s s') (h : s.Invariant hashKey) :
    s'.keys.Coherent fun _ _ old new => Revoked old → Revoked new := by
  cases e
  case insert c _ _ hu => exact h.pending.lock fun ⟨_, hr, _⟩ => nomatch hu.symm.trans hr
  case flush           => exact h.pending.lock fun _ => ⟨_, rfl, rfl⟩
  case commit          => exact h.pending.commit
  case rollback        => exact h.pending.rollback
  case use             => exact h.pending.commit
  all_goals exact h.pending

theorem preserves_invariant (e : Step hashKey s s') (h : s.Invariant hashKey) :
    s'.Invariant hashKey where
  pending := e.preserves_pending h
  cached  := by
    intro keyHash entry hc ha
    cases e.cache_cases hc
    case inl hc => exact e.revoked h (h.cached _ _ hc ha)
    case inr hc =>
      obtain ⟨t, a, key, ht, rfl⟩ := hc
      exact e.revoked h (h.caching _ _ _ _ ht ha)
  caching := by
    intro t a keyHash key ht ha
    cases e.advance t
    case inl he => exact e.revoked h (h.caching _ _ _ _ (he ▸ ht) ha)
    case inr he =>
      rw [ht] at he
      generalize s.tasks t = k at he
      cases he
      case read row     => exact e.revoked h ⟨key, row, ha⟩
      case manage _ new => exact absurd rfl new
  hashed  := by
    intro t a keyHash ht
    cases e.advance t
    case inl he => exact h.hashed _ _ _ (he ▸ ht)
    case inr he =>
      generalize s.tasks t = k at he
      cases ht
      case inl ht =>
        rw [ht] at he
        cases he
        case cached token header => exact ⟨token, header, rfl⟩
        case manage _ new        => exact absurd rfl new
      case inr ht =>
        rw [ht] at he
        cases he
        case uncached token header => exact ⟨token, header, rfl⟩
        case manage _ new          => exact absurd rfl new

-- A step settles the outcome of a call as the check of the database alone would come out now, or
-- does not touch it.
theorem verdict_eq (e : Step hashKey s s') (h : s.Invariant hashKey) (t : TaskId) :
    (s'.tasks t).verdict = (s.tasks t).verdict ∨ (s.tasks t).verdict = none ∧
      ∃ a, (s'.tasks t).verdict = some (a, plainCheck hashKey s.keys.rows a) := by
  have settled : ∀ {a v}, plainCheck hashKey s.keys.rows a = v →
      ∃ a', some (a, v) = some (a', plainCheck hashKey s.keys.rows a') := fun h => ⟨_, by rw [h]⟩
  cases e.advance t
  case inl he => exact .inl (congrArg Task.verdict he)
  case inr he =>
    generalize ht : s.tasks t = k at he
    generalize s'.tasks t = k' at he
    cases he
    case reject header => exact .inr ⟨rfl, settled (plainCheck_of_error header)⟩
    case revoked header cached inactive =>
      have ⟨key, hr, ha⟩ := h.cached _ _ cached inactive
      have hc : checkRow (some key) = .error revokedKey := if_neg (by simp [ha])
      exact .inr ⟨rfl, settled <| by rw [plainCheck_of_ok header, hr, hc]⟩
    case cached   => exact .inl rfl
    case uncached => exact .inl rfl
    case recheck =>
      have ⟨token, header, hk⟩ := h.hashed _ _ _ (.inl ht)
      exact .inr ⟨rfl, settled <| by rw [plainCheck_of_ok header, hk]⟩
    case unknown row =>
      have ⟨token, header, hk⟩ := h.hashed _ _ _ (.inr ht)
      exact .inr ⟨rfl, settled <| by rw [plainCheck_of_ok header, ← hk, row]; rfl⟩
    case read row =>
      have ⟨token, header, hk⟩ := h.hashed _ _ _ (.inr ht)
      exact .inr ⟨rfl, settled <| by rw [plainCheck_of_ok header, ← hk, row]; rfl⟩
    case store => exact .inl rfl
    case manage old new =>
      left
      cases k <;> cases k' <;> simp_all [Task.isCall, Task.verdict]

-- The step that settles the outcome of a call returns the key exactly if the header bears a token
-- whose row is active now, and raises an exception with status 401 otherwise. No later step changes
-- the outcome.
def Decides (_ : Step hashKey s s') : Prop :=
  ∀ t, (s'.tasks t).verdict = (s.tasks t).verdict ∨ (s.tasks t).verdict = none ∧
    ∃ a v, (s'.tasks t).verdict = some (a, v) ∧
      (∀ key, v = .ok key ↔
        ∃ token, Bears a token ∧ s.keys.rows (hashKey token) = some key ∧ key.isActive) ∧
      ∀ e, v = .error e → e.statusCode = 401

theorem decides (e : Step hashKey s s') (h : s.Invariant hashKey) : e.Decides :=
  fun t => (e.verdict_eq h t).imp_right fun ⟨hn, a, hv⟩ =>
    ⟨hn, a, _, hv, fun _ => plainCheck_eq_ok_iff, fun _ => plainCheck_error⟩

end Step

-- Whatever the cache contains, and whatever is created and revoked meanwhile, the calls decide as
-- if there was no cache.
theorem requireVirtualKey_decides (es : Run hashKey s₁ s₂) (h : s₁.Initial) : es.All Step.Decides :=
  es.all_of_preserved (fun e => e.preserves_invariant) (fun e => e.decides) h.invariant

-- A call that caches a key, and one that finds it in the cache while it is being revoked.
theorem requireVirtualKey_decides_of_stale :
    ∃ (key : VirtualKey) (s₁ s₂ : State) (es : Run id s₁ s₂),
    (s₂.tasks 1).verdict = some (some "Bearer x", .ok key) ∧
      (s₂.tasks 3).verdict = some (some "Bearer x", .error revokedKey) ∧ es.All Step.Decides := by
  let key : VirtualKey := ⟨7, 1, "Default Key", none, "x", "x", true, none, none, 0, 0, none⟩
  let s₁ : State := {
    keys  := { rows := fun h => if h = "x" then some key else none, pending := fun _ => none }
    cache := fun _ => none
    tasks := fun _ => .fresh }
  have header : bearerToken (some "Bearer x") = .ok "x" := by rfl
  let es : Run id s₁ _ :=
    .step (.miss 1 (some "Bearer x") "x" rfl header) <|
    .step (.lookup 1 (some "Bearer x") "x" rfl) <|
    .step (.store 1 (some "Bearer x") "x" key rfl) <|
    .step (.load 2 key rfl rfl rfl) <|
    .step (.flush 2 key key 0 rfl rfl rfl) <|
    .step (.failInvalidate 2 key rfl) <|
    .step (.hit 3 (some "Bearer x") "x" (keyCacheData key) rfl header rfl) <|
    .step (.commit 2 "x" (some <| key.revoke 0) rfl rfl) <|
    .step (.recheck 3 (some "Bearer x") "x" rfl) .refl
  exact ⟨key, s₁, _, es, rfl, rfl,
    requireVirtualKey_decides es ⟨fun _ => rfl, fun _ => rfl, fun _ => rfl⟩⟩

end VirtualKeyAuth
