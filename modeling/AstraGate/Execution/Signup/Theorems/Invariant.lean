import AstraGate.Execution.Signup.Step

open Function

namespace Signup

open Auth

variable {str : UUID → String} {hashKey : String → String} {hashpw : String → String → String}
  {s s' : State} {rows rows' : String → Option UserRow} {k : Task} {email : String}
  {row : UserRow} {t : TaskId}

-- Users stay who they are, and linked to the provider that they are linked to.
def Keeps (rows rows' : String → Option UserRow) : Prop :=
  ∀ email row, rows email = some row →
    ∃ row', rows' email = some row' ∧ row'.identity = row.identity ∧
      (¬Unlinked row → row'.oauthProvider = row.oauthProvider)

namespace Keeps

theorem refl (rows : String → Option UserRow) : Keeps rows rows :=
  fun _ _ h => ⟨_, h, rfl, fun _ => rfl⟩

theorem trans (h : Keeps rows rows') (h' : Keeps rows' rows'') : Keeps rows rows'' := by
  intro email row hr
  have ⟨row', hr', hi, hp⟩ := h _ _ hr
  have ⟨row'', hr'', hi', hp'⟩ := h' _ _ hr'
  refine ⟨row'', hr'', hi'.trans hi, fun hu => ?_⟩
  have hu' : ¬Unlinked row' := by rwa [Unlinked, hp hu]
  exact (hp' hu').trans (hp hu)

theorem update (hr : rows email = some row) (hi : row'.identity = row.identity)
    (hp : ¬Unlinked row → row'.oauthProvider = row.oauthProvider) :
    Keeps rows (update rows email (some row')) := by
  intro email' row'' hr''
  by_cases he : email' = email
  case pos =>
    subst he
    cases hr.symm.trans hr''
    exact ⟨row', update_self .., hi, hp⟩
  case neg => exact ⟨row'', (update_of_ne he ..).trans hr'', rfl, fun _ => rfl⟩

theorem insert (hr : rows email = none) : Keeps rows (Function.update rows email new) := by
  intro email' row hr'
  have hn : email' ≠ email := fun he => nomatch (he ▸ hr).symm.trans hr'
  exact ⟨row, (update_of_ne hn ..).trans hr', rfl, fun _ => rfl⟩

end Keeps

namespace Task

-- The user that the open transaction of a call has inserted.
def user? : Task → Option UserRow
  | inserted user | credited user | keyed user .. => some user
  | _ => none

-- What the open transaction of a call has made of the row that it has locked.
def Writes : Task → String → Option UserRow → Option UserRow → Prop
  | inserted user, email, old, new | credited user, email, old, new
  | keyed user _ _, email, old, new => email = user.email ∧ old = none ∧ new = some user
  | linked user sub, email, old, new =>
    email = user.email ∧ ∃ row, old = some row ∧ new = some (link user sub row)
  | _, _, _, _ => False

-- What a call knows of the rows that are committed.
def Sound (rows : String → Option UserRow) : Task → Prop
  | missed n => ∀ id, Linkage (n.row id)
  | inserted user | credited user => user.isActive
  | keyed user key _ =>
    user.isActive ∧ key.userId = user.id ∧ key.name = "Default Key" ∧ key.isActive
  | found user _ | linked user _ =>
    user.oauthSub = none ∧ ∃ row, rows user.email = some row ∧ row.identity = user.identity
  | _ => True

theorem Writes.unique (h : k.Writes email old new) (h' : k.Writes email' old' new') :
    email = email' := by
  cases k <;> first | exact h.left.trans h'.left.symm | contradiction

theorem Writes.of_user? (h : k.Writes email old new) (hu : k.user? = some user) :
    email = user.email ∧ old = none ∧ new = some user := by
  cases k <;> cases hu <;> exact h

theorem Sound.keeps (h : k.Sound rows) (hk : Keeps rows rows') : k.Sound rows' := by
  cases k
  case found | linked =>
    have ⟨hs, row, hr, hi⟩ := h
    have ⟨row', hr', hi', _⟩ := hk _ _ hr
    exact ⟨hs, row', hr', hi'.trans hi⟩
  all_goals exact h

end Task

structure State.Invariant (s : State) : Prop where
  email    : ∀ {email row}, s.Version email row → row.email = email
  ids      : ∀ {e e' row row'}, s.Version e row → s.Version e' row' → row.id = row'.id → e = e'
  linkage  : ∀ {email row}, s.Version email row → Linkage row
  coherent : s.users.Coherent fun t => (s.tasks t).Writes
  locked   : ∀ {t user}, (s.tasks t).user? = some user →
    s.users.pending user.email = some (t, some user)
  sound    : ∀ t, (s.tasks t).Sound s.users.rows

namespace State

-- Every version of a row goes back to one that has been there before the step.
def Carries (s s' : State) : Prop :=
  ∀ {email row}, s'.Version email row →
    ∃ old, s.Version email old ∧ row.identity = old.identity ∧ (Linkage old → Linkage row)

theorem version_of_quiet (h : s.users.Quiet) (hv : s.Version email row) :
    s.users.rows email = some row := by
  obtain hv | ⟨t, hv⟩ := hv
  · exact hv
  · exact nomatch (h email).symm.trans hv

theorem Initial.invariant (h : s.Initial) : s.Invariant where
  email hv      := h.email (version_of_quiet h.quiet hv)
  ids hv hv'    := h.ids (version_of_quiet h.quiet hv) (version_of_quiet h.quiet hv')
  linkage hv    := h.linkage (version_of_quiet h.quiet hv)
  coherent      := .of_quiet h.quiet
  locked hu     := by rw [h.fresh] at hu; contradiction
  sound t       := by simp [h.fresh t, Task.Sound]

theorem Invariant.writes (h : s.Invariant) (ht : s.tasks t = k)
    (hp : s.users.pending email = some (t, new)) : k.Writes email (s.users.rows email) new :=
  ht ▸ h.coherent hp

theorem Carries.of_eq (h : s'.users = s.users) : Carries s s' := by
  intro email row hv
  rw [Version, h] at hv
  exact ⟨row, hv, rfl, id⟩

theorem Invariant.locked_of_update (h : s.Invariant) (ht : s'.tasks = update s.tasks t k)
    (hu : (s'.tasks t').user? = some user)
    (hk : k.user? = some user → (s.tasks t).user? = some user) :
    s.users.pending user.email = some (t', some user) := by
  rw [ht] at hu
  by_cases he : t' = t
  case pos => subst he; exact h.locked (hk <| by rwa [update_self] at hu)
  case neg => exact h.locked (by rwa [update_of_ne he] at hu)

theorem Invariant.locked_of_unlock (h : s.Invariant)
    (hp : s.users.pending email = some (t, new))
    (hs : s'.users.pending = update s.users.pending email none)
    (ht : s'.tasks = update s.tasks t k) (hu : (s'.tasks t').user? = some user)
    (hk : k.user? = none) : s'.users.pending user.email = some (t', some user) := by
  by_cases he : t' = t
  case pos =>
    subst he
    rw [ht, update_self, hk] at hu
    contradiction
  case neg =>
    have hl := h.locked_of_update ht hu (fun hk' => nomatch hk.symm.trans hk')
    have hn : user.email ≠ email := by
      intro hn
      rw [hn, hp, Option.some.injEq, Prod.mk.injEq] at hl
      exact he hl.left.symm
    rw [hs, update_of_ne hn, hl]

-- A flush adds one version.
theorem version_flush (hv : (s.flush t email row k).Version email' row') :
    s.Version email' row' ∨ email' = email ∧ row' = row := by
  obtain hv | ⟨t', hv⟩ := hv
  · exact .inl (.inl hv)
  · obtain ⟨rfl, -, hv⟩ | ⟨-, hv⟩ := Table.pending_lock_cases hv
    · exact .inr ⟨rfl, Option.some.inj hv⟩
    · exact .inl (.inr ⟨t', hv⟩)

theorem carries_rollback : Carries s (s.rollback t email k) := by
  intro email' row hv
  obtain hv | ⟨t', hv⟩ := hv
  · exact ⟨row, .inl hv, rfl, id⟩
  · exact ⟨row, .inr ⟨t', Table.pending_of_rollback hv⟩, rfl, id⟩

-- A commit adds the version that it commits.
theorem version_commit {users : Table String TaskId (Option UserRow)} {new : Option UserRow}
    (hu : s'.users = users.commit email new) (hs : s.users = users)
    (hv : s'.Version email' row') : s.Version email' row' ∨ email' = email ∧ new = some row' := by
  rw [Version, hu] at hv
  rw [Version, hs]
  by_cases he : email' = email
  case pos =>
    subst he
    exact .inr (by simpa using hv)
  case neg => exact .inl (by simpa [he] using hv)

theorem carries_commit (hu : s'.users = s.users.commit email new)
    (hn : ∀ row ∈ new, ∃ old, s.Version email old ∧ row.identity = old.identity ∧
      (Linkage old → Linkage row)) : Carries s s' := by
  intro email' row hv
  obtain hv | ⟨rfl, hv⟩ := version_commit hu rfl hv
  · exact ⟨row, hv, rfl, id⟩
  · exact hn row hv

-- What a transaction publishes has been a version already.
theorem carries_commit_pending (hu : s'.users = s.users.commit email new)
    (hp : s.users.pending email = some (t, new)) : Carries s s' :=
  carries_commit hu fun row hr => ⟨row, .inr ⟨t, hr ▸ hp⟩, rfl, id⟩

end State

open State

namespace Step

-- A step inserts a user with a new id, or it carries every version.
theorem carries_or_insert (e : Step str hashKey hashpw s s') :
    Carries s s' ∨ ∃ t n id, s.tasks t = .missed n ∧ s.New id ∧
      s' = s.flush t n.email (n.row id) (.inserted (n.row id)) := by
  cases e
  case insert t n id task free unique new => exact .inr ⟨t, n, id, task, new, rfl⟩
  case flushLink t user sub row task free committed =>
    refine .inl fun hv => ?_
    obtain hv | ⟨rfl, rfl⟩ := version_flush hv
    · exact ⟨_, hv, rfl, id⟩
    · exact ⟨row, .inl committed, rfl, fun _ => linkage_link⟩
  case commitLink pending => exact .inl (carries_commit_pending rfl pending)
  case commit pending     => exact .inl (carries_commit_pending rfl pending)
  case count email row failedLoginAttempts lockedUntil free committed =>
    refine .inl <| carries_commit rfl fun row' hr => ?_
    cases hr
    exact ⟨row, .inl committed, rfl, fun h => ⟨h.unlinked, h.linked⟩⟩
  case bar | refuse | abort => exact .inl carries_rollback
  all_goals exact .inl (Carries.of_eq rfl)

theorem preserves_email (e : Step str hashKey hashpw s s') (h : s.Invariant)
    (hv : s'.Version email row) : row.email = email := by
  obtain hc | ⟨t, n, id, task, new, rfl⟩ := e.carries_or_insert
  · have ⟨old, ho, hi, _⟩ := hc hv
    exact (congrArg (·.email) hi : row.email = old.email).trans (h.email ho)
  · obtain hv | ⟨rfl, rfl⟩ := version_flush hv
    · exact h.email hv
    · rfl

theorem preserves_linkage (e : Step str hashKey hashpw s s') (h : s.Invariant)
    (hv : s'.Version email row) : Linkage row := by
  obtain hc | ⟨t, n, id, task, new, rfl⟩ := e.carries_or_insert
  · have ⟨old, ho, _, hl⟩ := hc hv
    exact hl (h.linkage ho)
  · obtain hv | ⟨rfl, rfl⟩ := version_flush hv
    · exact h.linkage hv
    · exact (task ▸ h.sound t : (Task.missed n).Sound s.users.rows) id

theorem preserves_ids (e : Step str hashKey hashpw s s') (h : s.Invariant) {row' : UserRow}
    (hv : s'.Version email row) (hv' : s'.Version email' row') (hi : row.id = row'.id) :
    email = email' := by
  obtain hc | ⟨t, n, id, task, new, rfl⟩ := e.carries_or_insert
  · have ⟨old, ho, he, _⟩ := hc hv
    have ⟨old', ho', he', _⟩ := hc hv'
    have hr : row.id = old.id := congrArg (·.id) he
    have hr' : row'.id = old'.id := congrArg (·.id) he'
    exact h.ids ho ho' (hr.symm.trans <| hi.trans hr')
  · obtain hv | ⟨rfl, rfl⟩ := version_flush hv <;> obtain hv' | ⟨rfl, rfl⟩ := version_flush hv'
    · exact h.ids hv hv' hi
    · exact absurd hi (new _ _ hv)
    · exact absurd hi.symm (new _ _ hv')
    · rfl

theorem keeps (e : Step str hashKey hashpw s s') (h : s.Invariant) :
    Keeps s.users.rows s'.users.rows := by
  cases e
  case commitLink t user sub row task active pending =>
    obtain ⟨-, old, ho, rfl⟩ := h.writes task pending
    exact Keeps.update ho rfl fun hu => ((h.linkage (.inl ho)).linked hu).symm
  case commit t user key plaintext row task pending =>
    obtain ⟨-, ho, -⟩ := h.writes task pending
    exact Keeps.insert ho
  case count committed => exact Keeps.update committed rfl fun _ => rfl
  all_goals exact Keeps.refl _

theorem preserves_coherent (e : Step str hashKey hashpw s s') (h : s.Invariant) :
    s'.users.Coherent fun t => (s'.tasks t).Writes := by
  have hc := h.coherent
  cases e
  case reject task _           => exact hc.setTask (by simp [task, Task.Writes])
  case conflict task _         => exact hc.setTask (by simp [task, Task.Writes])
  case signIn task _ _ _       => exact hc.setTask (by simp [task, Task.Writes])
  case load task _ _ _         => exact hc.setTask (by simp [task, Task.Writes])
  case flushLink task _ committed =>
    exact hc.lockTask (by simp [task, Task.Writes]) ⟨rfl, _, committed, rfl⟩
  case bar pending             => exact hc.rollbackTask (fun hw => hw.unique (hc pending))
  case commitLink pending      => exact hc.commitTask (fun hw => hw.unique (hc pending))
  case miss task _             => exact hc.setTask (by simp [task, Task.Writes])
  case insert task _ unique _  =>
    exact hc.lockTask (by simp [task, Task.Writes]) ⟨rfl, unique, rfl⟩
  case duplicate task _ _      => exact hc.setTask (by simp [task, Task.Writes])
  case credit task             => exact hc.setTask (by simp [task, Task.Writes])
  case mint task _             => exact hc.setTask (by simp [task, Task.Writes])
  case refuse user _ _ _ task _ =>
    exact hc.rollbackTask (fun hw => (hw.of_user? (by rw [task]; rfl)).left)
  case commit pending          => exact hc.commitTask (fun hw => hw.unique (hc pending))
  case abort pending           => exact hc.rollbackTask (fun hw => hw.unique (hc pending))
  case count                   => exact hc.commit
  case elsewhere               => exact hc

-- The locks that stay in force are those of the other calls, and that of the call itself until it
-- has ended.
theorem preserves_locked (e : Step str hashKey hashpw s s') (h : s.Invariant)
    (hu : (s'.tasks t).user? = some user) :
    s'.users.pending user.email = some (t, some user) := by
  cases e
  case reject | conflict | signIn | load | miss | duplicate =>
    exact h.locked_of_update rfl hu nofun
  case credit task => exact h.locked_of_update rfl hu fun hk => by rw [task]; exact hk
  case mint task _ => exact h.locked_of_update rfl hu fun hk => by rw [task]; exact hk
  case flushLink t' user' sub row task free committed =>
    exact Table.pending_lock_of_free (h.locked_of_update rfl hu nofun) free
  case insert t' n id task free unique new =>
    by_cases ht : t = t'
    case pos =>
      subst ht
      cases (congrArg Task.user? (update_self ..)).symm.trans hu
      exact update_self ..
    case neg =>
      exact Table.pending_lock_of_free (h.locked (by simpa [flush, setTask, ht] using hu)) free
  case bar pending        => exact h.locked_of_unlock pending rfl rfl hu rfl
  case commitLink pending => exact h.locked_of_unlock pending rfl rfl hu rfl
  case refuse t' user' _ _ _ task _ =>
    exact h.locked_of_unlock (h.locked (by rw [task]; rfl)) rfl rfl hu rfl
  case commit pending     => exact h.locked_of_unlock pending rfl rfl hu rfl
  case abort pending      => exact h.locked_of_unlock pending rfl rfl hu rfl
  case count email row _ _ free _ =>
    have hp := h.locked hu
    have he : user.email ≠ email := fun he => nomatch (he ▸ free).symm.trans hp
    exact (update_of_ne he ..).trans hp
  case elsewhere          => exact h.locked hu

theorem preserves_sound (e : Step str hashKey hashpw s s') (h : s.Invariant) (t : TaskId) :
    (s'.tasks t).Sound s'.users.rows := by
  have hk : ∀ t, (s.tasks t).Sound s'.users.rows := fun t => (h.sound t).keeps (e.keeps h)
  have upd : ∀ {t' k}, k.Sound s'.users.rows → (update s.tasks t' k t).Sound s'.users.rows := by
    intro t' k hs
    by_cases ht : t = t'
    case pos => subst ht; rwa [update_self]
    case neg => rw [update_of_ne ht]; exact hk t
  cases e
  case load row task valid taken unlinked =>
    have he := h.email (.inl taken)
    exact upd ⟨(h.linkage (.inl taken)).unlinked unlinked, row, he ▸ taken, rfl⟩
  case flushLink t' user sub row task free committed =>
    exact upd (task ▸ hk t' : (Task.found user sub).Sound s.users.rows)
  case miss t' r task absent =>
    refine upd fun id => ?_
    cases r
    case register => exact linkage_register
    case google   => exact linkage_google
  case insert         => exact upd rfl
  case credit t' user task =>
    exact upd (task ▸ h.sound t' : (Task.inserted user).Sound s.users.rows)
  case mint t' user id randomPart key task ok =>
    cases VirtualKey.eq_of_createVirtualKey ok
    exact upd ⟨(task ▸ h.sound t' : (Task.credited user).Sound s.users.rows), rfl, rfl, rfl⟩
  case count     => exact hk t
  case elsewhere => exact hk t
  all_goals exact upd trivial

theorem preserves_invariant (e : Step str hashKey hashpw s s') (h : s.Invariant) :
    s'.Invariant where
  email    := e.preserves_email h
  ids      := e.preserves_ids h
  linkage  := e.preserves_linkage h
  coherent := e.preserves_coherent h
  locked   := e.preserves_locked h
  sound    := e.preserves_sound h

end Step
end Signup
