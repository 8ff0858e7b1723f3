import AstraGate.Execution.PostProcess.Theorems.Invariant
import AstraGate.Lib.Sql

open Function

namespace PostProcess

-- The counters of a key, given its usage records.
structure Counts (key : VirtualKey) (records : List UsageRecord) : Prop where
  requests : key.totalRequests = records.length
  tokens   : key.totalTokens = (records.map UsageRecord.totalTokens).sum

theorem Counts.bump {now : Time} (h : Counts key records) (ht : record.totalTokens = totalTokens) :
    Counts (bumpCounters now totalTokens key) (records ++ [record]) where
  requests := by simp [bumpCounters, h.requests]
  tokens   := by simp [bumpCounters, h.tokens, ht]

theorem Counts.apply {now : Time} (h : Counts key records) (change : KeyUpdate) :
    Counts (change.apply now key) records := by
  cases change <;> exact ⟨h.requests, h.tokens⟩

namespace Committed

variable (c : Committed)

def txsOf (record : UsageRecord) : List CreditTransaction :=
  Sql.referring CreditTransaction.usageRecordId record.id c.txs

def logsOf (record : UsageRecord) : List ProviderBalanceLog :=
  Sql.referring ProviderBalanceLog.usageRecordId record.id c.logs

def usageOf (keyId : UUID) : List UsageRecord :=
  c.usage.filter (·.virtualKeyId = keyId)

-- The constraints on the columns `usage_record_id`.
structure Referential : Prop where
  txs  : Sql.ForeignKey CreditTransaction.usageRecordId UsageRecord.id c.txs c.usage
  logs : Sql.ForeignKey ProviderBalanceLog.usageRecordId UsageRecord.id c.logs c.usage

-- The ledger of the customers, the ledger of the providers, and the counters of the keys agree with
-- the usage records.
structure Agree : Prop where
  free    : ∀ record ∈ c.usage, record.cacheHit →
    record.baseCostUsd = 0 ∧ record.billedAmountUsd = 0 ∧ c.txsOf record = [] ∧ c.logsOf record = []
  charged : ∀ record ∈ c.usage, ¬record.cacheHit →
    (∃ tx, c.txsOf record = [tx] ∧ Debits record tx) ∧
      ∃ log, c.logsOf record = [log] ∧ Deducts record log
  counted : ∀ keyId key, c.keys keyId = some key → Counts key (c.usageOf keyId)

end Committed

variable {s s' s₁ s₂ : State} {t : TaskId} {w : Work} {intOf : Json.IntOf} {users : Set UUID}

-- Nothing but a commit changes what the other transactions see.
theorem Step.committed_cases (e : Step intOf users s s') :
    s'.committed = s.committed ∨
      (∃ t w, s.tasks t = .working .bumped w ∧ s' = s.commit t [w.record] w.txs w.logs) ∨
      ∃ t, s.tasks t = .written ∧ s' = s.commit t [] [] [] := by
  cases e
  case commit t w task  => exact .inr <| .inl ⟨t, w, task, rfl⟩
  case commitKey t task => exact .inr <| .inr ⟨t, task, rfl⟩
  all_goals exact .inl rfl

theorem State.usageOf_commit_of_eq (txs : List CreditTransaction) (logs : List ProviderBalanceLog)
    (hr : record.virtualKeyId = keyId) :
    (s.commit t [record] txs logs).committed.usageOf keyId =
      s.committed.usageOf keyId ++ [record] := by
  simp [Committed.usageOf, State.committed, hr]

theorem State.usageOf_commit_of_ne (txs : List CreditTransaction) (logs : List ProviderBalanceLog)
    (hr : record.virtualKeyId ≠ keyId) :
    (s.commit t [record] txs logs).committed.usageOf keyId = s.committed.usageOf keyId := by
  simp [Committed.usageOf, State.committed, hr]

namespace State.Invariant

-- What a call has booked for its usage record when it commits.
theorem bumped (h : s.Invariant users) (ht : s.tasks t = .working .bumped w) :
    w.Settled ∧ w.Deducted :=
  (ht ▸ h.booked t : (Task.working .bumped w).Booked users).right

theorem txs_refer (h : s.Invariant users) (ht : s.tasks t = .working .bumped w) :
    ∀ tx ∈ w.txs, tx.usageRecordId = some w.record.id :=
  fun tx hm => ((h.bumped ht).left.forall_mem tx hm).refers

theorem logs_refer (h : s.Invariant users) (ht : s.tasks t = .working .bumped w) :
    ∀ log ∈ w.logs, log.usageRecordId = some w.record.id :=
  fun log hm => ((h.bumped ht).right.forall_mem log hm).refers

theorem new (h : s.Invariant users) (ht : s.tasks t = .working .bumped w) :
    ∀ record ∈ s.usage, record.id ≠ w.record.id :=
  h.numbered.committed (t := t) (by rw [ht]; rfl)

theorem commit_referential (h : s.Invariant users) (hr : s.committed.Referential)
    (ht : s.tasks t = .working .bumped w) :
    (s.commit t [w.record] w.txs w.logs).committed.Referential := by
  constructor
  case txs =>
    refine hr.txs.append (fun tx hm id hi => ⟨w.record, List.mem_singleton_self _, ?_⟩)
    exact Option.some.inj <| (h.txs_refer ht tx hm).symm.trans hi
  case logs =>
    refine hr.logs.append (fun log hm id hi => ⟨w.record, List.mem_singleton_self _, ?_⟩)
    exact Option.some.inj <| (h.logs_refer ht log hm).symm.trans hi

-- The rows that refer to a record that has been committed before are the same as before.
theorem commit_txsOf_of_mem (h : s.Invariant users) (ht : s.tasks t = .working .bumped w)
    (hm : record ∈ s.usage) :
    (s.commit t [w.record] w.txs w.logs).committed.txsOf record = s.committed.txsOf record :=
  Sql.referring_append_of_ne (h.txs_refer ht) (h.new ht record hm).symm

theorem commit_logsOf_of_mem (h : s.Invariant users) (ht : s.tasks t = .working .bumped w)
    (hm : record ∈ s.usage) :
    (s.commit t [w.record] w.txs w.logs).committed.logsOf record = s.committed.logsOf record :=
  Sql.referring_append_of_ne (h.logs_refer ht) (h.new ht record hm).symm

-- The rows that refer to the new record are those that the call has inserted.
theorem commit_txsOf (h : s.Invariant users) (hr : s.committed.Referential)
    (ht : s.tasks t = .working .bumped w) :
    (s.commit t [w.record] w.txs w.logs).committed.txsOf w.record = w.txs :=
  Sql.referring_append_of_new (hr.txs.ne_of_new <| h.new ht) (h.txs_refer ht)

theorem commit_logsOf (h : s.Invariant users) (hr : s.committed.Referential)
    (ht : s.tasks t = .working .bumped w) :
    (s.commit t [w.record] w.txs w.logs).committed.logsOf w.record = w.logs :=
  Sql.referring_append_of_new (hr.logs.ne_of_new <| h.new ht) (h.logs_refer ht)

-- The counters of the row that a call has locked include its request when it commits.
theorem commit_counts (h : s.Invariant users) (ha : s.committed.Agree)
    (ht : s.tasks t = .working .bumped w) (hk : (s.keys.commitBy t).rows keyId = some key) :
    Counts key ((s.commit t [w.record] w.txs w.logs).committed.usageOf keyId) := by
  have hw : ∀ {i new}, s.keys.pending i = some (t, new) →
      (Task.working .bumped w).Writes i (s.keys.rows i) new := fun hp => ht ▸ h.coherent hp
  by_cases hi : keyId = w.args.virtualKeyId
  case pos =>
    subst hi
    obtain ⟨row, hp⟩ := h.locked ht
    obtain ⟨-, old, now, ho, hn⟩ := hw hp
    have hc := (Table.rows_commitBy hp).trans hn
    cases hk.symm.trans hc
    rw [usageOf_commit_of_eq _ _ w.record_virtualKeyId]
    exact (ha.counted _ old ho).bump w.record_totalTokens
  case neg =>
    have hc := Table.rows_commitBy_of_ne (fun _ hp => hi (hw hp).left)
    have hr : w.record.virtualKeyId ≠ keyId := w.record_virtualKeyId ▸ Ne.symm hi
    rw [usageOf_commit_of_ne _ _ hr]
    exact ha.counted _ key (hc.symm.trans hk)

theorem commit_agree (h : s.Invariant users) (hr : s.committed.Referential)
    (ha : s.committed.Agree) (ht : s.tasks t = .working .bumped w) :
    (s.commit t [w.record] w.txs w.logs).committed.Agree := by
  obtain ⟨hs, hd⟩ := h.bumped ht
  constructor
  case free =>
    intro record hm hc
    cases List.mem_append.mp hm
    case inl hm =>
      rw [h.commit_txsOf_of_mem ht hm, h.commit_logsOf_of_mem ht hm]
      exact ha.free record hm hc
    case inr hm =>
      cases List.mem_singleton.mp hm
      rw [w.record_cacheHit] at hc
      rw [h.commit_txsOf hr ht, h.commit_logsOf hr ht, w.record_baseCostUsd,
        w.record_billedAmountUsd, (w.hit hc).left, (w.hit hc).right]
      exact ⟨Numeric.quantize_zero, Numeric.quantize_zero, (Work.books_iff_of_hit hc).mp hs,
        (Work.books_iff_of_hit hc).mp hd⟩
  case charged =>
    intro record hm hc
    cases List.mem_append.mp hm
    case inl hm =>
      rw [h.commit_txsOf_of_mem ht hm, h.commit_logsOf_of_mem ht hm]
      exact ha.charged record hm hc
    case inr hm =>
      cases List.mem_singleton.mp hm
      rw [w.record_cacheHit] at hc
      rw [h.commit_txsOf hr ht, h.commit_logsOf hr ht]
      exact ⟨(Work.books_iff_of_miss hc).mp hs, (Work.books_iff_of_miss hc).mp hd⟩
  case counted => exact fun _ _ hk => h.commit_counts ha ht hk

-- A revocation, or an update of `last_used_at`, keeps the counters.
theorem commitKey_agree (h : s.Invariant users) (ha : s.committed.Agree)
    (ht : s.tasks t = .written) : (s.commit t [] [] []).committed.Agree := by
  have hk : ∀ {keyId key}, (s.keys.commitBy t).rows keyId = some key →
      Counts key (s.committed.usageOf keyId) := by
    intro keyId key hk
    cases s.keys.rows_commitBy_cases t keyId
    case inl hc => exact ha.counted _ key (hc.symm.trans hk)
    case inr hp =>
      have hw : (s.tasks t).Writes keyId _ _ := h.coherent hp
      rw [ht, hk] at hw
      obtain ⟨old, change, now, ho, hn⟩ := hw
      cases hn
      exact (ha.counted _ old ho).apply change
  simp only [committed, State.commit, setTask, List.append_nil]
  exact ⟨ha.free, ha.charged, fun _ _ => hk⟩

end State.Invariant

-- The committed rows of the ledgers agree, and so do those that are to be committed.
structure State.Consistent (users : Set UUID) (s : State) : Prop extends s.Invariant users where
  referential : s.committed.Referential
  agree       : s.committed.Agree

theorem Step.preserves_consistent (e : Step intOf users s s') (h : s.Consistent users) :
    s'.Consistent users := by
  have hi := e.preserves_invariant h.toInvariant
  obtain hc | ⟨t, w, ht, rfl⟩ | ⟨t, ht, rfl⟩ := e.committed_cases
  case inl     => exact ⟨hi, hc ▸ h.referential, hc ▸ h.agree⟩
  case inr.inl =>
    exact ⟨hi, h.commit_referential h.referential ht, h.commit_agree h.referential h.agree ht⟩
  case inr.inr =>
    refine ⟨hi, ?_, h.commitKey_agree h.agree ht⟩
    simp only [State.committed, State.commit, State.setTask, List.append_nil]
    exact ⟨h.referential.txs, h.referential.logs⟩

-- Whatever calls are interleaved, and wherever they fail, the ledgers agree.
theorem ledgers_agree (es : Run intOf users s₁ s₂) (hi : s₁.Initial)
    (hu : ∀ u ∈ users, (s₁.accounts.rows u).isSome) (hr : s₁.committed.Referential)
    (ha : s₁.committed.Agree) : s₂.committed.Agree := by
  have h : s₂.Consistent users :=
    es.invariant (fun e => e.preserves_consistent) ⟨hi.invariant hu, hr, ha⟩
  exact h.agree

-- A response from the cache, and one that uses a thousand tokens, are charged to the same key at
-- the same time.
theorem ledgers_agree_of_two : ∃ (intOf : Json.IntOf) (s₁ s₂ : State) (_ : Run intOf {1} s₁ s₂),
    s₂.usage.map UsageRecord.cacheHit = [true, false] ∧ s₂.committed.Agree := by
  let s₁ := Sample.state (fun _ => none)
  let hit := Sample.args "a" 4 [("cache_hit", .bool true)]
  let miss := Sample.args "b" 5 [("usage", .dict [("prompt_tokens", .int 1000)])]
  have hb : bill Sample.intOf Sample.model (1 / 4) hit.litellmResponse =
      .ok ⟨⟨0, 0, 0⟩, true, 0, 0⟩ := rfl
  have mb : bill Sample.intOf Sample.model (1 / 4) miss.litellmResponse =
      .ok ⟨⟨1000, 0, 1000⟩, false, 1 / 500, 1 / 400⟩ :=
    bill_ok_iff.mpr ⟨_, rfl, by decide +kernel⟩
  have hn : ∀ {id : UUID}, none ≠ some id := Option.some_ne_none _ |>.symm
  have hp : ¬(1 / 500 : ℚ) < 0 := by decide +kernel
  let es : Run Sample.intOf {1} s₁ _ :=
    .step (.start 0 hit rfl) <|
    .step (.start 1 miss rfl) <|
    .step (.select 0 hit 0 Sample.model Sample.provider rfl rfl rfl rfl) <|
    .step (.insert 0 hit 0 Sample.model Sample.provider.toProvider _ 0 rfl hb rfl rfl <| by
      exact .setTask (.lockProvider <| .setTask (.setTask Sample.unused hn) hn) hn) <|
    .step (.select 1 miss 0 Sample.model Sample.provider rfl rfl rfl rfl) <|
    .step (.insert 1 miss 0 Sample.model Sample.provider.toProvider _ 1 rfl mb rfl rfl <| by
      refine .setTask (.lockProvider <| .setTask (.setTask (.lockProvider <| .setTask
        (.setTask Sample.unused hn) hn) hn) ?_) hn
      exact fun h => Nat.zero_ne_one <| Option.some.inj h) <|
    .step (.get 0 _ true rfl) <|
    .step (.get 1 _ true rfl) <|
    .step (.skip 0 _ rfl rfl) <|
    .step (.settle 1 _ _ rfl Bool.false_ne_true rfl) <|
    .step (.bump 0 _ _ Sample.key rfl rfl rfl rfl) <|
    .step (.delete 1 _ _ true rfl) <|
    .step (.commit 0 _ rfl) <|
    .step (.alert 1 _ _ true rfl Bool.false_ne_true) <|
    .step (.deduct 1 _ _ _ rfl <| if_neg hp) <|
    .step (.check 1 _ rfl) <|
    .step (.bump 1 _ _ _ rfl rfl rfl rfl) <|
    .step (.commit 1 _ rfl) .refl
  have hi : s₁.Initial := ⟨fun _ => rfl, fun _ => rfl, fun _ => rfl, fun _ => rfl⟩
  have he : ∀ {α : Type} {a : α} {p : Prop}, a ∈ [] → p := fun hm => absurd hm List.not_mem_nil
  have ha : s₁.committed.Agree := by
    refine ⟨fun _ hm => he hm, fun _ hm => he hm, fun id key' hk => ?_⟩
    have hk : (if id = 2 then some Sample.key else none) = some key' := hk
    split at hk
    case isTrue  => cases hk; exact ⟨rfl, rfl⟩
    case isFalse => contradiction
  have hr : s₁.committed.Referential := ⟨fun _ hm => he hm, fun _ hm => he hm⟩
  exact ⟨Sample.intOf, s₁, _, es, rfl, ledgers_agree es hi (by rintro _ rfl; rfl) hr ha⟩

end PostProcess
