import AstraGate.Execution.Locking.Transaction

namespace Locking

variable {s s' : Locks TaskId Row}

-- Providers are locked before accounts, and accounts before keys.
def Row.rank : Row → Nat
  | provider _      => 0
  | creditAccount _ => 1
  | virtualKey _    => 2

-- Post-processing locks its provider again after the account, and does not wait for it then.
theorem ascends_postProcess (providerId userId virtualKeyId : UUID) (outcome : Outcome) :
    Locks.Ascends Row.rank ∅
      ((postProcess providerId userId virtualKeyId outcome).filterMap Statement.locks) := by
  cases outcome
  case missingModel => simp [postProcess, List.filterMap_cons, Statement.locks, Locks.ascends_cons]
  case cacheHit found =>
    cases found <;>
      simp [postProcess, releaseHold, List.filterMap_cons, Statement.locks, Locks.ascends_cons,
        Row.rank]
  case charged found sent changes =>
    have hc : (checkThresholds providerId changes).filterMap Statement.locks =
        List.replicate changes (.provider providerId) := by
      rw [checkThresholds, List.filterMap_replicate]
      rfl
    cases found <;> cases sent <;>
      simp [postProcess, settleCredit, alertLowBalance, deductProviderBalance, List.filterMap_cons,
        Statement.locks, hc, Locks.ascends_cons, Locks.ascends_replicate_append, Row.rank]

theorem ascends_locks (tx : Transaction) : Locks.Ascends Row.rank ∅ tx.locks := by
  cases tx
  case postProcess => exact ascends_postProcess ..
  case release found =>
    cases found <;>
      simp [Transaction.locks, Transaction.statements, releaseHold,
        List.filterMap_cons, Statement.locks, Locks.ascends_cons]
  all_goals
    simp [Transaction.locks, Transaction.statements, holdCredit, stripeWebhook, updateProvider,
      updateBalance, updateVirtualKey, List.filterMap_cons, Statement.locks, Locks.ascends_cons]

-- No order of the statements of any transactions leads to a circle of them that wait.
theorem not_deadlock (es : Run s s') (h : s.Initial) : ¬s'.Deadlock :=
  Locks.not_deadlock_of_ascends es h fun _ ⟨tx, hr⟩ => hr ▸ ascends_locks tx

-- A request waits to hold the credit of an account that post-processing has locked.
theorem not_deadlock_of_waiting_hold :
    ∃ (s s' : Locks TaskId Row) (_ : Run s s'), s'.Waits 2 1 ∧ ¬s'.Deadlock := by
  let s : Locks TaskId Row := { owner := fun _ => none, todo := fun _ => [] }
  have hi : ∀ t, s.held t = ∅ := fun t => by simp [s, Locks.held]
  let es : (s' : Locks TaskId Row) × Run s s' := ⟨_,
    .step (.start 1 _ ⟨.postProcess 1 7 3 (.charged true false 1), rfl⟩ (hi 1)) <|
    .step (.start 2 _ ⟨.hold 7, rfl⟩ (hi 2)) <|
    .step (.lock 1 (.provider 1) _ rfl (.inl rfl)) <|
    .step (.lock 1 (.creditAccount 7) _ rfl (.inl rfl)) .refl⟩
  have hw : es.fst.Waits 2 1 := ⟨.creditAccount 7, _, rfl, rfl, by decide⟩
  exact ⟨s, es.fst, es.snd, hw, not_deadlock es.snd ⟨fun _ => rfl, fun _ => rfl⟩⟩

end Locking
