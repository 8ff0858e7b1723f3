import AstraGate.Api.Billing
import AstraGate.Lib.Steps
import AstraGate.Lib.Table
import AstraGate.Services.Credit
import AstraGate.Services.PostProcess

open Function

-- The transactions that lock a credit account: post-processing, which may mail its user, top-ups by
-- the webhook, and those of `hold_credit` and `release_hold`, which only change the balance.
namespace LowCredit

abbrev TaskId := Nat

inductive Task
  | fresh
  -- Post-processing, from the settlement on. Its session holds `account` in memory.
  | settled (userId : UUID) (account : Option CreditAccount)
  | checked (userId : UUID) (mailed : Bool)
  | crediting (userId : UUID)
  | adjusting (userId : UUID)
  | over

-- The task has mailed the user, and is yet to be committed.
def Task.mailed : Task → Bool
  | checked _ mailed => mailed
  | _                => false

structure State where
  now      : Time
  accounts : Table UUID TaskId (Option CreditAccount)
  tasks    : TaskId → Task

namespace State

variable (s : State)

def setTask (t : TaskId) (task : Task) : State :=
  { s with tasks := update s.tasks t task }

-- `SELECT … FOR UPDATE` and the flush that follows it, or another flush of the row.
def lock (t : TaskId) (userId : UUID) (account : Option CreditAccount) (task : Task) : State :=
  { s with
    accounts := s.accounts.lock userId t (account.map CreditAccount.store) }.setTask t task

def commit (t : TaskId) (userId : UUID) (row : Option CreditAccount) : State :=
  { s with accounts := s.accounts.commit userId row }.setTask t .over

def rollback (t : TaskId) (userId : UUID) : State :=
  { s with accounts := s.accounts.rollback userId }.setTask t .over

end State

def settled (userId : UUID) (actualCost : ℚ) (usageRecordId : UUID) (heldAmount : Option ℚ)
    (account : Option CreditAccount) : Option CreditAccount :=
  (Credit.settleCredit userId actualCost (some usageRecordId) heldAmount account).1

-- The mail goes out, if it is due and does not fail.
def mails (now : Time) (sent : Bool) (account : Option CreditAccount) : Bool :=
  account.any (PostProcess.shouldSendLowBalanceAlert now) && sent

namespace State

variable (s : State)

def settle (t : TaskId) (userId : UUID) (account : Option CreditAccount) : State :=
  s.lock t userId account (.settled userId account)

-- The check reads the clock once.
def check (t : TaskId) (userId : UUID) (account : Option CreditAccount) (sent : Bool) : State :=
  s.lock t userId (account.map <| PostProcess.checkLowBalance s.now sent) <|
    .checked userId (mails s.now sent account)

def topup (t : TaskId) (userId : UUID) (amount : ℚ) (paymentIntentId : String)
    (account : CreditAccount) : State :=
  s.lock t userId (some (Billing.topUp s.now userId amount paymentIntentId account).1) <|
    .crediting userId

def adjust (t : TaskId) (userId : UUID) (balanceUsd : ℚ) (account : CreditAccount) : State :=
  s.lock t userId (some { account with balanceUsd }) (.adjusting userId)

end State

-- A step that needs a row's lock waits until the row is free. A transaction that has sent a mail is
-- not rolled back.
inductive Step (s : State) : State → Type
  | tick (d : Time) : Step s { s with now := s.now + d }
  | settle (t : TaskId) (userId : UUID) (actualCost : ℚ) (usageRecordId : UUID)
    (heldAmount : Option ℚ) (task : s.tasks t = .fresh) (free : s.accounts.Free userId) :
    Step s <| s.settle t userId <|
      settled userId actualCost usageRecordId heldAmount (s.accounts.rows userId)
  | check (t : TaskId) (userId : UUID) (account : Option CreditAccount) (sent : Bool)
    (row : Option CreditAccount) (task : s.tasks t = .settled userId account)
    (locked : s.accounts.pending userId = some (t, row)) : Step s (s.check t userId account sent)
  | commit (t : TaskId) (userId : UUID) (mailed : Bool) (row : Option CreditAccount)
    (task : s.tasks t = .checked userId mailed)
    (locked : s.accounts.pending userId = some (t, row)) : Step s (s.commit t userId row)
  | topup (t : TaskId) (userId : UUID) (amount : ℚ) (paymentIntentId : String)
    (account : CreditAccount) (task : s.tasks t = .fresh) (free : s.accounts.Free userId)
    (found : s.accounts.rows userId = some account) :
    Step s (s.topup t userId amount paymentIntentId account)
  | commitTopup (t : TaskId) (userId : UUID) (row : Option CreditAccount)
    (task : s.tasks t = .crediting userId)
    (locked : s.accounts.pending userId = some (t, row)) : Step s (s.commit t userId row)
  | adjust (t : TaskId) (userId : UUID) (balanceUsd : ℚ) (account : CreditAccount)
    (task : s.tasks t = .fresh) (free : s.accounts.Free userId)
    (found : s.accounts.rows userId = some account) : Step s (s.adjust t userId balanceUsd account)
  | commitAdjust (t : TaskId) (userId : UUID) (row : Option CreditAccount)
    (task : s.tasks t = .adjusting userId)
    (locked : s.accounts.pending userId = some (t, row)) : Step s (s.commit t userId row)
  | abort (t : TaskId) (userId : UUID) (row : Option CreditAccount)
    (locked : s.accounts.pending userId = some (t, row)) (unsent : (s.tasks t).mailed = false) :
    Step s (s.rollback t userId)

abbrev Run := Steps Step

-- What a user hears of: mails, and top-ups that are completed.
inductive Event
  | mail (sentAt : Time)
  | topup
deriving DecidableEq

-- The event of a step for the user `u`, if it has one.
def Step.event? (u : UUID) {s s' : State} : Step s s' → Option Event
  | check _ userId account sent .. =>
    if userId = u ∧ mails s.now sent account then some (.mail s.now) else none
  | commitTopup _ userId ..        => if userId = u then some .topup else none
  | _                              => none

end LowCredit
