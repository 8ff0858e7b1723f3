import AstraGate.Api.Auth.Signup
import AstraGate.Lib.Sql
import AstraGate.Lib.Table

open Function

namespace Signup

open Auth

-- Ids of the calls of `register` and `oauth_google`.
abbrev TaskId := Nat

-- How far a call has come.
inductive Task
  | fresh
  -- The email is not taken: the user is flushed first, then the account with its free credit, and
  -- the default key last.
  | missed (n : NewUser)
  | inserted (user : UserRow)
  | credited (user : UserRow)
  | keyed (user : UserRow) (key : VirtualKey) (plaintext : String)
  -- A sign-in with Google has loaded a row that is to be linked, and has flushed the link.
  | found (user : UserRow) (sub : String)
  | linked (user : UserRow) (sub : String)
  | answered (result : Except HTTPException TokenResponse)
  | failed

-- The tables that a sign-up writes to, the users by their unique column `email`.
structure State where
  users        : Table String TaskId (Option UserRow)
  accounts     : UUID → Option CreditAccount
  transactions : List CreditTransaction
  keys         : List VirtualKey
  tasks        : TaskId → Task

namespace State

def setTask (s : State) (t : TaskId) (k : Task) : State :=
  { s with tasks := update s.tasks t k }

-- A row as it is committed, or as an open transaction has flushed it.
def Version (s : State) (email : String) (row : UserRow) : Prop :=
  s.users.rows email = some row ∨ ∃ t, s.users.pending email = some (t, some row)

-- An id that `uuid4` can draw.
def New (s : State) (id : UUID) : Prop :=
  ∀ email row, s.Version email row → row.id ≠ id

def HasUser (s : State) (userId : UUID) : Prop :=
  ∃ email row, s.users.rows email = some row ∧ row.id = userId

-- Whose free credit a transaction books.
def freeCreditOf (tx : CreditTransaction) : Option UUID :=
  if tx.type = .freeCredit then some tx.userId else none

-- What a sign-up commits for its user: an account with a dollar, which is booked as free credit,
-- and an active key.
structure Granted (s : State) (userId : UUID) : Prop where
  account : ∃ account, s.accounts userId = some account ∧ account.balanceUsd = 1
  credit  : ∃ tx, s.transactions.filter (·.userId = userId) = [tx] ∧ tx.type = .freeCredit ∧
    tx.amountUsd = 1 ∧ tx.balanceAfter = 1
  key     : ∃ key, s.keys.filter (·.userId = userId) = [key] ∧ key.name = "Default Key" ∧
    key.isActive

-- What stays of it, as the user spends the credit and revokes keys.
structure Provisioned (s : State) (userId : UUID) : Prop where
  account : s.accounts userId ≠ none
  credit  : Sql.referring freeCreditOf userId s.transactions = [signupCredit userId]
  key     : ∃ key ∈ s.keys, key.userId = userId ∧ key.name = "Default Key"

-- Nothing belongs to the id.
structure Unknown (s : State) (userId : UUID) : Prop where
  account : s.accounts userId = none
  credit  : ∀ tx ∈ s.transactions, tx.userId ≠ userId
  key     : ∀ key ∈ s.keys, key.userId ≠ userId

-- All of it is there for the users that have not been there before, and nothing is there for those
-- who are no users.
structure Complete (old : UUID → Prop) (s : State) : Prop where
  provisioned : ∀ {userId}, s.HasUser userId → ¬old userId → s.Provisioned userId
  unknown     : ∀ {userId}, ¬s.HasUser userId → s.Unknown userId

-- What the rest of the service makes of the tables: it inserts no accounts, books no free credit,
-- and neither deletes a key nor gives it away.
structure Elsewhere (s : State) (accounts : UUID → Option CreditAccount)
    (transactions : List CreditTransaction) (keys : List VirtualKey) : Prop where
  accounts     : ∀ userId, accounts userId = none ↔ s.accounts userId = none
  transactions : ∃ new, transactions = s.transactions ++ new ∧
    ∀ tx ∈ new, tx.type ≠ .freeCredit ∧ s.HasUser tx.userId
  keys         : ∃ (f : VirtualKey → VirtualKey) (new : List VirtualKey),
    keys = s.keys.map f ++ new ∧ (∀ key, (f key).userId = key.userId ∧ (f key).name = key.name) ∧
    ∀ key ∈ new, s.HasUser key.userId

-- The rows are in order: their primary key is one, foreign keys refer to users, and none of them is
-- linked to a provider other than Google.
structure Initial (s : State) : Prop where
  fresh   : ∀ t, s.tasks t = .fresh
  quiet   : s.users.Quiet
  email   : ∀ {email row}, s.users.rows email = some row → row.email = email
  ids     : ∀ {e e' row row'}, s.users.rows e = some row → s.users.rows e' = some row' →
    row.id = row'.id → e = e'
  unknown : ∀ {userId}, ¬s.HasUser userId → s.Unknown userId
  linkage : ∀ {email row}, s.users.rows email = some row → Linkage row

end State
end Signup
