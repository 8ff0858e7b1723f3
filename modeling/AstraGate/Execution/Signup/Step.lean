import AstraGate.Execution.Signup.State
import AstraGate.Lib.Steps

open Function

namespace Signup

open Auth

-- What a call of one of the two endpoints asks for.
inductive Request
  | register (body : RegisterRequest) (salt : String)
  | google (idInfo : Option IdInfo) (i : Identity) (valid : identify idInfo = .ok i)

def Request.newUser (hashpw : (password salt : String) → String) : Request → NewUser
  | register body salt => body.newUser hashpw salt
  | google _ i _       => i.newUser

-- `str` of a UUID, `hash_key`, and `bcrypt.hashpw`.
variable (str : UUID → String) (hashKey : String → String)
  (hashpw : (password salt : String) → String)

namespace State

variable (s : State)

-- The flush of a row, which takes its lock.
def flush (t : TaskId) (email : String) (row : UserRow) (k : Task) : State :=
  { s with users := s.users.lock email t (some row) }.setTask t k

def rollback (t : TaskId) (email : String) (k : Task) : State :=
  { s with users := s.users.rollback email }.setTask t k

def commitLink (t : TaskId) (user : UserRow) (row : Option UserRow) : State :=
  { s with users := s.users.commit user.email row }.setTask t <|
    .answered (.ok <| tokens str user none)

def commit (t : TaskId) (user : UserRow) (key : VirtualKey) (plaintext : String)
    (row : Option UserRow) : State :=
  { s with
    users        := s.users.commit user.email row
    accounts     := update s.accounts user.id (some newAccount)
    transactions := s.transactions ++ [signupCredit user.id]
    keys         := s.keys ++ [key] }.setTask t <|
    .answered (.ok <| tokens str user (some plaintext))

-- The counters of a row, which `login` writes.
def count (email : String) (row : UserRow) (failedLoginAttempts : Nat)
    (lockedUntil : Option Time) : State :=
  { s with users := s.users.commit email <| some { row with failedLoginAttempts, lockedUntil } }

end State

-- The steps of the calls between two points at which another one can get its turn. A flush waits
-- until no other transaction has locked the row, or has inserted one with the same email.
inductive Step (s : State) : State → Type
  | reject (t : TaskId) (idInfo : Option IdInfo) (e : HTTPException) (task : s.tasks t = .fresh)
    (invalid : identify idInfo = .error e) : Step s (s.setTask t <| .answered (.error e))
  | conflict (t : TaskId) (body : RegisterRequest) (row : UserRow) (task : s.tasks t = .fresh)
    (taken : s.users.rows body.email = some row) :
    Step s (s.setTask t <| .answered (.error emailRegistered))
  | signIn (t : TaskId) (idInfo : Option IdInfo) (i : Identity) (row : UserRow)
    (task : s.tasks t = .fresh) (valid : identify idInfo = .ok i)
    (taken : s.users.rows i.email = some row) (linked : ¬Unlinked row) :
    Step s (s.setTask t <| .answered (signIn str row i.sub))
  | load (t : TaskId) (idInfo : Option IdInfo) (i : Identity) (row : UserRow)
    (task : s.tasks t = .fresh) (valid : identify idInfo = .ok i)
    (taken : s.users.rows i.email = some row) (unlinked : Unlinked row) :
    Step s (s.setTask t <| .found row i.sub)
  | flushLink (t : TaskId) (user : UserRow) (sub : String) (row : UserRow)
    (task : s.tasks t = .found user sub) (free : s.users.Free user.email)
    (committed : s.users.rows user.email = some row) :
    Step s (s.flush t user.email (link user sub row) <| .linked user sub)
  | bar (t : TaskId) (user : UserRow) (sub : String) (row : Option UserRow)
    (task : s.tasks t = .linked user sub) (inactive : user.isActive = false)
    (pending : s.users.pending user.email = some (t, row)) :
    Step s (s.rollback t user.email <| .answered (.error deactivated))
  | commitLink (t : TaskId) (user : UserRow) (sub : String) (row : Option UserRow)
    (task : s.tasks t = .linked user sub) (active : user.isActive)
    (pending : s.users.pending user.email = some (t, row)) : Step s (s.commitLink str t user row)
  | miss (t : TaskId) (r : Request) (task : s.tasks t = .fresh)
    (absent : s.users.rows (r.newUser hashpw).email = none) :
    Step s (s.setTask t <| .missed (r.newUser hashpw))
  | insert (t : TaskId) (n : NewUser) (id : UUID) (task : s.tasks t = .missed n)
    (free : s.users.Free n.email) (unique : s.users.rows n.email = none) (new : s.New id) :
    Step s (s.flush t n.email (n.row id) <| .inserted (n.row id))
  -- Another call has committed a user with the same email since.
  | duplicate (t : TaskId) (n : NewUser) (row : UserRow) (task : s.tasks t = .missed n)
    (free : s.users.Free n.email) (taken : s.users.rows n.email = some row) :
    Step s (s.setTask t .failed)
  | credit (t : TaskId) (user : UserRow) (task : s.tasks t = .inserted user) :
    Step s (s.setTask t <| .credited user)
  | mint (t : TaskId) (user : UserRow) (id : UUID) (randomPart : String) (key : VirtualKey)
    (task : s.tasks t = .credited user)
    (ok : VirtualKey.createVirtualKey hashKey s.keys
      (VirtualKey.defaultCreation user.id id randomPart) = .ok key) :
    Step s (s.setTask t <| .keyed user key (VirtualKey.generateVirtualKey randomPart))
  | refuse (t : TaskId) (user : UserRow) (id : UUID) (randomPart : String)
    (e : VirtualKey.ValueError) (task : s.tasks t = .credited user)
    (error : VirtualKey.createVirtualKey hashKey s.keys
      (VirtualKey.defaultCreation user.id id randomPart) = .error e) :
    Step s (s.rollback t user.email .failed)
  | commit (t : TaskId) (user : UserRow) (key : VirtualKey) (plaintext : String)
    (row : Option UserRow) (task : s.tasks t = .keyed user key plaintext)
    (pending : s.users.pending user.email = some (t, row)) :
    Step s (s.commit str t user key plaintext row)
  | abort (t : TaskId) (email : String) (row : Option UserRow)
    (pending : s.users.pending email = some (t, row)) : Step s (s.rollback t email .failed)
  | count (email : String) (row : UserRow) (failedLoginAttempts : Nat) (lockedUntil : Option Time)
    (free : s.users.Free email) (committed : s.users.rows email = some row) :
    Step s (s.count email row failedLoginAttempts lockedUntil)
  | elsewhere (accounts : UUID → Option CreditAccount) (transactions : List CreditTransaction)
    (keys : List VirtualKey) (h : s.Elsewhere accounts transactions keys) :
    Step s { s with accounts, transactions, keys }

abbrev Run := Steps (Step str hashKey hashpw)

end Signup
