import AstraGate.Api.Auth.Session

open Function

namespace Session

open Auth

-- Ids of the requests.
abbrev TaskId := Nat

-- The tokens that a sign-in has given, and the role that its user has had then.
structure Grant where
  userId     : Cache.Id
  role       : String
  access     : Minting
  accessJti  : String
  refresh    : Minting
  refreshJti : String

namespace Grant

variable (settings : Settings) (g : Grant)

def accessPayload : Payload :=
  Auth.accessPayload settings g.access g.accessJti g.userId.str g.role

def refreshPayload : Payload :=
  Auth.refreshPayload settings g.refresh g.refreshJti g.userId.str

end Grant

-- A request to an endpoint that asks for a user, or for an admin.
structure Call where
  authorization : String
  admin         : Bool

-- How `get_current_user` or `require_admin` ends for the row.
def Call.answer (call : Call) (row : Option User) : Except Refusal User := do
  let user ← currentUser row
  if call.admin then requireAdmin user else .ok user

-- How far a task has come.
inductive Task
  | fresh
  -- A sign-in has come as far as its tokens.
  | admitted (userId : Cache.Id) (role : String)
  -- A call has decoded its token, at this time.
  | decoded (call : Call) (decodedAt : Time) (userId : UUID)
  -- `logout` is about to blacklist its token for so many seconds, and has done so. Redis can also
  -- have done so without a reply.
  | leaving (payload : Payload) (ttl : Nat)
  | left (payload : Payload)
  | lost (payload : Payload)
  | over

-- The token that a call of `logout` is about.
def Task.token : Task → Option Payload
  | leaving payload _ | left payload | lost payload => some payload
  | _                                               => none

structure State where
  now       : Time
  users     : UsersById
  grants    : List Grant
  blacklist : String → Option (Redis.Entry Unit)
  tasks     : TaskId → Task

namespace State

def setTask (s : State) (t : TaskId) (k : Task) : State :=
  { s with tasks := update s.tasks t k }

structure Initial (s : State) : Prop where
  none  : s.grants = []
  empty : ∀ jti, s.blacklist jti = .none
  fresh : ∀ t, s.tasks t = .fresh

-- The random ids of tokens that have been drawn.
def jtis (s : State) : List String :=
  s.grants.flatMap fun g => [g.accessJti, g.refreshJti]

variable {s : State} {t : TaskId} {k : Task}

@[simp] theorem setTask_now : (s.setTask t k).now = s.now := rfl
@[simp] theorem setTask_users : (s.setTask t k).users = s.users := rfl
@[simp] theorem setTask_grants : (s.setTask t k).grants = s.grants := rfl
@[simp] theorem setTask_blacklist : (s.setTask t k).blacklist = s.blacklist := rfl
@[simp] theorem setTask_tasks : (s.setTask t k).tasks = update s.tasks t k := rfl

end State
end Session
