import AstraGate.Execution.Session.State
import AstraGate.Lib.Steps

open Function

namespace Session

open Auth

variable (settings : Settings) (jwt : Jwt)

namespace State

variable (s : State)

-- The end of a sign-in. Its readings of the clock come before the next step.
def mint (t : TaskId) (g : Grant) : State :=
  { s with now := g.refresh.issued, grants := g :: s.grants }.setTask t .over

-- `logout` up to its command for Redis, with its own reading of the clock.
def leave (t : TaskId) (payload : Payload) (later : Time) : State :=
  { s with now := later }.setTask t <| .leaving payload (blacklistTtl later payload)

-- The `SETEX` of `logout`.
def setex (payload : Payload) (ttl : Nat) : State :=
  { s with blacklist := update s.blacklist payload.jti (some ⟨(), some <| s.now + 1000 * ttl⟩) }

end State

-- The steps of the requests between two points at which another one can get its turn.
inductive Step (s : State) : State → Type
  | tick (d : Time) : Step s { s with now := s.now + d }
  -- Any other request or an operator inserts, changes or deletes rows.
  | write (users : UsersById) : Step s { s with users }
  -- A sign-in has found an active user, or inserted a new one that is not committed yet.
  | load (t : TaskId) (userId : Cache.Id) (user : User) (task : s.tasks t = .fresh)
    (row : s.users.byId userId = some user) (active : user.isActive) :
    Step s (s.setTask t <| .admitted userId user.role)
  | enroll (t : TaskId) (userId : Cache.Id) (task : s.tasks t = .fresh)
    (unused : s.users.byId userId = none) : Step s (s.setTask t <| .admitted userId "customer")
  | mint (t : TaskId) (g : Grant) (task : s.tasks t = .admitted g.userId g.role)
    (later : s.now ≤ g.access.expiry) (ordered : g.access.issued ≤ g.refresh.expiry)
    (unused : g.refreshJti ∉ s.jtis) : Step s (s.mint t g)
  -- `get_current_user` up to its query.
  | refuse (t : TaskId) (call : Call) (error : Refusal) (task : s.tasks t = .fresh)
    (refused : authenticate settings jwt s.now call.authorization = .error error) :
    Step s (s.setTask t .over)
  | decode (t : TaskId) (call : Call) (userId : UUID) (task : s.tasks t = .fresh)
    (passed : authenticate settings jwt s.now call.authorization = .ok userId) :
    Step s (s.setTask t <| .decoded call s.now userId)
  -- Its query, and the rest of it and of `require_admin`.
  | answer (t : TaskId) (call : Call) (decodedAt : Time) (userId : UUID)
    (task : s.tasks t = .decoded call decodedAt userId) : Step s (s.setTask t .over)
  | refuseLogout (t : TaskId) (refreshToken : String) (error : Refusal)
    (task : s.tasks t = .fresh)
    (refused : checkLogout settings jwt s.now refreshToken = .error error) :
    Step s (s.setTask t .over)
  | leave (t : TaskId) (refreshToken : String) (payload : Payload) (later : Time)
    (task : s.tasks t = .fresh)
    (passed : checkLogout settings jwt s.now refreshToken = .ok payload)
    (ordered : s.now ≤ later) : Step s (s.leave t payload later)
  | setex (t : TaskId) (payload : Payload) (ttl : Nat) (task : s.tasks t = .leaving payload ttl)
    (positive : 0 < ttl) : Step s (s.setex payload ttl |>.setTask t <| .left payload)
  -- There is nothing to blacklist.
  | skip (t : TaskId) (payload : Payload) (task : s.tasks t = .leaving payload 0) :
    Step s (s.setTask t <| .left payload)
  -- The connection to Redis fails before or after the command.
  | failSetex (t : TaskId) (payload : Payload) (ttl : Nat)
    (task : s.tasks t = .leaving payload ttl) : Step s (s.setTask t .over)
  | loseSetex (t : TaskId) (payload : Payload) (ttl : Nat)
    (task : s.tasks t = .leaving payload ttl) (positive : 0 < ttl) :
    Step s (s.setex payload ttl |>.setTask t <| .lost payload)
  -- A sign-in or a query fails.
  | abort (t : TaskId) (task : (s.tasks t).token = none) : Step s (s.setTask t .over)

abbrev Run := Steps (Step settings jwt)

variable {settings : Settings} {jwt : Jwt}

-- A sign-in has given a token for this.
def State.Issued (settings : Settings) (s : State) (payload : Payload) : Prop :=
  ∃ g ∈ s.grants, payload = g.accessPayload settings ∨ payload = g.refreshPayload settings

-- What is presented as a token and verifies has been given by a sign-in.
def Step.Genuine {s s' : State} (e : Step settings jwt s s') : Prop :=
  match e with
  | refuse _ call .. | decode _ call .. =>
    ∀ payload, Bears settings jwt call.authorization payload → s.Issued settings payload
  | leave _ refreshToken .. =>
    ∀ payload, jwt.verify settings.jwtRefreshSecret refreshToken = some payload →
      s.Issued settings payload
  | _ => True

end Session
