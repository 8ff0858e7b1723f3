import AstraGate.Api.Auth
import AstraGate.Lib.Steps

namespace Auth

-- The committed rows of `users`, and the counters in Redis.
structure State where
  now      : Time
  users    : Users
  attempts : Attempts

-- What a call of `login` has answered, and when.
structure Attempt where
  clock  : Clock
  result : Except HTTPException TokenResponse

namespace Attempt

def Failed (a : Attempt) : Prop :=
  ∃ e, a.result = .error e

-- The account is locked.
def Refused (a : Attempt) : Prop :=
  ∃ e, a.result = .error e ∧ e.statusCode = 423

instance {a : Attempt} : Decidable a.Failed :=
  match h : a.result with
  | .ok _    => .isFalse fun ⟨_, he⟩ => nomatch h.symm.trans he
  | .error e => .isTrue ⟨e, h⟩

end Attempt

variable (str : UUID → String) (verifyPassword : (password passwordHash : String) → Bool)

-- The response of a call of `login`, with the rows and counters it leaves behind.
def State.respond (s : State) (body : LoginRequest) (clock : Clock) :
    Except HTTPException TokenResponse × Users × Attempts :=
  getDb (login str verifyPassword body clock) s.users s.attempts

def State.login (s : State) (body : LoginRequest) (clock : Clock) : State where
  now      := clock.recorded
  users    := (s.respond str verifyPassword body clock).2.1
  attempts := (s.respond str verifyPassword body clock).2.2

-- Calls of `login`, one after another.
inductive Step (s : State) : State → Type
  | tick (d : Time) : Step s { s with now := s.now + d }
  | login (body : LoginRequest) (clock : Clock) (ordered : s.now ≤ clock.tested) :
    Step s (s.login str verifyPassword body clock)

abbrev Run := Steps (Step str verifyPassword)

variable {str : UUID → String} {verifyPassword : String → String → Bool} {s s' : State}

-- The call of a step, if it is one for the account.
def Step.attempt? (email : String) (e : Step str verifyPassword s s') : Option Attempt :=
  match e with
  | tick _             => none
  | login body clock _ =>
    if body.email = email then
      some { clock, result := (s.respond str verifyPassword body clock).1 }
    else
      none

-- The calls for an account in a run.
def Run.attempts (email : String) (es : Run str verifyPassword s s') : List Attempt :=
  es.collect (Step.attempt? email)

end Auth
