import AstraGate.Models.Credit
import Mathlib.Logic.Function.Basic

open Function

-- A row of `users`.
structure User where
  id                  : UUID
  email               : String
  passwordHash        : Option String
  role                : String
  isActive            : Bool
  failedLoginAttempts : Nat
  lockedUntil         : Option Time
deriving DecidableEq

-- A row of `users`, with the columns that only sign-ins with Google use.
structure UserRow extends User where
  oauthProvider : Option String
  oauthSub      : Option String
deriving DecidableEq

-- The row without the columns that requests write to once it is there.
def UserRow.identity (row : UserRow) : UserRow :=
  { row with
    failedLoginAttempts := 0, lockedUntil := none, oauthProvider := none, oauthSub := none }

-- The table `users` by its unique column `email`.
structure Users where
  byEmail : String → Option User
  email   : ∀ {e user}, byEmail e = some user → user.email = e

namespace Users

def put (users : Users) (user : User) : Users where
  byEmail := update users.byEmail user.email (some user)
  email   := by
    intro e user' h
    by_cases he : e = user.email
    case pos => simp_all
    case neg => exact users.email <| (update_of_ne he ..).symm.trans h

@[simp]
theorem put_byEmail {users : Users} :
    (users.put user).byEmail = update users.byEmail user.email (some user) :=
  rfl

end Users

-- The table by its primary key.
structure UsersById where
  byId : UUID → Option User
  id   : ∀ {i user}, byId i = some user → user.id = i
