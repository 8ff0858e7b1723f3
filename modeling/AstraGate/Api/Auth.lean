import AstraGate.Database
import AstraGate.Lib.Redis
import AstraGate.Models.User
import Mathlib.Logic.Function.Basic

open Function

namespace Auth

-- The rows that `register` and `oauth_google` insert for a new user.
def newAccount : CreditAccount where
  balanceUsd            := 1
  lastTopupAmount       := none
  lastTopupAt           := none
  lowBalanceAlertSentAt := none

def signupCredit (userId : UUID) : CreditTransaction where
  userId                := userId
  type                  := .freeCredit
  amountUsd             := 1
  balanceAfter          := 1
  stripePaymentIntentId := none
  usageRecordId         := none

-- `MAX_FAILED_ATTEMPTS`
def maxFailedAttempts : Nat :=
  10

-- `LOCKOUT_MINUTES`
def lockout : Time :=
  15 * 60000

-- `REDIS_LOGIN_ATTEMPTS_PREFIX`
def loginAttemptsPrefix : String :=
  "login_attempts:"

structure LoginRequest where
  email    : String
  password : String
deriving DecidableEq

-- What a token says about its user, apart from its times and its random id.
structure Claims where
  sub  : String
  role : Option String
  type : String
deriving DecidableEq

structure TokenResponse where
  accessToken  : Claims
  refreshToken : Claims
  tokenType    : String := "bearer"
  defaultKey   : Option String := none
deriving DecidableEq

-- The readings of the clock in a call of `login`: by the test for a lock, by the message about it,
-- and by the record of a failure, whose commands Redis runs at that time.
structure Clock where
  tested      : Time
  reported    : Time
  recorded    : Time
  tested_le   : tested ≤ reported
  reported_le : reported ≤ recorded

-- The counters of failed logins.
abbrev Attempts := String → Option (Redis.Entry Nat)

def createAccessToken (userId role : String) : Claims where
  sub  := userId
  role := some role
  type := "access"

def createRefreshToken (userId : String) : Claims where
  sub  := userId
  role := none
  type := "refresh"

-- `timedelta.seconds` of `till - now`: what is left of the difference after its days, rounded down.
def remaining (till now : Time) : Int :=
  (till - now : Int) / 1000 % 86400

-- `_check_account_lock`
def checkAccountLock (user : User) (clock : Clock) : Except HTTPException Unit :=
  match user.lockedUntil with
  | none => .ok ()
  | some till =>
    if clock.tested < till then
      .error {
        statusCode := 423
        detail     := "Account is locked. Try again in " ++
          toString (remaining till clock.reported) ++ " seconds." }
    else
      .ok ()

section

-- `str` of a UUID, and `bcrypt.checkpw`.
variable (str : UUID → String) (verifyPassword : (password passwordHash : String) → Bool)

def loginAttemptsKey (userId : UUID) : String :=
  loginAttemptsPrefix ++ str userId

-- `_record_failed_login`
def recordFailedLogin (user : User) (now : Time) (users : Users) (redis : Attempts) :
    Users × Attempts :=
  let redisKey := loginAttemptsKey str user.id
  let counter := Redis.incr now (redis redisKey)
  let attempts := counter.value
  let redis := update redis redisKey <|
    if attempts = 1 then Redis.expire now lockout (some counter) else some counter
  let lockedUntil := if maxFailedAttempts ≤ attempts then some (now + lockout) else user.lockedUntil
  (users.put { user with failedLoginAttempts := attempts, lockedUntil }, redis)

-- `_reset_failed_login`
def resetFailedLogin (user : User) (users : Users) (redis : Attempts) : Users × Attempts :=
  (users.put { user with failedLoginAttempts := 0, lockedUntil := none },
    update redis (loginAttemptsKey str user.id) none)

def invalidCredentials : HTTPException where
  statusCode := 401
  detail     := "Invalid email or password"

def deactivated : HTTPException where
  statusCode := 401
  detail     := "Account is deactivated"

-- The endpoint `login`, in its session.
def login (body : LoginRequest) (clock : Clock) (users : Users) (redis : Attempts) :
    Except HTTPException TokenResponse × Users × Attempts :=
  match users.byEmail body.email with
  | none => (.error invalidCredentials, users, redis)
  | some user =>
    match checkAccountLock user clock with
    | .error e => (.error e, users, redis)
    | .ok _ =>
      match user.passwordHash.filter (· ≠ "") with
      | none => (.error invalidCredentials, users, redis)
      | some passwordHash =>
        if !verifyPassword body.password passwordHash then
          (.error invalidCredentials, recordFailedLogin str user clock.recorded users redis)
        else if !user.isActive then
          (.error deactivated, users, redis)
        else
          let tokens := {
            accessToken  := createAccessToken (str user.id) user.role
            refreshToken := createRefreshToken (str user.id) }
          (.ok tokens, resetFailedLogin str user users redis)

end

variable {str : UUID → String} {verifyPassword : String → String → Bool} {user : User}
  {clock : Clock}
  {body : LoginRequest} {users : Users} {redis : Attempts}

theorem checkAccountLock_eq_error (h : checkAccountLock user clock = .error e) :
    e.statusCode = 423 ∧ ∃ till ∈ user.lockedUntil, clock.tested < till := by
  unfold checkAccountLock at h
  cases hl : user.lockedUntil
  case none      => simp [hl] at h
  case some till =>
    by_cases ht : clock.tested < till
    case pos => simp only [hl, ht, if_true] at h; cases h; exact ⟨rfl, till, rfl, ht⟩
    case neg => simp [hl, ht] at h

theorem checkAccountLock_of_lt (h : user.lockedUntil = some till) (ht : clock.tested < till) :
    ∃ e, checkAccountLock user clock = .error e := by
  simp [checkAccountLock, h, ht]

-- A login is refused with status 423 exactly if the row that it finds is locked.
theorem login_locked_iff (hu : users.byEmail body.email = some user) :
    (∃ e, (login str verifyPassword body clock users redis).1 = .error e ∧ e.statusCode = 423) ↔
      ∃ till ∈ user.lockedUntil, clock.tested < till := by
  constructor
  case mp =>
    intro ⟨e, he, hs⟩
    cases hc : checkAccountLock user clock
    case error e' => exact (checkAccountLock_eq_error hc).right
    case ok =>
      have hn : invalidCredentials.statusCode ≠ 423 ∧ deactivated.statusCode ≠ 423 := by decide
      simp only [login, hu, hc] at he
      split at he
      case h_1 => cases he; exact absurd hs hn.left
      case h_2 =>
        split at he
        case isTrue  => cases he; exact absurd hs hn.left
        case isFalse =>
          split at he
          case isTrue  => cases he; exact absurd hs hn.right
          case isFalse => contradiction
  case mpr =>
    intro ⟨till, hl, ht⟩
    have ⟨e, hc⟩ := checkAccountLock_of_lt hl ht
    refine ⟨e, ?_, (checkAccountLock_eq_error hc).left⟩
    simp only [login, hu, hc]

-- What a login has tested before it succeeds, and what it leaves in its session.
theorem login_eq_ok (h : (login str verifyPassword body clock users redis).1 = .ok tokens) :
    ∃ user passwordHash, users.byEmail body.email = some user ∧
      checkAccountLock user clock = .ok () ∧ user.passwordHash = some passwordHash ∧
      verifyPassword body.password passwordHash ∧ user.isActive ∧
      (login str verifyPassword body clock users redis).2 =
        resetFailedLogin str user users redis := by
  unfold login at h ⊢
  cases hu : users.byEmail body.email
  case none => simp [hu] at h
  case some user =>
    cases hc : checkAccountLock user clock
    case error => simp [hu, hc] at h
    case ok =>
      cases hp : user.passwordHash.filter (· ≠ "")
      case none => simp only [hu, hc, hp] at h; contradiction
      case some passwordHash =>
        cases hv : verifyPassword body.password passwordHash
        case false => simp only [hu, hc, hp, hv, Bool.not_false, if_true] at h; contradiction
        case true =>
          cases ha : user.isActive
          case false => simp only [hu, hc, hp, hv, ha] at h; contradiction
          case true =>
            have ⟨hp', _⟩ := Option.filter_eq_some_iff.mp hp
            exact ⟨user, passwordHash, rfl, hc, hp', hv, ha, by simp only [hc, hp, hv, ha]; rfl⟩

-- A login that succeeds writes no other row than the one that it finds.
theorem login_byEmail_of_ok (h : (login str verifyPassword body clock users redis).1 = .ok tokens)
    (he : email ≠ body.email) :
    (login str verifyPassword body clock users redis).2.1.byEmail email = users.byEmail email := by
  have ⟨user, _, hu, _, _, _, _, hr⟩ := login_eq_ok h
  rw [hr, resetFailedLogin, Users.put_byEmail, update_of_ne]
  exact users.email hu ▸ he

end Auth
