import AstraGate.Api.Auth
import AstraGate.Services.VirtualKey

namespace Auth

structure RegisterRequest where
  email     : String
  password  : String
  minLength : 8 ≤ password.length
  maxLength : password.length ≤ 128

-- What `verify_oauth2_token` returns for a token that it accepts.
structure IdInfo where
  email         : Option String
  sub           : Option String
  emailVerified : Bool
deriving DecidableEq

-- The columns of a new user in which `register` and `oauth_google` differ.
structure NewUser where
  email         : String
  passwordHash  : Option String
  oauthProvider : Option String
  oauthSub      : Option String
deriving DecidableEq

-- The row that both insert for the user.
def NewUser.row (n : NewUser) (id : UUID) : UserRow where
  id                  := id
  email               := n.email
  passwordHash        := n.passwordHash
  role                := "customer"
  isActive            := true
  failedLoginAttempts := 0
  lockedUntil         := none
  oauthProvider       := n.oauthProvider
  oauthSub            := n.oauthSub

def unauthorized (detail : String) : HTTPException where
  statusCode := 401
  detail     := detail

def emailRegistered : HTTPException where
  statusCode := 409
  detail     := "Email already registered"

def accountMismatch : HTTPException where
  statusCode := 409
  detail     := "Account mismatch"

-- `bcrypt.hashpw` with a salt.
def RegisterRequest.newUser (hashpw : (password salt : String) → String) (salt : String)
    (body : RegisterRequest) : NewUser where
  email         := body.email
  passwordHash  := some (hashpw body.password salt)
  oauthProvider := none
  oauthSub      := none

-- Who a sign-in with Google is for.
structure Identity where
  email : String
  sub   : String
deriving DecidableEq

def Identity.newUser (i : Identity) : NewUser where
  email         := i.email
  passwordHash  := none
  oauthProvider := some "google"
  oauthSub      := some i.sub

-- The checks of `oauth_google` before it looks for the user.
def identify : (idInfo : Option IdInfo) → Except HTTPException Identity
  | none        => .error (unauthorized "Invalid Google ID token")
  | some idInfo =>
    match idInfo.email.filter (· ≠ ""), idInfo.sub.filter (· ≠ "") with
    | some email, some sub =>
      if idInfo.emailVerified then .ok { email, sub }
      else .error (unauthorized "Google email not verified")
    | _, _ => .error (unauthorized "Google token missing email or sub claim")

-- The row has no provider yet, so that it is to be linked.
def Unlinked (user : UserRow) : Prop :=
  user.oauthProvider.filter (· ≠ "") = none

instance : Decidable (Unlinked user) :=
  inferInstanceAs (Decidable (_ = none))

-- The row says which account of Google it is linked to, and it is linked to no other provider.
structure Linkage (user : UserRow) : Prop where
  unlinked : Unlinked user → user.oauthSub = none
  linked   : ¬Unlinked user → user.oauthProvider = some "google"

-- The row is linked to another account of Google.
def Mismatched (user : UserRow) (sub : String) : Prop :=
  user.oauthProvider = some "google" ∧ user.oauthSub ≠ some sub

instance : Decidable (Mismatched user sub) :=
  inferInstanceAs (Decidable (_ ∧ _))

-- What the flush of a link makes of the row as it is committed by then: it writes the columns that
-- differ from those of the row that the session has loaded.
def link (loaded : UserRow) (sub : String) (row : UserRow) : UserRow :=
  { row with
    oauthProvider := some "google"
    oauthSub      := if loaded.oauthSub = some sub then row.oauthSub else some sub }

section

-- `str` of a UUID.
variable (str : UUID → String)

def tokens (user : UserRow) (defaultKey : Option String) : TokenResponse where
  accessToken  := createAccessToken (str user.id) user.role
  refreshToken := createRefreshToken (str user.id)
  defaultKey   := defaultKey

-- How `oauth_google` ends for a row that it does not link.
def signIn (user : UserRow) (sub : String) : Except HTTPException TokenResponse :=
  if Mismatched user sub then .error accountMismatch
  else if !user.isActive then .error deactivated
  else .ok (tokens str user none)

end

@[simp]
theorem identity_link : (link loaded sub row).identity = row.identity :=
  rfl

-- Both endpoints insert rows that are in order.
theorem linkage_register {id : UUID} {body : RegisterRequest} :
    Linkage (body.newUser hashpw salt |>.row id) where
  unlinked _ := rfl
  linked h   := (h rfl).elim

theorem linkage_google {id : UUID} {i : Identity} : Linkage (i.newUser.row id) where
  unlinked h := by simp [Unlinked, NewUser.row, Identity.newUser, Option.filter_some] at h
  linked _   := rfl

-- The session has loaded the row before it was linked.
theorem linkage_link : Linkage (link loaded sub row) where
  unlinked h := by simp [Unlinked, link, Option.filter_some] at h
  linked _   := rfl

-- Tokens for a row that is not linked by the call are for the account that it is linked to.
theorem signIn_eq_ok (h : signIn str user sub = .ok response) (hl : Linkage user)
    (hu : ¬Unlinked user) :
    user.oauthSub = some sub ∧ user.isActive ∧ response = tokens str user none := by
  unfold signIn at h
  split at h
  case isTrue     => contradiction
  case isFalse hm =>
    split at h
    case isTrue     => contradiction
    case isFalse ha =>
      cases h
      exact ⟨by_contra fun hs => hm ⟨hl.linked hu, hs⟩, by simpa using ha, rfl⟩

end Auth
