import AstraGate.Api.Auth.Signup
import AstraGate.Services.Cache
import AstraGate.Middleware.RateLimit

namespace Auth

open RateLimit (seconds)

-- The settings that tokens depend on.
structure Settings where
  jwtSecret                   : String
  jwtRefreshSecret            : String
  jwtAccessTokenExpireMinutes : Nat
  jwtRefreshTokenExpireDays   : Nat

-- What is signed. Times are in seconds.
structure Payload extends Claims where
  exp : Nat
  iat : Nat
  jti : String
deriving DecidableEq

-- The dictionary that is signed.
def Payload.json (payload : Payload) : Json :=
  .dict <| ("sub", .str payload.sub) ::
    (payload.role.map fun role => ("role", Json.str role)).toList ++ [
    ("type", .str payload.type),
    ("exp", .int payload.exp),
    ("iat", .int payload.iat),
    ("jti", .str payload.jti)]

-- `x[key]`, where it is a time.
def timeItem? (key : String) (x : Json) : Option Nat :=
  match x.item key with
  | .ok (.int n) => n.toNat
  | _            => none

def Payload.ofJson? (x : Json) : Option Payload := do
  let sub ← x.textItem? "sub"
  let type ← x.textItem? "type"
  let exp ← timeItem? "exp" x
  let iat ← timeItem? "iat" x
  let jti ← x.textItem? "jti"
  return { sub, role := x.textItem? "role", type, exp, iat, jti }

-- How `jwt` signs payloads, and verifies the signatures of texts.
structure Jwt where
  encode        : (secret : String) → Payload → String
  verify        : (secret token : String) → Option Payload
  verify_encode : ∀ secret payload, verify secret (encode secret payload) = some payload

theorem Payload.plain_json (payload : Payload) : payload.json.Plain := by
  cases hr : payload.role <;> simp [json, hr, Json.Plain, Json.PlainFields]

theorem Payload.ofJson?_json (payload : Payload) : ofJson? payload.json = some payload := by
  obtain ⟨⟨sub, role, type⟩, exp, iat, jti⟩ := payload
  cases role <;> rfl

-- A scheme whose signatures are the secrets.
def Jwt.plain : Jwt where
  encode secret payload := Json.dumps (.list [.str secret, payload.json])
  verify secret token   :=
    match Json.loads id token with
    | some (.list [.str secret', x]) => if secret' = secret then Payload.ofJson? x else none
    | _                              => none
  verify_encode secret payload := by
    have hp : (Json.list [.str secret, payload.json]).Plain := by
      simp [Json.Plain, Json.PlainItems, Payload.plain_json]
    rw [Json.loads_dumps id hp]
    simp [Payload.ofJson?_json]

-- `jwt.decode`, which also tests that a token has not expired: `none` where it raises `JWTError`.
def Jwt.decode (jwt : Jwt) (secret : String) (now : Time) (token : String) : Option Payload :=
  (jwt.verify secret token).filter fun payload => seconds now ≤ payload.exp

-- The readings of the clock for the two times of a token.
structure Minting where
  expiry   : Time
  issued   : Time
  ordered  : expiry ≤ issued
deriving DecidableEq

-- What `_create_access_token` signs.
def accessPayload (settings : Settings) (m : Minting) (jti userId role : String) : Payload where
  toClaims := createAccessToken userId role
  exp      := seconds (m.expiry + settings.jwtAccessTokenExpireMinutes * 60000)
  iat      := seconds m.issued
  jti      := jti

-- What `_create_refresh_token` signs.
def refreshPayload (settings : Settings) (m : Minting) (jti userId : String) : Payload where
  toClaims := createRefreshToken userId
  exp      := seconds (m.expiry + settings.jwtRefreshTokenExpireDays * 86400000)
  iat      := seconds m.issued
  jti      := jti

-- How a request is refused: by an `HTTPException`, or by a `ValueError` that nobody catches.
inductive Refusal
  | http (e : HTTPException)
  | valueError
deriving DecidableEq

def unauthenticated (detail : String) : Refusal :=
  .http (unauthorized detail)

section

variable (settings : Settings) (jwt : Jwt) (now : Time)

-- `_get_token_from_header`, for a header that is there.
def getTokenFromHeader (authorization : String) : Except Refusal String :=
  if "Bearer ".toList <+: authorization.toList then
    .ok (.ofList <| authorization.toList.drop 7)
  else
    .error (unauthenticated "Invalid authorization header format")

-- `_decode_access_token`
def decodeAccessToken (token : String) : Except Refusal Payload :=
  match jwt.decode settings.jwtSecret now token with
  | none         => .error (unauthenticated "Invalid or expired token")
  | some payload =>
    if payload.type ≠ "access" then .error (unauthenticated "Invalid token type") else .ok payload

-- The user that a token names.
def subject (payload : Payload) : Except Refusal UUID :=
  if payload.sub = "" then .error (unauthenticated "Invalid token payload")
  else
    match Billing.parseUuid payload.sub with
    | none        => .error .valueError
    | some userId => .ok userId

-- `get_current_user` up to its query.
def authenticate (authorization : String) : Except Refusal UUID := do
  let token ← getTokenFromHeader authorization
  let payload ← decodeAccessToken settings jwt now token
  subject payload

-- What `get_current_user` makes of the row.
def currentUser : Option User → Except Refusal User
  | none      => .error (unauthenticated "User not found or inactive")
  | some user =>
    if user.isActive then .ok user else .error (unauthenticated "User not found or inactive")

-- `require_admin`
def requireAdmin (user : User) : Except Refusal User :=
  if user.role ≠ "admin" then
    .error (.http { statusCode := 403, detail := "Admin access required" })
  else
    .ok user

-- `REDIS_REFRESH_BLACKLIST_PREFIX`
def refreshBlacklistPrefix : String :=
  "refresh_blacklist:"

def blacklistKey (jti : String) : String :=
  refreshBlacklistPrefix ++ jti

-- `max(int(exp - now), 0)`
def blacklistTtl (payload : Payload) : Nat :=
  (1000 * payload.exp - now) / 1000

-- `logout` up to its command for Redis: the token that it blacklists.
def checkLogout (refreshToken : String) : Except Refusal Payload :=
  match jwt.decode settings.jwtRefreshSecret now refreshToken with
  | none         => .error (unauthenticated "Invalid refresh token")
  | some payload =>
    if payload.type ≠ "refresh" then .error (unauthenticated "Invalid token type")
    else if payload.jti = "" ∨ payload.exp = 0 then
      .error (unauthenticated "Invalid refresh token payload")
    else .ok payload

end

variable {settings : Settings} {jwt : Jwt} {now : Time} {payload : Payload} {user : User}

theorem decode_eq_some_iff {secret token : String} : jwt.decode secret now token = some payload ↔
    jwt.verify secret token = some payload ∧ seconds now ≤ payload.exp := by
  simp [Jwt.decode, Option.filter_eq_some_iff]

theorem Jwt.eq_of_verify (jwt : Jwt) (secret : String) (payload : Payload) {payload' : Payload}
    (h : jwt.verify secret (jwt.encode secret payload) = some payload') : payload' = payload :=
  Option.some.inj (h.symm.trans (jwt.verify_encode ..))

theorem decodeAccessToken_eq_ok_iff {token : String} :
    decodeAccessToken settings jwt now token = .ok payload ↔
      jwt.verify settings.jwtSecret token = some payload ∧ seconds now ≤ payload.exp ∧
        payload.type = "access" := by
  rw [← and_assoc, ← decode_eq_some_iff, decodeAccessToken]
  cases jwt.decode settings.jwtSecret now token
  case none => simp
  case some p => grind

theorem subject_eq_ok_iff {userId : UUID} :
    subject payload = .ok userId ↔ Billing.parseUuid payload.sub = some userId := by
  unfold subject
  by_cases hs : payload.sub = ""
  case pos =>
    have hn : Billing.parseUuid "" = none := by decide
    simp [hs, hn]
  case neg => cases Billing.parseUuid payload.sub <;> simp [hs]

theorem subject_ne_valueError {userId : UUID}
    (h : Billing.parseUuid payload.sub = some userId) : subject payload ≠ .error .valueError := by
  rw [subject_eq_ok_iff.mpr h]
  nofun

-- The header carries a token that verifies.
def Bears (settings : Settings) (jwt : Jwt) (authorization : String) (payload : Payload) : Prop :=
  ∃ token, authorization = "Bearer " ++ token ∧
    jwt.verify settings.jwtSecret token = some payload

theorem getTokenFromHeader_eq_ok_iff {authorization token : String} :
    getTokenFromHeader authorization = .ok token ↔ authorization = "Bearer " ++ token := by
  unfold getTokenFromHeader
  constructor
  case mp =>
    intro h
    split at h
    case isFalse => contradiction
    case isTrue hp =>
      obtain ⟨rest, hr⟩ := hp
      have ht : String.ofList (authorization.toList.drop 7) = token := Except.ok.inj h
      have hd : ("Bearer ".toList ++ rest).drop 7 = rest := rfl
      rw [← hr, hd] at ht
      have hl : (String.ofList rest).toList = rest := String.toList_ofList
      rw [← String.toList_inj, ← hr, String.toList_append, ← ht, hl]
  case mpr =>
    rintro rfl
    have hd : ("Bearer " ++ token).toList.drop 7 = token.toList := by
      rw [String.toList_append]
      rfl
    rw [if_pos (by simp), hd, String.ofList_toList]

theorem authenticate_eq_ok_iff {authorization : String} {userId : UUID} :
    authenticate settings jwt now authorization = .ok userId ↔
      ∃ payload, Bears settings jwt authorization payload ∧ seconds now ≤ payload.exp ∧
        payload.type = "access" ∧ Billing.parseUuid payload.sub = some userId := by
  unfold authenticate
  constructor
  case mp =>
    intro h
    cases ht : getTokenFromHeader authorization
    case error e => rw [ht] at h; cases h
    case ok token =>
      cases hp : decodeAccessToken settings jwt now token
      case error e => rw [ht] at h; simp only [bind, Except.bind, hp] at h; cases h
      case ok payload =>
        rw [ht] at h
        simp only [bind, Except.bind, hp] at h
        have ⟨hv, he, ha⟩ := decodeAccessToken_eq_ok_iff.mp hp
        exact ⟨payload, ⟨token, getTokenFromHeader_eq_ok_iff.mp ht, hv⟩, he, ha,
          subject_eq_ok_iff.mp h⟩
  case mpr =>
    intro ⟨payload, ⟨token, ht, hv⟩, he, ha, hs⟩
    rw [getTokenFromHeader_eq_ok_iff.mpr ht]
    simp only [bind, Except.bind, decodeAccessToken_eq_ok_iff.mpr ⟨hv, he, ha⟩]
    exact subject_eq_ok_iff.mpr hs

theorem getTokenFromHeader_ne_valueError {authorization : String} :
    getTokenFromHeader authorization ≠ .error .valueError := by
  grind [getTokenFromHeader, unauthenticated]

theorem decodeAccessToken_ne_valueError {token : String} :
    decodeAccessToken settings jwt now token ≠ .error .valueError := by
  grind [decodeAccessToken, unauthenticated]

-- Only a token whose subject is no id makes a request fail.
theorem authenticate_eq_valueError {authorization : String}
    (h : authenticate settings jwt now authorization = .error .valueError) :
    ∃ payload, Bears settings jwt authorization payload ∧ payload.type = "access" ∧
      Billing.parseUuid payload.sub = none := by
  unfold authenticate at h
  cases ht : getTokenFromHeader authorization
  case error e =>
    rw [ht] at h
    cases h
    exact absurd ht getTokenFromHeader_ne_valueError
  case ok token =>
    rw [ht] at h
    cases hp : decodeAccessToken settings jwt now token
    case error e =>
      simp only [bind, Except.bind, hp] at h
      cases h
      exact absurd hp decodeAccessToken_ne_valueError
    case ok payload =>
      simp only [bind, Except.bind, hp] at h
      have ⟨hv, _, ha⟩ := decodeAccessToken_eq_ok_iff.mp hp
      refine ⟨payload, ⟨token, getTokenFromHeader_eq_ok_iff.mp ht, hv⟩, ha, ?_⟩
      by_contra hn
      have ⟨userId, hu⟩ := Option.ne_none_iff_exists'.mp hn
      exact subject_ne_valueError hu h

theorem currentUser_eq_ok_iff {row : Option User} :
    currentUser row = .ok user ↔ row = some user ∧ user.isActive := by
  cases row
  case none => simp [currentUser]
  case some user' => grind [currentUser]

theorem requireAdmin_eq_ok_iff {user' : User} :
    requireAdmin user = .ok user' ↔ user = user' ∧ user.role = "admin" := by
  by_cases hr : user.role = "admin" <;> simp [requireAdmin, hr]

theorem checkLogout_eq_ok_iff {refreshToken : String} :
    checkLogout settings jwt now refreshToken = .ok payload ↔
      jwt.verify settings.jwtRefreshSecret refreshToken = some payload ∧
        seconds now ≤ payload.exp ∧ payload.type = "refresh" ∧ payload.jti ≠ "" ∧
        payload.exp ≠ 0 := by
  rw [← and_assoc, ← decode_eq_some_iff, checkLogout]
  cases jwt.decode settings.jwtRefreshSecret now refreshToken
  case none => simp
  case some p => grind

theorem checkLogout_encode (he : seconds now ≤ payload.exp) (ht : payload.type = "refresh")
    (hj : payload.jti ≠ "") (hz : payload.exp ≠ 0) :
    checkLogout settings jwt now (jwt.encode settings.jwtRefreshSecret payload) = .ok payload :=
  checkLogout_eq_ok_iff.mpr ⟨jwt.verify_encode .., he, ht, hj, hz⟩

end Auth
