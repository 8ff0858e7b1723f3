import AstraGate.Database
import AstraGate.Lib.Python
import AstraGate.Models.VirtualKey

namespace VirtualKeyAuth

def unauthorized (detail : String) : HTTPException where
  statusCode := 401
  detail     := detail

def missingHeader : HTTPException :=
  unauthorized "Missing Authorization header. Use: Authorization: Bearer <virtual_key>"

def invalidFormat : HTTPException :=
  unauthorized "Invalid Authorization header format. Use: Authorization: Bearer <virtual_key>"

def emptyToken : HTTPException :=
  unauthorized "Empty bearer token"

def invalidKey : HTTPException :=
  unauthorized "Invalid virtual key"

def revokedKey : HTTPException :=
  unauthorized "Virtual key has been revoked"

-- The token in the header `Authorization`. Characters outside of ASCII do not become letters of
-- "bearer" by `str.lower`.
def bearerToken (authorization : Option String) : Except HTTPException String :=
  match authorization.filter (· ≠ "") with
  | none => .error missingHeader
  | some header =>
    match Python.split ' ' header.toList with
    | none => .error invalidFormat
    | some (scheme, rest) =>
      if scheme.map Char.toLower ≠ "bearer".toList then
        .error invalidFormat
      else
        let token := String.ofList (Python.strip rest)
        if token = "" then .error emptyToken else .ok token

-- What `_update_last_used_at` makes of the row.
def updateLastUsedAt (now : Time) (key : VirtualKey) : VirtualKey :=
  { key with lastUsedAt := some now }

-- What the cache keeps of a virtual key.
structure CachedKey where
  id           : UUID
  userId       : UUID
  isActive     : Bool
  rateLimitRpm : Option Nat
  keyPrefix    : String
deriving DecidableEq

def keyCacheData (key : VirtualKey) : CachedKey where
  id           := key.id
  userId       := key.userId
  isActive     := key.isActive
  rateLimitRpm := key.rateLimitRpm
  keyPrefix    := key.keyPrefix

def checkActive (key : VirtualKey) : Except HTTPException VirtualKey :=
  if key.isActive then .ok key else .error revokedKey

-- What a call makes of the row that it finds in the database.
def checkRow : Option VirtualKey → Except HTTPException VirtualKey
  | none     => .error invalidKey
  | some key => checkActive key

-- The check that asks nothing but the database.
def plainCheck (hashKey : String → String) (rows : String → Option VirtualKey)
    (authorization : Option String) : Except HTTPException VirtualKey := do
  let token ← bearerToken authorization
  checkRow (rows (hashKey token))

-- The header consists of "bearer" in any case, a space, and a text around the token.
def Bears (authorization : Option String) (token : String) : Prop :=
  ∃ header scheme rest, authorization = some header ∧ header.toList = scheme ++ ' ' :: rest ∧
    scheme.map Char.toLower = "bearer".toList ∧ String.ofList (Python.strip rest) = token ∧
    token ≠ ""

variable {hashKey : String → String} {rows : String → Option VirtualKey} {key : VirtualKey}

theorem bearerToken_error (h : bearerToken authorization = .error e) : e.statusCode = 401 := by
  unfold bearerToken at h
  split at h
  case h_1 => cases h; rfl
  case h_2 =>
    split at h
    case h_1 => cases h; rfl
    case h_2 =>
      split at h
      case isTrue => cases h; rfl
      case isFalse =>
        dsimp only at h
        split at h
        case isTrue  => cases h; rfl
        case isFalse => contradiction

theorem bearerToken_eq_ok_iff :
    bearerToken authorization = .ok token ↔ Bears authorization token := by
  constructor
  case mp =>
    intro h
    unfold bearerToken at h
    cases hf : authorization.filter (· ≠ "")
    case none => simp only [hf] at h; contradiction
    case some header =>
      have ⟨ha, _⟩ := Option.filter_eq_some_iff.mp hf
      cases hs : Python.split ' ' header.toList
      case none => simp only [hf, hs] at h; contradiction
      case some parts =>
        have ⟨scheme, rest⟩ := parts
        by_cases hb : scheme.map Char.toLower = "bearer".toList
        case neg => simp only [hf, hs, ne_eq, hb, not_false_eq_true, if_true] at h; contradiction
        case pos =>
          by_cases ht : String.ofList (Python.strip rest) = ""
          case pos =>
            simp only [hf, hs, ne_eq, hb, not_true_eq_false, if_false, ht] at h
            contradiction
          case neg =>
            simp only [hf, hs, ne_eq, hb, not_true_eq_false, if_false, ht, Except.ok.injEq] at h
            exact ⟨header, scheme, rest, ha, (Python.split_eq_some_iff.mp hs).left, hb, h, h ▸ ht⟩
  case mpr =>
    intro ⟨header, scheme, rest, ha, hh, hb, ht, hn⟩
    have hf : authorization.filter (· ≠ "") = some header := by
      refine Option.filter_eq_some_iff.mpr ⟨ha, decide_eq_true fun he => ?_⟩
      simp [he] at hh
    have hs : ' ' ∉ scheme := fun hm =>
      absurd (hb ▸ List.mem_map_of_mem hm : Char.toLower ' ' ∈ "bearer".toList) (by decide)
    simp only [bearerToken, hf, Python.split_eq_some_iff.mpr ⟨hh, hs⟩, hb, ht, hn, ne_eq,
      not_true_eq_false, if_false]

theorem checkRow_eq_ok_iff {row : Option VirtualKey} :
    checkRow row = .ok key ↔ row = some key ∧ key.isActive := by
  cases row
  case none => simp [checkRow]
  case some key' =>
    by_cases ha : key'.isActive <;> simp [checkRow, checkActive, ha]
    all_goals grind

theorem checkRow_error {row : Option VirtualKey} (h : checkRow row = .error e) :
    e.statusCode = 401 := by
  cases row
  case none => cases h; rfl
  case some key =>
    cases ha : key.isActive
    case false => simp only [checkRow, checkActive, ha] at h; cases h; rfl
    case true  => simp [checkRow, checkActive, ha] at h

theorem plainCheck_of_error (h : bearerToken authorization = .error e) :
    plainCheck hashKey rows authorization = .error e := by
  rw [plainCheck, h]
  rfl

theorem plainCheck_of_ok (h : bearerToken authorization = .ok token) :
    plainCheck hashKey rows authorization = checkRow (rows (hashKey token)) := by
  rw [plainCheck, h]
  rfl

theorem plainCheck_eq_ok_iff : plainCheck hashKey rows authorization = .ok key ↔
    ∃ token, Bears authorization token ∧ rows (hashKey token) = some key ∧ key.isActive := by
  constructor
  case mp =>
    intro h
    cases hb : bearerToken authorization
    case error e  => exact nomatch (plainCheck_of_error hb).symm.trans h
    case ok token =>
      exact ⟨token, bearerToken_eq_ok_iff.mp hb, checkRow_eq_ok_iff.mp <| plainCheck_of_ok hb ▸ h⟩
  case mpr =>
    intro ⟨token, hb, hr⟩
    exact (plainCheck_of_ok <| bearerToken_eq_ok_iff.mpr hb).trans <| checkRow_eq_ok_iff.mpr hr

theorem plainCheck_error (h : plainCheck hashKey rows authorization = .error e) :
    e.statusCode = 401 := by
  cases hb : bearerToken authorization
  case error e' =>
    rw [plainCheck_of_error hb] at h
    cases h
    exact bearerToken_error hb
  case ok token => exact checkRow_error <| plainCheck_of_ok hb ▸ h

end VirtualKeyAuth
