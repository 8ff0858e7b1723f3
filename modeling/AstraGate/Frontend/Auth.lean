import AstraGate.Lib.Js

-- The client of the gateway's API that runs in the browser.
namespace Frontend

-- The body of a response is `none` if it is no JSON.
structure Response where
  status : Nat
  body   : Option Js

def Response.ok (response : Response) : Bool :=
  200 ≤ response.status && response.status ≤ 299

inductive Body
  | text (body : String)
  | stringify (value : Js)

structure Request where
  url     : String
  method  : Option String
  headers : List (String × String)
  body    : Option Body

-- `localStorage`
structure Storage where
  accessToken  : Option String
  refreshToken : Option String

-- What a call of `apiRequest` reads and writes, and the requests that it has sent so far.
structure Client where
  storage   : Storage
  location  : String
  requests  : List Request
  refreshes : List Request

-- The server answers each request to the path, and each one for a new token, with any response or
-- with none at all, in which case `fetch` rejects.
structure Env where
  apiUrl    : String
  isBrowser : Bool
  respond   : Nat → Option Response
  refresh   : Nat → Option Response

variable (env : Env) (client : Client)

def getAccessToken : Option String :=
  if env.isBrowser then client.storage.accessToken else none

def getRefreshToken : Option String :=
  if env.isBrowser then client.storage.refreshToken else none

def setAccessToken (token : String) : Client :=
  { client with storage.accessToken := some token }

def clearTokens : Client :=
  { client with storage := { accessToken := none, refreshToken := none } }

-- `if (token)`, of a text that may be null.
def nonempty? (text : Option String) : Option String :=
  text.filter (· ≠ "")

def refreshRequest (refreshToken : String) : Request where
  url     := env.apiUrl ++ "/auth/refresh"
  method  := some "POST"
  headers := [("Content-Type", "application/json")]
  body    := some <| .stringify <| .object [("refresh_token", .str refreshToken)]

-- Everything that is thrown is caught: by `fetch`, by `json`, and by the access to a property of
-- null.
def refreshAccessToken : Bool × Client :=
  match nonempty? (getRefreshToken env client) with
  | none => (false, client)
  | some refreshToken =>
    let response := env.refresh client.refreshes.length
    let client := { client with
      refreshes := client.refreshes ++ [refreshRequest env refreshToken] }
    match response with
    | none => (false, clearTokens client)
    | some response =>
      if response.ok then
        match response.body with
        | none | some .null => (false, clearTokens client)
        | some data         =>
          let token := data.prop? "access_token" |>.elim "undefined" Js.toStr
          (true, setAccessToken client token)
      else
        (false, clearTokens client)

end Frontend
