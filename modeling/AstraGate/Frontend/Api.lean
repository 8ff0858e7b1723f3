import AstraGate.Frontend.Auth

namespace Frontend

structure Options where
  method  : Option String
  headers : List (String × String)
  body    : Option Body

inductive RequestError
  -- What `fetch` or `json` rejects with.
  | network
  | parse
  | message (value : Js)

-- The headers in their order. Of two with the same name the latter one counts.
def requestHeaders (token : Option String) (options : Options) : List (String × String) :=
  ("Content-Type", "application/json") ::
    (nonempty? token).toList.map (("Authorization", "Bearer " ++ ·)) ++ options.headers

-- `error?.error?.message || HTTP status`, where `error` is an empty object if it is no JSON.
def errorMessage (response : Response) : Js :=
  response.body.bind (Js.prop? "error") |>.bind (Js.prop? "message") |>.filter Js.truthy
    |>.getD (.str <| "HTTP " ++ toString response.status)

def pathRequest (env : Env) (path : String) (options : Options) (client : Client) : Request where
  url     := env.apiUrl ++ path
  method  := options.method
  headers := requestHeaders (getAccessToken env client) options
  body    := options.body

def Client.send (client : Client) (request : Request) : Client :=
  { client with requests := client.requests ++ [request] }

-- The call has not returned yet if the recursion has gone as deep as the fuel lets it.
def apiRequest (env : Env) (path : String) (options : Options) :
    (fuel : Nat) → Client → Client × Option (Except RequestError Js)
  | 0, client => (client, none)
  | fuel + 1, client =>
    let response := env.respond client.requests.length
    let client := client.send (pathRequest env path options client)
    match response with
    | none => (client, some (.error .network))
    | some response =>
      if response.status = 401 then
        match refreshAccessToken env client with
        | (true, client)  => apiRequest env path options fuel client
        | (false, client) =>
          let location := if env.isBrowser then "/login" else client.location
          ({ client with location }, some (.error (.message (.str "Unauthorized"))))
      else if response.ok then
        (client, some (response.body.elim (.error .parse) .ok))
      else
        (client, some (.error (.message (errorMessage response))))

end Frontend
