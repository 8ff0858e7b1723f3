import AstraGate.Database
import AstraGate.Lib.Sql
import AstraGate.Services.Guardrail

open Python

namespace Admin

structure GuardrailKeywordCreate where
  keyword : String
  scope   : Guardrail.Scope
  valid   : keyword ≠ ""

structure GuardrailKeywordUpdate where
  keyword : Option String
  scope   : Option Guardrail.Scope
  valid   : keyword ≠ some ""

inductive KeywordError
  | http (e : HTTPException)
  | sql (e : Sql.Error)
deriving DecidableEq

-- `text.strip()`
def stripText (text : String) : String :=
  .ofList (strip text.toList)

-- The rows after the flush of `create_guardrail_keyword`, which gives its row a new id.
def createGuardrailKeyword (body : GuardrailKeywordCreate) (id : UUID)
    (rows : List GuardrailKeyword) : Except KeywordError (List GuardrailKeyword) :=
  let keyword := stripText body.keyword
  match Sql.scalarOneOrNone <| rows.filter fun row => row.keyword = keyword ∧ row.isActive with
  | .error e       => .error <| .sql e
  | .ok (some _)   =>
    .error <| .http {
      statusCode := 409, detail := "Banned keyword already exists: " ++ body.keyword }
  | .ok none       => .ok <| rows ++ [{ id, keyword, scope := body.scope, isActive := true }]

-- `str` of a UUID.
variable (str : UUID → String)

-- The active row that an update or a deletion is about.
def findKeyword (keywordId : UUID) (rows : List GuardrailKeyword) :
    Except KeywordError GuardrailKeyword :=
  match Sql.scalarOneOrNone <| rows.filter fun row => row.id = keywordId ∧ row.isActive with
  | .error e       => .error <| .sql e
  | .ok none       =>
    .error <| .http {
      statusCode := 404, detail := "Guardrail keyword not found: " ++ str keywordId }
  | .ok (some row) => .ok row

-- The flush of a changed row.
def setKeyword (keyword : GuardrailKeyword) (rows : List GuardrailKeyword) :
    List GuardrailKeyword :=
  rows.map fun row => if row.id = keyword.id then keyword else row

def updateGuardrailKeyword (keywordId : UUID) (body : GuardrailKeywordUpdate)
    (rows : List GuardrailKeyword) : Except KeywordError (List GuardrailKeyword) :=
  findKeyword str keywordId rows |>.map fun keyword =>
    setKeyword {
      keyword with
      keyword := body.keyword.elim keyword.keyword stripText
      scope   := body.scope.getD keyword.scope } rows

-- A deletion keeps the row.
def deleteGuardrailKeyword (keywordId : UUID) (rows : List GuardrailKeyword) :
    Except KeywordError (List GuardrailKeyword) :=
  findKeyword str keywordId rows |>.map fun keyword =>
    setKeyword { keyword with isActive := false } rows

-- The requests that change the keywords, with their validated bodies.
inductive KeywordRequest
  | create (body : GuardrailKeywordCreate) (id : UUID)
  | update (keywordId : UUID) (body : GuardrailKeywordUpdate)
  | delete (keywordId : UUID)

def KeywordRequest.apply (rows : List GuardrailKeyword) :
    KeywordRequest → Except KeywordError (List GuardrailKeyword)
  | create body id        => createGuardrailKeyword body id rows
  | update keywordId body => updateGuardrailKeyword str keywordId body rows
  | delete keywordId      => deleteGuardrailKeyword str keywordId rows

-- The endpoint in its session: `invalidate_keyword_cache` follows the flush.
def KeywordRequest.endpoint (request : KeywordRequest) (rows : List GuardrailKeyword)
    (redis : Redis.Keyspace) :
    Except KeywordError Unit × List GuardrailKeyword × Redis.Keyspace :=
  match request.apply str rows with
  | .error e => (.error e, rows, redis)
  | .ok rows => (.ok (), rows, Redis.delete [Guardrail.redisGuardrailKey] redis)

end Admin
