import AstraGate.Api.Admin.Guardrail
import AstraGate.Lib.Steps

open Admin Function

namespace Guardrail

-- The committed rows of `guardrail_keywords`, and the keys in Redis.
structure State where
  rows  : List GuardrailKeyword
  redis : Redis.Keyspace

-- `str` of ids, and `json` for lists of keywords.
variable (str : UUID → String) (json : KeywordText)

-- What is left of the database and of Redis by a request, whether it is accepted or refused.
def State.handle (s : State) (request : KeywordRequest) : State where
  rows  := (getDb (request.endpoint str) s.rows s.redis).2.1
  redis := (getDb (request.endpoint str) s.rows s.redis).2.2

-- Requests and checks that are completed one after another, with keys that expire at any time. A
-- check that needs it finds `keywords` in the database.
inductive Step (s : State) : State → Type
  | expire (key : String) : Step s { s with redis := update s.redis key none }
  | request (request : KeywordRequest)
    (new : ∀ body id, request = .create body id → id ∉ s.rows.map GuardrailKeyword.id) :
    Step s (s.handle str request)
  | check (direction : Direction) (text : String) (keywords : List Keyword)
    (query : LoadsKeywords s.rows keywords) :
    Step s { s with redis := (getKeywords json keywords s.redis).2 }

abbrev Run := Steps (Step str json)

end Guardrail
