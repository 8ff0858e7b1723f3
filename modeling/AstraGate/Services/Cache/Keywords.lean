import AstraGate.Services.Cache
import AstraGate.Services.Guardrail

namespace Guardrail

-- `REDIS_GUARDRAIL_TTL`
def redisGuardrailTtl : Time :=
  300000

-- The values of the column `scope`.
def Scope.text : Scope → String
  | input  => "input"
  | output => "output"
  | both   => "both"

def Scope.ofText? (text : String) : Option Scope :=
  [("input", input), ("output", output), ("both", both)].lookup text

def Keyword.payload (kw : Keyword) : Json := .dict [
  ("keyword", .str kw.keyword),
  ("scope", .str kw.scope.text)]

-- An entry of the list as `check_input` and `check_output` read it. With any other scope, which the
-- column does not have, neither of them would use it.
def readKeyword (kw : Json) : Option Keyword := do
  let keyword ← kw.textItem? "keyword"
  let scope ← (kw.textItem? "scope").bind Scope.ofText?
  return { keyword, scope }

def readKeywords : Json → Option (List Keyword)
  | .list kws => kws.mapM readKeyword
  | _         => none

section

variable (floatRepr : String → String) (now : Time) (server : Redis.Server)

-- `_get_cached_keywords`
def getCachedKeywords : Option (List Keyword) :=
  Json.ofReply floatRepr (server.get now redisGuardrailKey) |>.bind readKeywords

-- `_cache_keywords`
def cacheKeywords (keywords : List Keyword) : Redis.Server :=
  server.setex now redisGuardrailKey redisGuardrailTtl
    (Json.dumps <| .list <| keywords.map Keyword.payload)

-- `invalidate_keyword_cache`
def invalidateKeywordCache : Redis.Server :=
  server.del [redisGuardrailKey]

end

theorem Scope.ofText?_text (scope : Scope) : ofText? scope.text = some scope := by
  cases scope <;> decide

theorem readKeyword_payload (kw : Keyword) : readKeyword kw.payload = some kw := by
  simp [readKeyword, Keyword.payload, Json.textItem?, Json.item, List.lookup_cons,
    Scope.ofText?_text]

theorem readKeywords_payload (keywords : List Keyword) :
    readKeywords (.list <| keywords.map Keyword.payload) = some keywords := by
  rw [readKeywords, List.mapM_map]
  induction keywords
  case nil          => rfl
  case cons kw _ ih => simp [readKeyword_payload, ih]

theorem plain_keywords (keywords : List Keyword) :
    (Json.list <| keywords.map Keyword.payload).Plain := by
  have hp : ∀ kw : Keyword, kw.payload.Plain := by
    simp [Keyword.payload, Json.Plain, Json.PlainFields]
  induction keywords
  case nil           => simp [Json.Plain, Json.PlainItems]
  case cons kw _ ih  =>
    simp only [Json.Plain, List.map_cons, Json.PlainItems] at ih ⊢
    exact ⟨hp kw, ih⟩

end Guardrail
