import AstraGate.Lib.Json
import AstraGate.Lib.Redis
import AstraGate.Models.Guardrail

open Function Python

namespace Guardrail

-- `CONTENT_SNIPPET_MAX_LENGTH`
def contentSnippetMaxLength : Nat :=
  100

inductive Direction
  | input
  | output
deriving DecidableEq

-- An entry of the list that `_get_keywords` returns.
structure Keyword where
  keyword : String
  scope   : Scope
deriving DecidableEq

def Keyword.covers (direction : Direction) (kw : Keyword) : Bool :=
  match direction with
  | .input  => kw.scope ∈ [.input, .both]
  | .output => kw.scope ∈ [.output, .both]

-- `REDIS_GUARDRAIL_KEY`
def redisGuardrailKey : String :=
  "guardrails:keywords"

-- What `json` makes of lists of keywords, and of texts.
structure KeywordText where
  dumps       : List Keyword → String
  loads       : String → Option (List Keyword)
  loads_dumps : ∀ keywords, loads (dumps keywords) = some keywords

def entry (row : GuardrailKeyword) : Keyword where
  keyword := row.keyword
  scope   := row.scope

-- The entries of the rows that are active.
def activeKeywords (rows : List GuardrailKeyword) : List Keyword :=
  rows.filter (·.isActive) |>.map entry

-- What `_load_keywords_from_db` returns: its query does not order the rows.
def LoadsKeywords (rows : List GuardrailKeyword) (keywords : List Keyword) : Prop :=
  keywords.Perm (activeKeywords rows)

-- `_get_keywords`, which loads `keywords` if there are none in the cache, with the keys it leaves
-- in Redis.
def getKeywords (text : KeywordText) (keywords : List Keyword) (redis : Redis.Keyspace) :
    List Keyword × Redis.Keyspace :=
  match redis redisGuardrailKey |>.bind text.loads with
  | some cached => (cached, redis)
  | none        => (keywords, update redis redisGuardrailKey (some <| text.dumps keywords))

structure GuardrailResult where
  violated       : Bool
  keywordMatched : Option String
  contentSnippet : Option String
deriving DecidableEq

def GuardrailResult.passed : GuardrailResult where
  violated       := false
  keywordMatched := none
  contentSnippet := none

def contentSnippet (text : String) : String :=
  let snippet := .ofList (text.toList.take contentSnippetMaxLength)
  if contentSnippetMaxLength < text.length then snippet ++ "..." else snippet

-- `str.lower`
variable (lower : String → String)

-- `_scan_text`, which takes whatever JSON a response has for its text.
def scanText (text : Json) (keywords : List Keyword) : Except Error GuardrailResult :=
  if !text.truthy || keywords.isEmpty then .ok .passed
  else
    match text with
    | .str text =>
      match keywords.find? (Contains (lower text) <| lower ·.keyword) with
      | some kw =>
        .ok {
          violated       := true
          keywordMatched := some kw.keyword
          contentSnippet := some (contentSnippet text) }
      | none => .ok .passed
    | _ => .error .attributeError

theorem scanText_str (text : String) (keywords : List Keyword) :
    ∃ result, scanText lower (.str text) keywords = .ok result ∧
      (result = .passed ∨ result.violated) := by
  unfold scanText
  split
  case isTrue  => exact ⟨_, rfl, .inl rfl⟩
  case isFalse =>
    simp only
    split
    case h_1 => exact ⟨_, rfl, .inr rfl⟩
    case h_2 => exact ⟨_, rfl, .inl rfl⟩

-- What can be scanned: anything falsy, anything if there are no keywords, and texts.
theorem scanText_ok_iff {text : Json} {keywords : List Keyword} :
    (∃ result, scanText lower text keywords = .ok result) ↔
      text.truthy = false ∨ keywords = [] ∨ ∃ s, text = .str s := by
  cases text
  case str s =>
    have ⟨result, hr, _⟩ := scanText_str lower s keywords
    exact iff_of_true ⟨result, hr⟩ (.inr (.inr ⟨s, rfl⟩))
  all_goals
    unfold scanText
    split
    case isTrue h  => exact iff_of_true ⟨_, rfl⟩ (by simpa using h)
    case isFalse h => exact iff_of_false nofun (by simpa using h)

def checkInput (text : Json) (keywords : List Keyword) : Except Error GuardrailResult :=
  scanText lower text (keywords.filter (·.covers .input))

def checkOutput (text : Json) (keywords : List Keyword) : Except Error GuardrailResult :=
  scanText lower text (keywords.filter (·.covers .output))

-- The check of a direction.
def check (direction : Direction) (text : Json) (keywords : List Keyword) :
    Except Error GuardrailResult :=
  match direction with
  | .input  => checkInput lower text keywords
  | .output => checkOutput lower text keywords

end Guardrail
