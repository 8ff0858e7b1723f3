import AstraGate.Api.Theorems.Forwarding
import AstraGate.Services.Theorems.Guardrail
import Mathlib.Data.List.Forall2

open Guardrail

namespace Gateway

-- A part of a content, whose keys are in any order.
def IsPart (part : Json) (text : String) : Prop :=
  ∃ fields, part = .dict fields ∧
    fields.Perm [("type", .str "text"), ("text", .str text)]

-- A content is a text or a list of parts.
inductive HasTexts : (content : Json) → (texts : List String) → Prop
  | single : HasTexts (.str text) [text]
  | parts (forall₂ : List.Forall₂ IsPart parts texts) : HasTexts (.list parts) texts

def IsMessage (message content : Json) : Prop :=
  ∃ fields : Json.Fields, message = .dict fields ∧ fields.lookup "content" = some content

-- The contents of the messages of a chat.
structure Prompts (body : Json.Fields) (contents : List Json) : Prop where
  messages : ∃ messages, body.get "messages" (.list []) = .list messages ∧
    List.Forall₂ IsMessage messages contents
  texts    : ∀ content ∈ contents, ∃ texts, HasTexts content texts

-- What a list of parts is flattened to is Python's spelling of it.
def spelling (isPrintable : Char → Bool) (contents : List Json) : String :=
  .ofList <| contents.flatMap fun content => ' ' :: (content.toStr isPrintable).toList

-- The table bans an active keyword of the text for the input.
def Forbids (lower : String → String) (rows : List GuardrailKeyword) (text : String) : Prop :=
  ∃ row, Bans lower rows .input text row

-- One of the contents has a text that is banned.
def Offends (lower : String → String) (rows : List GuardrailKeyword) (contents : List Json) :
    Prop :=
  ∃ content ∈ contents, ∃ texts, HasTexts content texts ∧ ∃ text ∈ texts, Forbids lower rows text

-- The request ends with an exception, and the proxy is not called.
structure Rejected (x : Handler Response) : Prop where
  failed : ∃ e, x.result = .error e
  silent : ∀ path body, .post path body ∉ x.trace

-- Apart from the check of its text, the request gets as far as to a provider.
def Reaches (env : Env) (body : Json.Fields) : Prop :=
  ∃ model markupRate q,
    Covers env body (Endpoint.chat <$> maxTokens env body) model markupRate q ∧
      (routing env model).provider ≠ none

-- The handler rejects a chat if one of its texts is banned.
def Scans (env : Env) (rows : List GuardrailKeyword) (body : Json.Fields) (contents : List Json) :
    Prop :=
  Offends env.lower rows contents → Rejected (chatCompletions env body)

variable {env : Env} {body : Json.Fields} {contents : List Json} {rows : List GuardrailKeyword}
  {isPrintable : Char → Bool}

theorem foldl_messageText (env : Env) (h : List.Forall₂ IsMessage messages contents)
    (text : String) :
    messages.foldl (· ++ messageText env ·) text = text ++ spelling env.isPrintable contents := by
  induction h generalizing text
  case nil => simp [spelling]
  case cons message content messages contents h _ ih =>
    have ⟨fields, hm, hl⟩ := h
    have ht : messageText env message =
        .ofList (' ' :: (content.toStr env.isPrintable).toList) := by
      rw [hm, messageText, hl]
      exact String.toList_inj.mp (by simp)
    rw [List.foldl_cons, ih, ht]
    exact String.toList_inj.mp (by simp [spelling])

theorem chatText_of_prompts (h : Prompts body contents) :
    chatText env body = .ok (spelling env.isPrintable contents) := by
  have ⟨messages, hm, hc⟩ := h.messages
  have hf := foldl_messageText env hc ""
  rw [String.empty_append] at hf
  rw [chatText, hm, ← hf]
  rfl

theorem spelling_ne_empty_iff (isPrintable : Char → Bool) :
    spelling isPrintable contents ≠ "" ↔ contents ≠ [] := by
  rw [not_iff_not, ← String.toList_inj, spelling, String.toList_ofList]
  cases contents <;> simp

theorem checkInput_passed_iff {text : String} (hk : LoadsKeywords rows (env.keywords .input)) :
    checkInput env.lower (.str text) (env.keywords .input) = .ok .passed ↔
      ¬(text ≠ "" ∧ Forbids env.lower rows text) := by
  obtain ⟨result, hc, hv⟩ := verdict_of_loads env.lower .input text hk
  obtain ⟨result', hc', hr⟩ :=
    scanText_str env.lower text ((env.keywords .input).filter (·.covers .input))
  have hc : checkInput env.lower (.str text) (env.keywords .input) = .ok result := hc
  cases hc.symm.trans hc'
  rw [Forbids, ← hv.violated, hc]
  cases hr
  case inl hr => simp [hr, GuardrailResult.passed]
  case inr hr =>
    refine iff_of_false (fun h => ?_) (not_not.mpr hr)
    cases h
    cases hr

theorem rejected_of_refused {x : Handler Response} (h : Refused env x) : Rejected x where
  failed := h.failed
  silent := fun _ _ hm => h.silent _ hm

theorem rejected_bind_iff {x : Handler α} {f : α → Handler Response} (hr : x.result = .ok a)
    (hs : ∀ path body, .post path body ∉ x.trace) : Rejected (x >>= f) ↔ Rejected (f a) := by
  have ht (path : Path) (body : Json.Fields) :
      .post path body ∉ (x >>= f).trace ↔ .post path body ∉ (f a).trace := by
    rw [Traced.trace_bind_of_ok hr, List.mem_append, or_iff_right (hs path body)]
  constructor
  case mp =>
    intro h
    refine ⟨Traced.result_bind_of_ok hr ▸ h.failed, fun path body => ?_⟩
    exact (ht path body).mp (h.silent path body)
  case mpr =>
    intro h
    refine ⟨Traced.result_bind_of_ok hr ▸ h.failed, fun path body => ?_⟩
    exact (ht path body).mpr (h.silent path body)

theorem rejected_serveChat_iff {model : Model} {markupRate : ℚ} {inputText : String}
    (ht : chatText env body = .ok inputText) :
    Rejected (serveChat env body model markupRate) ↔
      ∀ provider, ¬Approves env model inputText provider := by
  rw [serveChat, ht, lift_ok, pure_bind]
  cases approve_cases env body model markupRate inputText
  case inl h => exact iff_of_true (rejected_of_refused (h.right _)) h.left
  case inr h =>
    obtain ⟨provider, ha, hr⟩ := h
    rw [hr, pure_bind]
    refine iff_of_false (fun h => ?_) (fun h => h provider ha)
    split at h
    case isTrue  =>
      obtain ⟨_, he⟩ := h.failed
      cases he
    case isFalse => exact h.silent _ _ post_mem_post_bind

-- A request that gets as far as to the check is rejected there or not at all.
theorem rejected_chatCompletions_iff (hp : Prompts body contents)
    (hk : LoadsKeywords rows (env.keywords .input)) :
    Rejected (chatCompletions env body) ↔
      (Reaches env body → contents ≠ [] ∧
        Forbids env.lower rows (spelling env.isPrintable contents)) := by
  rw [chatCompletions]
  cases prepare_covers_cases env body (Endpoint.chat <$> maxTokens env body)
  case inl h =>
    obtain ⟨ht, ⟨e, hr⟩, hn⟩ := h
    refine iff_of_true ⟨⟨e, Traced.result_bind_of_error hr⟩, ?_⟩ ?_
    · rw [Traced.trace_bind_of_error hr, ht]
      exact fun _ _ => List.not_mem_nil
    · rintro ⟨model, markupRate, q, hc, _⟩
      exact absurd hc (hn model markupRate q)
  case inr h =>
    obtain ⟨model, markupRate, q, hm, hc, hr, ht⟩ := h
    have hu : Reaches env body ↔ (routing env model).provider ≠ none := by
      refine ⟨?_, fun h => ⟨model, markupRate, q, hc, h⟩⟩
      rintro ⟨model', _, _, hc', h⟩
      cases hm.symm.trans hc'.found
      exact h
    have ha : ∀ provider, Approves env model (spelling env.isPrintable contents) provider ↔
        ¬(contents ≠ [] ∧ Forbids env.lower rows (spelling env.isPrintable contents)) ∧
          (routing env model).provider = some provider := by
      intro provider
      rw [← spelling_ne_empty_iff env.isPrintable]
      exact and_congr_left' (checkInput_passed_iff hk)
    rw [rejected_bind_iff hr (by simp [ht]), rejected_serveChat_iff (chatText_of_prompts hp), hu]
    simp only [ha]
    cases (routing env model).provider
    case none          => simp
    case some provider => simp

-- `lower` maps a text character by character.
def PerCharacter (lower : String → String) : Prop :=
  ∃ f : Char → List Char, ∀ text, (lower text).toList = text.toList.flatMap f

theorem PerCharacter.isInfix {lower : String → String} {text text' : String}
    (h : PerCharacter lower) (ht : text.toList <:+: text'.toList) :
    (lower text).toList <:+: (lower text').toList := by
  have ⟨f, hf⟩ := h
  have ⟨before, after, ht⟩ := ht
  rw [hf, hf, ← ht, List.flatMap_append, List.flatMap_append]
  exact List.infix_append ..

theorem Forbids.of_infix {lower : String → String} {text text' : String} (hl : PerCharacter lower)
    (h : Forbids lower rows text) (ht : text.toList <:+: text'.toList) :
    Forbids lower rows text' := by
  have ⟨row, hb⟩ := h
  exact ⟨row, { hb with contains := hb.contains.trans (hl.isInfix ht) }⟩

-- A text has a banned keyword in a part that, in a list, is spelled as it is.
def Legible (env : Env) (rows : List GuardrailKeyword) (contents : List Json) : Prop :=
  ∃ content ∈ contents, ∃ texts, HasTexts content texts ∧ ∃ text ∈ texts, ∃ part,
    part <:+: text.toList ∧ Forbids env.lower rows (.ofList part) ∧
      (content = .str text ∨ Json.Verbatim env.isPrintable text part)

theorem infix_repr_part {part : Json} {text : String} (h : IsPart part text) :
    (Json.reprStr isPrintable text).toList <:+: (part.repr isPrintable).toList := by
  have ⟨fields, he, hp⟩ := h
  have hm : ("text", Json.str text) ∈ fields := hp.mem_iff.mpr (by simp)
  have hi : (Json.repr isPrintable (.str text)).toList <:+:
      (Json.repr isPrintable (.dict fields)).toList := Json.infix_repr_dict hm
  rw [he]
  rwa [Json.repr] at hi

theorem exists_part {parts : List Json} {text : String} (h : List.Forall₂ IsPart parts texts)
    (hm : text ∈ texts) : ∃ part ∈ parts, IsPart part text := by
  induction h
  case nil => cases hm
  case cons part text' parts texts hp _ ih =>
    obtain rfl | hm := List.mem_cons.mp hm
    · exact ⟨part, List.mem_cons_self, hp⟩
    · have ⟨part', hm', hp'⟩ := ih hm
      exact ⟨part', List.mem_cons_of_mem _ hm', hp'⟩

theorem HasTexts.infix_toStr {content : Json} {text : String} (h : HasTexts content texts)
    (hm : text ∈ texts) (hi : part <:+: text.toList)
    (hv : content = .str text ∨ Json.Verbatim isPrintable text part) :
    part <:+: (content.toStr isPrintable).toList := by
  cases h
  case single text' =>
    cases List.mem_singleton.mp hm
    exact hi
  case parts parts hf =>
    have ⟨part', hm', hp⟩ := exists_part hf hm
    have hv := hv.resolve_left (by rintro ⟨⟩)
    exact (Json.infix_reprStr hi hv).trans <| (infix_repr_part hp).trans <|
      Json.infix_repr_list hm'

theorem infix_spelling {content : Json} (h : content ∈ contents) :
    (content.toStr isPrintable).toList <:+: (spelling isPrintable contents).toList := by
  have ⟨before, after, hc⟩ := List.append_of_mem h
  rw [hc, spelling, String.toList_ofList, List.flatMap_append, List.flatMap_cons, List.cons_append]
  exact ((List.prefix_append ..).isInfix.trans (List.suffix_cons ..).isInfix).trans
    (List.suffix_append ..).isInfix

theorem Legible.forbids (hl : PerCharacter env.lower) (h : Legible env rows contents) :
    Forbids env.lower rows (spelling env.isPrintable contents) := by
  have ⟨content, hc, texts, ht, text, hm, part, hi, hf, hv⟩ := h
  refine hf.of_infix hl ?_
  rw [String.toList_ofList]
  exact (ht.infix_toStr hm hi hv).trans (infix_spelling hc)

theorem Offends.ne_nil {lower : String → String} (h : Offends lower rows contents) :
    contents ≠ [] := by
  have ⟨content, hc, _⟩ := h
  exact List.ne_nil_of_mem hc

theorem scans_iff_spelling (hp : Prompts body contents)
    (hk : LoadsKeywords rows (env.keywords .input)) (hl : PerCharacter env.lower) :
    (Scans env rows body contents ↔
      (Reaches env body → Offends env.lower rows contents →
        Forbids env.lower rows (spelling env.isPrintable contents))) ∧
    ((Offends env.lower rows contents → Legible env rows contents) →
      Scans env rows body contents) := by
  have hs : Scans env rows body contents ↔
      (Reaches env body → Offends env.lower rows contents →
        Forbids env.lower rows (spelling env.isPrintable contents)) := by
    rw [Scans, rejected_chatCompletions_iff hp hk]
    exact ⟨fun h hr ho => (h ho hr).right, fun h ho hr => ⟨ho.ne_nil, h hr ho⟩⟩
  exact ⟨hs, fun h => hs.mpr fun _ ho => (h ho).forbids hl⟩

-- A chat with a single part, where a keyword is banned.
def partBody (text : String) : Json.Fields :=
  let part := Json.dict [("type", .str "text"), ("text", .str text)]
  [("model", .str "m"), ("max_tokens", .int 1),
    ("messages", .list [.dict [("role", .str "user"), ("content", .list [part])]])]

def Env.banning (keyword : String) : Env :=
  { Env.answering [] with keywords := fun _ => [⟨keyword, .input⟩] }

theorem prompts_partBody (text : String) : Prompts (partBody text)
    [.list [.dict [("type", .str "text"), ("text", .str text)]]] where
  messages := ⟨_, rfl, .cons ⟨_, rfl, rfl⟩ .nil⟩
  texts    := by
    intro content hc
    rw [List.mem_singleton.mp hc]
    exact ⟨[text], .parts <| .cons ⟨_, rfl, .refl _⟩ .nil⟩

theorem offends_partBody (text : String) : Offends id [⟨1, text, .input, true⟩]
    [.list [.dict [("type", .str "text"), ("text", .str text)]]] :=
  ⟨_, List.mem_singleton_self _, [text], .parts <| .cons ⟨_, rfl, .refl _⟩ .nil, text,
    List.mem_singleton_self _, _, List.mem_singleton_self _, rfl, .inl rfl, List.infix_refl _⟩

theorem reaches_partBody (text keyword : String) :
    Reaches (Env.banning keyword) (partBody text) := by
  have ht : maxTokens (Env.banning keyword) (partBody text) = .ok 1 := by
    have hg : (partBody text).get "max_tokens" (.int 2048) = .int 1 := rfl
    simp only [maxTokens, hg, Env.banning, Env.answering]
    decide +kernel
  have hr : (ProviderBalance.resolveProviderForRequest
      (Env.answering []).providerStatus 1 3).provider ≠ none := by
    decide +kernel
  exact ⟨_, _, _, {
    found    := rfl
    resolved := rfl
    estimate := ⟨.chat 1, by rw [ht]; rfl, rfl⟩
    covered  := ⟨_, if_neg (by decide +kernel)⟩ }, hr⟩

theorem perCharacter_id : PerCharacter id :=
  ⟨fun c => [c], fun text => by simp⟩

-- In the spelling of a part, the backslash of its text is doubled.
theorem not_scans_of_backslash :
    ¬∀ (env : Env) (rows : List GuardrailKeyword) (body : Json.Fields) (contents : List Json),
      Prompts body contents → LoadsKeywords rows (env.keywords .input) →
      PerCharacter env.lower → Scans env rows body contents := by
  intro h
  have hk : LoadsKeywords [⟨1, "a\\b", .input, true⟩] ((Env.banning "a\\b").keywords .input) :=
    .refl _
  have hp := prompts_partBody "a\\b"
  have hs := h (Env.banning "a\\b") _ _ _ hp hk perCharacter_id (offends_partBody _)
  have hf := ((rejected_chatCompletions_iff hp hk).mp hs (reaches_partBody _ _)).right
  obtain ⟨row, hb⟩ := hf
  cases List.mem_singleton.mp hb.mem
  exact absurd hb.contains (by decide +kernel)

theorem scans_of_plain_keyword :
    Scans (Env.banning "bad") [⟨1, "bad", .input, true⟩] (partBody "bad")
      [.list [.dict [("type", .str "text"), ("text", .str "bad")]]] := by
  have hk : LoadsKeywords [⟨1, "bad", .input, true⟩] ((Env.banning "bad").keywords .input) :=
    .refl _
  refine (scans_iff_spelling (prompts_partBody "bad") hk perCharacter_id).right fun _ => ?_
  refine ⟨_, List.mem_singleton_self _, ["bad"], .parts <| .cons ⟨_, rfl, .refl _⟩ .nil, "bad",
    List.mem_singleton_self _, "bad".toList, List.infix_refl _, ?_, .inr ?_⟩
  · exact ⟨_, List.mem_singleton_self _, rfl, .inl rfl, by decide⟩
  · intro c hc
    obtain rfl | rfl | rfl : c = 'b' ∨ c = 'a' ∨ c = 'd' := by simpa using hc
    all_goals rfl

end Gateway
