import AstraGate.Api.Theorems.Resolution
import AstraGate.Services.Theorems.Guardrail
import Mathlib.Data.List.Forall2

open Guardrail Python

namespace Gateway

variable {env : Env} {body response : Json.Fields} {model : Model} {markupRate : ℚ}
  {rows : List GuardrailKeyword} {texts : List String} {text : String}

-- The request does not ask for a stream, its credit is covered, and the proxy answers it.
structure Asks (env : Env) (body response : Json.Fields) : Prop where
  plain    : (body.get "stream" (.bool false)).truthy = false
  covers   : ∃ model markupRate q,
    Covers env body (Endpoint.chat <$> maxTokens env body) model markupRate q
  answered : Answered env body response

-- The message of a choice has a content that is a text.
def HasContent (choice : Json) (text : String) : Prop :=
  ∃ fields message : Json.Fields, choice = .dict fields ∧
    fields.get "message" (.dict []) = .dict message ∧ message.lookup "content" = some (.str text)

-- The contents of an answer, which has any number of choices.
def Contents (response : Json.Fields) (texts : List String) : Prop :=
  ∃ choices, response.get "choices" (.list []) = .list choices ∧
    List.Forall₂ HasContent choices texts

def Banned (lower : String → String) (rows : List GuardrailKeyword) (text : String) : Prop :=
  ∃ row, Bans lower rows .output text row

-- No choice has a content with a keyword that is banned.
def Clean (lower : String → String) (rows : List GuardrailKeyword) (response : Json.Fields) :
    Prop :=
  ∀ texts, Contents response texts → ∀ text ∈ texts, ¬Banned lower rows text

-- The first choice, as long as it is not empty, has a banned keyword if any of the choices has one.
def Covered (lower : String → String) (rows : List GuardrailKeyword) (response : Json.Fields) :
    Prop :=
  ∀ text texts, Contents response (text :: texts) →
    (∃ other ∈ text :: texts, Banned lower rows other) → text ≠ "" ∧ Banned lower rows text

-- The check of the output, as far as it reads the answer.
def Passes (env : Env) (response : Json.Fields) : Prop :=
  ∃ content result, outputText response = .ok content ∧
    checkOutput env.lower content (env.keywords .output) = .ok result ∧ result.violated = false

theorem deliver_result_iff {routed : Routed} {answer : Json.Fields} :
    (deliver env routed answer).result = .ok (.json response) ↔
      answer = response ∧ Passes env answer := by
  rw [deliver, Passes]
  cases outputText answer
  case error e    => exact iff_of_false (by rintro ⟨⟩) (by simp)
  case ok content =>
    rw [lift_ok, pure_bind]
    cases hc : checkOutput env.lower content (env.keywords .output)
    case error e   => exact iff_of_false (by rintro ⟨⟩) (by simp [hc])
    case ok result =>
      rw [lift_ok, pure_bind]
      by_cases hr : result.violated
      case pos =>
        have hf : Refused env (screen env .output "Response" result >>= fun _ =>
            addTask env routed answer >>= fun _ => pure (Response.json answer)) :=
          refused_screen_bind hr
        obtain ⟨e, he⟩ := hf.failed
        rw [he]
        exact iff_of_false (by rintro ⟨⟩) (by simp [hc, hr])
      case neg =>
        rw [screen, if_neg hr, pure_bind, addTask, Traced.result_emit_bind, Traced.result_pure]
        simp [hc, hr]

theorem post_bind_result_of_ok {f : Json.Fields → Handler α}
    (h : env.post path body = .ok response) :
    (post env path body >>= f).result = (f response).result := by
  simp [post, h]

theorem post_bind_result_of_error {f : Json.Fields → Handler α}
    (h : env.post path body = .error e) : ∃ e', (post env path body >>= f).result = .error e' := by
  simp only [post, h, bind_assoc, Traced.result_emit_bind]
  cases e <;> exact ⟨_, rfl⟩

theorem serveChat_result_iff (hm : (findModel env body).result = .ok model) :
    (serveChat env body model markupRate).result = .ok (.json response) ↔
      (body.get "stream" (.bool false)).truthy = false ∧ Answered env body response ∧
        Passes env response := by
  rw [serveChat]
  cases ht : chatText env body
  case error e =>
    refine iff_of_false (by rintro ⟨⟩) ?_
    rintro ⟨_, ⟨_, _, _, _, h, _⟩, _⟩
    cases ht.symm.trans h
  case ok inputText =>
    rw [lift_ok, pure_bind]
    have ha : Answered env body response ↔ ∃ provider, Approves env model inputText provider ∧
        env.post .chatCompletions (forwarded env body model provider).1 = .ok response := by
      simp [Answered, hm, ht]
    rw [ha]
    cases approve_cases env body model markupRate inputText
    case inl hr =>
      obtain ⟨e, he⟩ := (hr.right _).failed
      rw [he]
      refine iff_of_false (by rintro ⟨⟩) ?_
      rintro ⟨_, ⟨provider, hp, _⟩, _⟩
      exact hr.left provider hp
    case inr hr =>
      obtain ⟨provider, hp, hr⟩ := hr
      let routed := approved env body model markupRate inputText provider
      have hr : approve env body model markupRate inputText = pure routed := hr
      have hb : routed.body.get "stream" (.bool false) = body.get "stream" (.bool false) :=
        forward_get (by decide)
      have ha : (∃ provider, Approves env model inputText provider ∧
          env.post .chatCompletions (forwarded env body model provider).1 = .ok response) ↔
          env.post .chatCompletions routed.body = .ok response := by
        refine ⟨?_, fun h => ⟨provider, hp, h⟩⟩
        rintro ⟨provider', hp', h⟩
        cases Option.some.inj (hp.right.symm.trans hp'.right)
        exact h
      rw [hr, pure_bind, hb, ha]
      split
      case isTrue hs  => exact iff_of_false (by rintro ⟨⟩) fun h => by simp [hs] at h
      case isFalse hs =>
        rw [and_iff_right (by simpa using hs)]
        cases he : env.post .chatCompletions routed.body
        case error e =>
          obtain ⟨e', h⟩ := post_bind_result_of_error (f := deliver env routed) he
          rw [h]
          exact iff_of_false (by rintro ⟨⟩) (by rintro ⟨⟨⟩, _⟩)
        case ok answer =>
          rw [post_bind_result_of_ok he, deliver_result_iff, Except.ok.injEq]
          refine and_congr_right fun ha => ?_
          rw [ha]

-- The answer is returned exactly if the request gets as far as to it, and its check passes.
theorem chatCompletions_result_iff :
    (chatCompletions env body).result = .ok (.json response) ↔
      Asks env body response ∧ Passes env response := by
  rw [chatCompletions]
  cases prepare_covers_cases env body (Endpoint.chat <$> maxTokens env body)
  case inl hp =>
    obtain ⟨-, ⟨e, hr⟩, hn⟩ := hp
    rw [Traced.result_bind_of_error hr]
    refine iff_of_false (by rintro ⟨⟩) ?_
    rintro ⟨h, _⟩
    obtain ⟨model, markupRate, q, hc⟩ := h.covers
    exact hn model markupRate q hc
  case inr hp =>
    obtain ⟨model, markupRate, q, hm, hc, hr, -⟩ := hp
    rw [Traced.result_bind_of_ok hr]
    rw [serveChat_result_iff hm]
    constructor
    case mp =>
      rintro ⟨hs, ha, hp⟩
      exact ⟨⟨hs, ⟨model, markupRate, q, hc⟩, ha⟩, hp⟩
    case mpr =>
      rintro ⟨h, hp⟩
      exact ⟨h.plain, h.answered, hp⟩

theorem hasContent_rightUnique : Relator.RightUnique HasContent := by
  rintro _ text text' ⟨_, _, rfl, hm, hl⟩ ⟨_, _, hc, hm', hl'⟩
  cases hc
  cases hm.symm.trans hm'
  cases hl.symm.trans hl'
  rfl

theorem Contents.unique (h : Contents response texts) (h' : Contents response texts') :
    texts = texts' := by
  obtain ⟨choices, hc, ht⟩ := h
  obtain ⟨choices', hc', ht'⟩ := h'
  cases hc.symm.trans hc'
  exact hasContent_rightUnique.forall₂ ht ht'

-- What is checked of an answer with texts in its choices.
theorem outputText_of_contents (h : Contents response texts) :
    outputText response = .ok (.str <| texts.head?.getD "") := by
  have ⟨choices, hc, ht⟩ := h
  rw [outputText_eq, hc]
  cases ht
  case nil => rfl
  case cons head tail =>
    obtain ⟨fields, message, rfl, hm, hl⟩ := head
    simp [Json.head, Json.get, Json.contains, Json.item, Except.bind, messageContent_eq, hm, hl]

theorem passes_iff (hk : LoadsKeywords rows (env.keywords .output))
    (h : Contents response (text :: texts)) :
    Passes env response ↔ ¬(text ≠ "" ∧ Banned env.lower rows text) := by
  have ⟨result, hc, hv⟩ := verdict_of_loads env.lower .output text hk
  have hc : checkOutput env.lower (.str text) (env.keywords .output) = .ok result := hc
  have ho : outputText response = .ok (.str text) := outputText_of_contents h
  rw [Passes, Banned, ← hv.violated]
  simp [ho, hc]

-- Only the first choice is checked: an answer that may be returned is clean exactly if it covers
-- the other choices.
theorem clean_iff_covered (hk : LoadsKeywords rows (env.keywords .output)) :
    (∀ response, (chatCompletions env body).result = .ok (.json response) →
      Clean env.lower rows response) ↔
    ∀ response, Asks env body response → Covered env.lower rows response := by
  refine forall_congr' fun response => ?_
  rw [chatCompletions_result_iff]
  constructor
  case mp =>
    intro h ha text texts hc ⟨other, hm, hb⟩
    by_contra hn
    exact h ⟨ha, (passes_iff hk hc).mpr hn⟩ _ hc other hm hb
  case mpr =>
    intro h ⟨ha, hp⟩ texts hc other hm hb
    cases texts
    case nil            => contradiction
    case cons text rest => exact (passes_iff hk hc).mp hp (h ha text rest hc ⟨other, hm, hb⟩)

-- An answer with two choices, where the keyword "bad" is banned.
def choices (first second : String) : Json.Fields :=
  let choice text := Json.dict [("message", .dict [("content", .str text)])]
  [("choices", .list [choice first, choice second])]

def Env.guarded (first second : String) : Env :=
  { Env.answering (choices first second) with keywords := fun _ => [⟨"bad", .output⟩] }

theorem contents_choices (first second : String) :
    Contents (choices first second) [first, second] :=
  ⟨_, rfl, .cons ⟨_, _, rfl, rfl, rfl⟩ <| .cons ⟨_, _, rfl, rfl, rfl⟩ .nil⟩

theorem asks_guarded (first second : String) :
    Asks (Env.guarded first second) [("model", .str "m"), ("max_tokens", .int 1)]
      (choices first second) where
  plain    := rfl
  covers   := by
    have ht : maxTokens (Env.guarded first second)
        [("model", .str "m"), ("max_tokens", .int 1)] = .ok 1 := by
      simp only [maxTokens, Env.guarded, Env.answering]
      decide +kernel
    exact ⟨_, _, _, {
      found    := rfl
      resolved := rfl
      estimate := ⟨.chat 1, by rw [ht]; rfl, rfl⟩
      covered  := ⟨_, if_neg (by decide +kernel)⟩ }⟩
  answered := ⟨_, _, _, rfl, rfl, ⟨rfl, rfl⟩, rfl⟩

-- The second choice of an answer has a banned content.
theorem not_clean_of_second_choice :
    ¬∀ (env : Env) (body response : Json.Fields) (rows : List GuardrailKeyword),
      LoadsKeywords rows (env.keywords .output) →
      (chatCompletions env body).result = .ok (.json response) →
      Clean env.lower rows response := by
  intro h
  have hk : LoadsKeywords [⟨1, "bad", .output, true⟩] [⟨"bad", .output⟩] := .refl _
  have hr := chatCompletions_result_iff.mpr
    ⟨asks_guarded "good" "bad", _, _, rfl, rfl, by decide +kernel⟩
  refine h _ _ _ _ hk hr _ (contents_choices "good" "bad") "bad" (by simp) ?_
  exact ⟨_, List.mem_singleton_self _, rfl, .inl rfl, List.infix_refl _⟩

-- None of the choices has a banned content.
theorem clean_of_good_choices :
    (chatCompletions (Env.guarded "good" "good")
      [("model", .str "m"), ("max_tokens", .int 1)]).result =
        .ok (.json <| choices "good" "good") ∧
    Clean id [⟨1, "bad", .output, true⟩] (choices "good" "good") := by
  have hk : LoadsKeywords [⟨1, "bad", .output, true⟩]
    ((Env.guarded "good" "good").keywords .output) := .refl _
  have hr := chatCompletions_result_iff.mpr
    ⟨asks_guarded "good" "good", _, _, rfl, rfl, by decide +kernel⟩
  refine ⟨hr, (clean_iff_covered hk).mpr (fun response ha text texts hc hb => ?_) _ hr⟩
  obtain ⟨_, _, _, _, _, _, ha⟩ := ha.answered
  cases ha
  obtain ⟨other, hm, row, hb⟩ := hb
  have ho : other = "good" := by
    cases hc.unique (contents_choices "good" "good")
    simpa using hm
  cases List.mem_singleton.mp hb.mem
  exact absurd (ho ▸ hb.contains) (by decide)

end Gateway
