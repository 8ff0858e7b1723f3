import AstraGate.Api.Theorems.Pricing

open Python

namespace Gateway

-- A stream that yields `chunks`, and is exhausted then.
def Stream.ofChunks : List (List UInt8) → Stream
  | []              => exhausted
  | chunk :: chunks => next chunk (ofChunks chunks)

-- The text after `data:` of a line that has an event.
def dataStr (line : List Char) : Option String :=
  if "data:".toList.isPrefixOf line then
    let dataStr := String.ofList <| strip (line.drop 5)
    if dataStr = "[DONE]" then none else some dataStr
  else
    none

-- The data events whose lines are in a chunk.
def dataEvents (loads : String → Option Json) (chunk : List UInt8) : List (Option Json) :=
  (strip <| decode 0 chunk).splitOn '\n' |>.filterMap dataStr |>.map loads

-- The text that the delta of a data event has: the empty one, if there is no choice or it has no
-- content. A delta or a content of `null` has no text, and the code that reads it raises.
inductive Delta (data : Json.Fields) : Option String → Prop
  | noChoice (choices : (data.get "choices" (.list [])).truthy = false) : Delta data (some "")
  | noContent (choice delta : Json.Fields) (rest : List Json)
    (choices : data.get "choices" (.list []) = .list (.dict choice :: rest))
    (found : choice.get "delta" (.dict []) = .dict delta)
    (content : delta.lookup "content" = none) : Delta data (some "")
  | content (choice delta : Json.Fields) (rest : List Json) (text : String)
    (choices : data.get "choices" (.list []) = .list (.dict choice :: rest))
    (found : choice.get "delta" (.dict []) = .dict delta)
    (content : delta.lookup "content" = some (.str text)) : Delta data (some text)
  | nullContent (choice delta : Json.Fields) (rest : List Json)
    (choices : data.get "choices" (.list []) = .list (.dict choice :: rest))
    (found : choice.get "delta" (.dict []) = .dict delta)
    (content : delta.lookup "content" = some .null) : Delta data none
  | nullDelta (choice : Json.Fields) (rest : List Json)
    (choices : data.get "choices" (.list []) = .list (.dict choice :: rest))
    (found : choice.get "delta" (.dict []) = .null) : Delta data none

-- A data event, and the text of its delta.
structure Event where
  data  : Json.Fields
  text? : Option String
  delta : Delta data text?

namespace Event

def text (e : Event) : String :=
  e.text?.getD ""

-- The usage block of an event, unless it is empty.
def usage? (e : Event) : Option Json :=
  some (e.data.get "usage" .null) |>.filter Json.truthy

end Event

-- What the generator reads of the events of each chunk: all of them up to one that raises.
def heard (groups : List (List Event)) : List Event :=
  groups.flatMap (·.takeWhile (·.text?.isSome))

-- The last usage block that is read.
def told (groups : List (List Event)) : Option Json :=
  heard groups |>.filterMap Event.usage? |>.getLast?

-- An answer with a usage block and a flag, and chunks that stream it: the deltas of their events
-- make up its content, and the last event has its usage block and its flag.
structure Streams (loads : String → Option Json) (chunks : List (List UInt8))
    (answer : Json.Fields) (groups : List (List Event)) (last : Event) : Prop where
  data     : chunks.map (dataEvents loads) = groups.map (·.map (some <| .dict ·.data))
  content  : ∃ content, outputText answer = .ok content ∧
    let text := String.join <| groups.flatten.map Event.text
    (content = .str text ∨ content = .null ∧ text = "")
  block    : ∃ usage, answer.get "usage" .null = .dict usage
  flag     : ∃ b, answer.get "cache_hit" .null = .bool b
  ends     : groups.flatten.getLast? = some last
  usage    : last.data.get "usage" .null = answer.get "usage" .null
  cacheHit : last.data.get "cache_hit" .null = answer.get "cache_hit" .null

namespace Reconstruction

variable {loads : String → Option Json} {r : Reconstruction} {e : Event}

-- What a data event adds to what has been collected.
def add (r : Reconstruction) (e : Event) : Reconstruction where
  fullText  := r.fullText ++ e.text
  usageDict := e.usage?.getD r.usageDict

theorem readData_eq (h : e.text?.isSome) : r.readData (.dict e.data) = pure (r.add e) := by
  obtain ⟨data, text, hd⟩ := e
  have hg : data.get "usage" .null = (data.lookup "usage").getD .null := rfl
  simp only [readData, add, Event.text, Event.usage?, hg]
  cases hd
  case nullContent => cases h
  case nullDelta   => cases h
  all_goals
    cases hl : data.lookup "usage"
    case none       => simp [*, Json.item_dict, Json.truthy_null, Option.filter]
    case some usage => cases ht : usage.truthy <;> simp [*, Json.item_dict, Option.filter]

theorem readData_raises (h : e.text? = none) :
    ∃ error, r.readData (.dict e.data) = .error error := by
  obtain ⟨data, text, hd⟩ := e
  cases hd
  case noChoice    => cases h
  case noContent   => cases h
  case content     => cases h
  case nullContent => exact ⟨.typeError, by simp [readData, *, Json.item_dict]; rfl⟩
  case nullDelta   => exact ⟨.typeError, by simp [readData, *]; rfl⟩

theorem readLine_of_none (h : dataStr line = none) : r.readLine loads line = .ok r := by
  simp only [dataStr] at h
  simp only [readLine]
  split_ifs at h ⊢
  · rfl
  · rfl

theorem readLine_of_some (h : dataStr line = some s) (hl : loads s = some data) :
    r.readLine loads line = r.readData data := by
  simp only [dataStr] at h
  simp only [readLine]
  split_ifs at h ⊢
  cases h
  simp only [hl]

-- Events are read one after another, whatever stands between their lines, up to one that raises.
theorem readLines_eq {group : List Event}
    (h : (lines.filterMap dataStr).map loads = group.map (some <| .dict ·.data)) :
    r.readLines loads lines = (group.takeWhile (·.text?.isSome)).foldl add r := by
  induction lines generalizing r group
  case nil =>
    cases group
    case nil  => rfl
    case cons => contradiction
  case cons line lines ih =>
    unfold readLines
    cases hs : dataStr line
    case none =>
      rw [readLine_of_none hs]
      exact ih (by simpa [hs] using h)
    case some s =>
      cases group
      case nil => simp [hs] at h
      case cons e group =>
        simp only [List.filterMap_cons, hs, List.map_cons, List.cons.injEq] at h
        rw [readLine_of_some hs h.left]
        cases he : e.text?
        case none =>
          have ⟨error, hr⟩ := readData_raises (r := r) he
          simp [hr, he]
        case some text =>
          rw [readData_eq (by rw [he]; rfl), List.takeWhile_cons_of_pos (by rw [he]; rfl)]
          exact ih h.right

-- It does not matter how the chunks are cut between the lines, except that nothing is read of a
-- chunk behind an event that raises.
theorem foldl_readChunk {chunks : List (List UInt8)} {groups : List (List Event)}
    (h : chunks.map (dataEvents loads) = groups.map (·.map (some <| .dict ·.data))) :
    chunks.foldl (readChunk loads) r = (heard groups).foldl add r := by
  induction chunks generalizing r groups
  case nil =>
    cases groups
    case nil  => rfl
    case cons => contradiction
  case cons chunk chunks ih =>
    cases groups
    case nil => contradiction
    case cons group groups =>
      have ⟨hg, h⟩ := List.cons.inj h
      rw [heard, List.flatMap_cons, List.foldl_append, List.foldl_cons, readChunk,
        readLines_eq hg]
      exact ih h

theorem foldl_add_fullText {events : List Event} :
    (events.foldl add r).fullText = r.fullText ++ String.join (events.map Event.text) := by
  induction events generalizing r
  case nil              => simp
  case cons e events ih => simp [ih, add, String.append_assoc]

theorem foldl_add_usageDict {events : List Event} :
    (events.foldl add r).usageDict = (events.filterMap Event.usage?).getLast?.getD r.usageDict := by
  induction events generalizing r
  case nil => rfl
  case cons e events ih =>
    rw [List.foldl_cons, ih, add, List.filterMap_cons]
    cases e.usage? <;> simp [List.getLast?_cons]

end Reconstruction

variable {env : Env} {routed : Routed} {r : Reconstruction} {groups : List (List Event)}

-- What a request is estimated to have used if the stream does not tell.
def estimated (inputText fullText : String) : PostProcess.TokenCounts where
  promptTokens     := (max 1 (inputText.length / 4) : Nat)
  completionTokens := (max 1 (fullText.length / 4) : Nat)
  totalTokens      := (max 2 (inputText.length / 4 + fullText.length / 4) : Nat)

-- The counts that a stream is recorded with.
def counted (intOf : Json.IntOf) (inputText : String) (groups : List (List Event)) :
    Except Error PostProcess.TokenCounts :=
  match told groups with
  | some usage => PostProcess.extractUsage intOf [("usage", usage)]
  | none       => .ok <| estimated inputText <| String.join <| (heard groups).map Event.text

theorem truthy_of_told (h : told groups = some usage) : usage.truthy := by
  have hm := List.mem_of_getLast? h
  have ⟨e, _, he⟩ := List.mem_filterMap.mp hm
  exact (Option.filter_eq_some_iff.mp he).right

theorem tokenCount_int {usage : Json.Fields} {n : ℕ} {m : ℤ} (h : usage.get key .null = .int n)
    (hn : 0 < n) : PostProcess.tokenCount intOf (.dict usage) key m = pure (n : ℤ) := by
  have ht : (Json.int n).truthy := by simp [Json.truthy, hn.ne']
  rw [PostProcess.tokenCount, Json.get_dict, h, pure_bind, if_pos ht]
  rfl

theorem extractUsage_estimate {prompt completion total : ℕ} {response : Json.Fields}
    (h : response.get "usage" .null = .dict [("prompt_tokens", .int prompt),
      ("completion_tokens", .int completion), ("total_tokens", .int total)])
    (hp : 0 < prompt) (hc : 0 < completion) (ht : 0 < total) :
    PostProcess.extractUsage intOf response = .ok ⟨prompt, completion, total⟩ := by
  simp only [PostProcess.extractUsage, h, Json.truthy, List.isEmpty_cons, Bool.not_false, if_true]
  rw [tokenCount_int rfl hp, pure_bind, tokenCount_int rfl hc, pure_bind, tokenCount_int rfl ht,
    pure_bind]
  rfl

theorem extractUsage_response (hr : r.usageDict = (told groups).getD .null)
    (ht : r.fullText = String.join ((heard groups).map Event.text)) :
    PostProcess.extractUsage intOf (r.response inputText) = counted intOf inputText groups := by
  rw [counted]
  cases hu : told groups
  case some usage =>
    have hg : (r.response inputText).get "usage" .null = usage := by
      have hd : r.usageDict = usage := by rw [hr, hu]; rfl
      exact (if_pos (hd ▸ truthy_of_told hu)).trans hd
    simp only [PostProcess.extractUsage, hg]
    rfl
  case none =>
    have hd : r.usageDict = .null := by rw [hr, hu]; rfl
    rw [← ht]
    refine extractUsage_estimate (if_neg (by rw [hd]; decide)) ?_ ?_ ?_ <;> omega

theorem detectCacheHit_response : PostProcess.detectCacheHit (r.response inputText) = false :=
  rfl

theorem relay_ofChunks : (relay env routed r <| .ofChunks chunks).trace =
    chunks.map .send ++
      [.addTask <| task env routed <|
        (chunks.foldl (Reconstruction.readChunk env.loads) r).response routed.inputText] := by
  induction chunks generalizing r
  case nil                  => rfl
  case cons chunk chunks ih =>
    rw [Stream.ofChunks, relay, Traced.trace_emit_bind, ih]
    rfl

theorem task_of_streamGenerator (ht : .addTask args ∈
    (streamGenerator env routed <| .ofChunks chunks).trace) :
    args = task env routed
      ((chunks.foldl (Reconstruction.readChunk env.loads) .empty).response routed.inputText) := by
  rw [streamGenerator, Traced.trace_emit_bind, relay_ofChunks] at ht
  simpa using ht

theorem task_of_deliver (ht : .addTask args ∈ (deliver env routed answer).trace) :
    args = task env routed answer := by
  cases silent_or_addTask_of_deliver _ ht
  case inl hs => contradiction
  case inr he => exact Effect.addTask.inj he

theorem told_of_last {loads : String → Option Json} (hs : Streams loads chunks answer groups last)
    (hl : (heard groups).getLast? = some last) (ht : (answer.get "usage" .null).truthy) :
    told groups = some (answer.get "usage" .null) := by
  have ⟨before, hb⟩ := List.getLast?_eq_some_iff.mp hl
  have hu : last.usage? = some (answer.get "usage" .null) := by
    rw [Event.usage?, hs.usage]
    exact Option.filter_eq_some_iff.mpr ⟨rfl, ht⟩
  rw [told, hb, List.filterMap_append, List.filterMap_cons_some hu]
  exact List.getLast?_concat

-- The row of a response that cannot be read is not written.
theorem toOption_bill (response : Json.Fields) :
    (PostProcess.bill intOf model markupRate response).toOption =
      (PostProcess.extractUsage intOf response).toOption.map fun tokens =>
        if PostProcess.detectCacheHit response then
          { tokens, cacheHit := true, baseCost := 0, billedAmount := 0 }
        else
          let baseCost := PostProcess.computeBaseCost tokens.promptTokens tokens.completionTokens
            model.inputPricePer1m model.outputPricePer1m
          { tokens, cacheHit := false, baseCost,
            billedAmount := PostProcess.billedAmount baseCost markupRate } := by
  rw [PostProcess.bill]
  cases PostProcess.extractUsage intOf response
  case error => rfl
  case ok    => cases PostProcess.detectCacheHit response <;> rfl

-- An answer and a stream of it are billed alike, with the same model and markup, if and only if the
-- generator has read the usage block, or what it takes for it has the same counts, and the answer
-- does not come from the cache. Where no counts can be read neither of the two is recorded.
theorem bill_streamed_eq_iff {model : Model} {routed routed' : Routed}
    (hs : Streams env.loads chunks answer groups last) (hr : routed'.markupRate = routed.markupRate)
    (hd : .addTask delivered ∈ (deliver env routed answer).trace)
    (hg : .addTask streamed ∈ (streamGenerator env routed' <| .ofChunks chunks).trace) :
    (PostProcess.bill intOf model streamed.markupRate streamed.litellmResponse).toOption =
        (PostProcess.bill intOf model delivered.markupRate delivered.litellmResponse).toOption ↔
      ((heard groups).getLast? = some last ∧ (answer.get "usage" .null).truthy ∨
          (counted intOf routed'.inputText groups).toOption =
            (PostProcess.extractUsage intOf answer).toOption) ∧
        (PostProcess.detectCacheHit answer = false ∨
          (PostProcess.extractUsage intOf answer).toOption = none) := by
  have hu : PostProcess.extractUsage intOf streamed.litellmResponse =
      counted intOf routed'.inputText groups := by
    rw [task_of_streamGenerator hg, Reconstruction.foldl_readChunk hs.data]
    refine extractUsage_response Reconstruction.foldl_add_usageDict ?_
    exact Reconstruction.foldl_add_fullText.trans String.empty_append
  have hc : PostProcess.detectCacheHit streamed.litellmResponse = false := by
    rw [task_of_streamGenerator hg]
    exact detectCacheHit_response
  have hm : streamed.markupRate = delivered.markupRate := by
    rw [task_of_streamGenerator hg, task_of_deliver hd]
    exact hr
  have ha : delivered.litellmResponse = answer := by
    rw [task_of_deliver hd]
    rfl
  have ht : (heard groups).getLast? = some last ∧ (answer.get "usage" .null).truthy →
      (counted intOf routed'.inputText groups).toOption =
        (PostProcess.extractUsage intOf answer).toOption := by
    intro ⟨hl, ht⟩
    simp only [counted, told_of_last hs hl ht]
    rfl
  rw [or_iff_right_of_imp ht, toOption_bill, toOption_bill, hu, hc, hm, ha]
  generalize (counted intOf routed'.inputText groups).toOption = counts
  cases (PostProcess.extractUsage intOf answer).toOption
  case none => simp
  case some tokens =>
    cases counts
    case none => simp
    case some tokens' =>
      cases PostProcess.detectCacheHit answer <;> simp +contextual

-- An answer without choices that has used a token, and the text of the only event that streams it.
def tokenAnswer (cacheHit : Bool) : Json.Fields :=
  [("usage", .dict [("prompt_tokens", .int 1)]), ("cache_hit", .bool cacheHit)]

def tokenEvent (cacheHit : Bool) : String :=
  "\x7b\"usage\":\x7b\"prompt_tokens\":1\x7d,\"cache_hit\":" ++
    (if cacheHit then "true" else "false") ++ "\x7d"

def tokenChunk (cacheHit : Bool) : List UInt8 :=
  ("data: " ++ tokenEvent cacheHit).toUTF8.toList

def Env.streaming (cacheHit : Bool) : Env :=
  { Env.answering (tokenAnswer cacheHit) with
    loads := fun s =>
      if s = tokenEvent cacheHit then some (.dict (tokenAnswer cacheHit)) else none }

theorem streams_tokenAnswer (cacheHit : Bool) :
    Streams (Env.streaming cacheHit).loads [tokenChunk cacheHit] (tokenAnswer cacheHit)
      [[⟨tokenAnswer cacheHit, some "", .noChoice rfl⟩]]
      ⟨tokenAnswer cacheHit, some "", .noChoice rfl⟩ where
  data     := by
    have hd : ((strip <| decode 0 <| tokenChunk cacheHit).splitOn '\n').filterMap dataStr =
        [tokenEvent cacheHit] := by
      cases cacheHit <;> decide +kernel
    rw [List.map_singleton, dataEvents, hd]
    exact congrArg (fun o => [[o]]) (if_pos rfl)
  content  := ⟨.str "", rfl, .inl rfl⟩
  block    := ⟨_, rfl⟩
  flag     := ⟨cacheHit, rfl⟩
  ends     := rfl
  usage    := rfl
  cacheHit := rfl

theorem not_bill_streamed_eq_of_cacheHit :
    ¬∀ (env : Env) (routed routed' : Routed) (chunks : List (List UInt8)) (answer : Json.Fields)
      (groups : List (List Event)) (last : Event) (intOf : Json.IntOf) (model : Model)
      (delivered streamed : PostProcess.Arguments),
      Streams env.loads chunks answer groups last → routed'.markupRate = routed.markupRate →
      .addTask delivered ∈ (deliver env routed answer).trace →
      .addTask streamed ∈ (streamGenerator env routed' <| .ofChunks chunks).trace →
      (PostProcess.bill intOf model streamed.markupRate streamed.litellmResponse).toOption =
        (PostProcess.bill intOf model delivered.markupRate delivered.litellmResponse).toOption := by
  intro h
  let routed : Routed := ⟨"hi", [("model", .str "m")], 1, 1, false, 1 / 5⟩
  let model : Model := ⟨1, 1, "m", 1, 1, none, true⟩
  have hb := h (.streaming true) routed routed _ _ _ _ intOfNone model _ _
    (streams_tokenAnswer true) rfl (.head _) (.tail _ <| .tail _ <| .head _)
  have hd : (PostProcess.bill intOfNone model (1 / 5) (tokenAnswer true)).toOption =
      some ⟨⟨1, 0, 1⟩, true, 0, 0⟩ := rfl
  rw [toOption_bill] at hb
  have ⟨tokens, _, hc⟩ := Option.map_eq_some_iff.mp (hb.trans hd)
  exact Bool.false_ne_true (congrArg PostProcess.Bill.cacheHit hc)

theorem bill_streamed_eq_of_no_cacheHit :
    let routed : Routed := ⟨"hi", [("model", .str "m")], 1, 1, false, 1 / 5⟩
    let model : Model := ⟨1, 1, "m", 1, 1, none, true⟩
    ∃ delivered streamed, .addTask delivered ∈
        (deliver (.streaming false) routed (tokenAnswer false)).trace ∧
      .addTask streamed ∈
        (streamGenerator (.streaming false) routed <| .ofChunks [tokenChunk false]).trace ∧
      (PostProcess.bill intOfNone model streamed.markupRate streamed.litellmResponse).toOption =
        (PostProcess.bill intOfNone model delivered.markupRate
          delivered.litellmResponse).toOption := by
  intro routed model
  refine ⟨_, _, .head _, .tail _ <| .tail _ <| .head _, ?_⟩
  exact (bill_streamed_eq_iff (streams_tokenAnswer false) rfl (.head _)
    (.tail _ <| .tail _ <| .head _)).mpr ⟨.inl ⟨rfl, rfl⟩, .inl rfl⟩

end Gateway
