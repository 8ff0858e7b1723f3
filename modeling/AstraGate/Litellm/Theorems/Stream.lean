import AstraGate.Api.Theorems.Chunking
import AstraGate.Lib.Json.RoundTrip
import AstraGate.Litellm.MockLitellm

open Python

namespace Gateway

variable {floatRepr : String → String} {loads : String → Option Json} {r : Reconstruction}

-- An event with a single line, which has the payload.
def Sse.ofData (payload : List Char) (h : '\n' ∉ payload) : Sse where
  lines := [{
    text    := "data: ".toList ++ payload
    oneLine := by simp [h]
    starts  := ⟨'d', _, rfl, by decide⟩ }]
  crlf  := false

-- An event whose data can be written by `json.dumps` and read back.
structure Sent extends Event where
  plain : (Json.dict data).Plain
  read  : text?.isSome

namespace Sent

theorem oneLine (e : Sent) : '\n' ∉ Json.encode (.dict e.data) :=
  fun h => absurd (Json.printable_encode e.plain _ h) (by decide)

def sse (e : Sent) : Sse :=
  .ofData _ e.oneLine

theorem dataStr_line (e : Sent) (h : l ∈ e.sse.lines) :
    dataStr l.text = some (Json.dumps (.dict e.data)) := by
  cases List.mem_singleton.mp h
  have ⟨text, ht⟩ := Json.encode_dict_eq e.data
  have hs : strip (("data: ".toList ++ Json.encode (.dict e.data)).drop 5) =
      Json.encode (.dict e.data) := by
    change strip (' ' :: Json.encode (.dict e.data)) = _
    rw [strip_cons_space (by decide), ht, strip_between (by decide) (by decide)]
  have hd : Json.dumps (.dict e.data) ≠ "[DONE]" := by
    intro he
    have hl := congrArg String.toList he
    rw [Json.dumps, String.toList_ofList, ht] at hl
    exact absurd (List.cons.inj hl).left (by decide)
  have hp : "data:".toList.isPrefixOf ("data: ".toList ++ Json.encode (.dict e.data)) := rfl
  rw [dataStr, if_pos hp, hs]
  exact if_neg hd

theorem readLine_line (e : Sent) (h : l ∈ e.sse.lines) :
    r.readLine (Json.loads floatRepr) l.text = .ok (r.add e.toEvent) :=
  (Reconstruction.readLine_of_some (e.dataStr_line h) (Json.loads_dumps floatRepr e.plain)).trans
    (Reconstruction.readData_eq e.read)

end Sent

-- The event after the last one.
def Sse.done : Sse :=
  .ofData "[DONE]".toList (by decide)

theorem readLine_done (h : l ∈ Sse.done.lines) : r.readLine loads l.text = .ok r := by
  cases List.mem_singleton.mp h
  exact Reconstruction.readLine_of_none (by decide)

-- What is sent as text is read back.
theorem carried_sent (events : List Sent) :
    carried (Json.loads floatRepr) (events.map Sent.sse ++ [.done]) =
      (events.map Sent.toEvent).foldl Reconstruction.add .empty := by
  have hd : ∀ r : Reconstruction,
      Sse.done.lines.foldl (Reconstruction.readAlone (Json.loads floatRepr)) r = r :=
    fun r => Reconstruction.readAlone_of_ok
      (@readLine_done (Json.loads floatRepr) r _ List.mem_cons_self)
  have he : ∀ (r : Reconstruction) (e : Sent),
      e.sse.lines.foldl (Reconstruction.readAlone (Json.loads floatRepr)) r = r.add e.toEvent :=
    fun r e => Reconstruction.readAlone_of_ok (e.readLine_line List.mem_cons_self)
  simp only [carried, List.flatMap_append, List.flatMap_map, List.foldl_append, List.foldl_flatMap,
    List.foldl_map, he, List.flatMap_singleton, hd]

theorem legible_sent {events : List Sent}
    (h : l ∈ (events.map Sent.sse ++ [Sse.done]).flatMap Sse.lines) :
    l.Legible (Json.loads floatRepr) := by
  intro r
  have ⟨e, he, hl⟩ := List.mem_flatMap.mp h
  cases List.mem_append.mp he
  case inl he =>
    obtain ⟨e, _, rfl⟩ := List.mem_map.mp he
    exact ⟨_, e.readLine_line hl⟩
  case inr he => exact ⟨r, readLine_done (List.mem_singleton.mp he ▸ hl)⟩

-- The chunks are only cut between lines and the ends of lines.
def Whole (chunks : List (List UInt8)) (events : List Sse) : Prop :=
  ∃ groups : List (List Piece), chunks = groups.map Piece.bytes ∧
    groups.flatten = events.flatMap Sse.pieces

-- Each event arrives by itself.
theorem whole_events (events : List Sse) : Whole (events.map fun e => Sse.bytes [e]) events :=
  ⟨events.map Sse.pieces, by simp [Sse.bytes], rfl⟩

theorem Whole.uncut (h : Whole chunks events)
    (hl : ∀ l ∈ events.flatMap Sse.lines, l.Legible loads) : Uncut loads chunks events := by
  have ⟨groups, hc, hf⟩ := h
  refine ⟨groups, hc, hf, fun group hg l hm => hl l ?_⟩
  have ⟨p, hp, hpl⟩ := List.mem_filterMap.mp (List.mem_of_mem_dropLast hm)
  have hm : l ∈ groups.flatten.filterMap Piece.line? :=
    List.mem_filterMap.mpr ⟨p, List.mem_flatten_of_mem hg hp, hpl⟩
  rwa [hf, Piece.filterMap_line?_pieces] at hm

end Gateway

namespace MockLitellm

open Gateway

-- The counts that are read of an answer of Gemini.
def countKeys : List String :=
  ["promptTokenCount", "candidatesTokenCount", "totalTokenCount"]

-- These are integers, where Gemini has them.
def Counts (env : Env) : Prop :=
  ∀ payload response data usageMeta, ∀ key ∈ countKeys, ∀ count, env.post payload = .ok response →
    env.loads response.text = some data → data.get "usageMetadata" (.dict []) = .ok usageMeta →
    usageMeta.get key .null = .ok count → count = .null ∨ ∃ n, count = .int n

structure Completion.Counted (c : Completion) : Prop where
  prompt     : ∃ n, c.promptTokens = .int n
  completion : ∃ n, c.completionTokens = .int n
  total      : ∃ n, c.totalTokens = .int n

variable {env : Env} {c : Completion} {model : Json} {messages : List Json}

theorem exists_orElse (h : x = .null ∨ ∃ n, x = .int n) (m : Int) :
    ∃ n, orElse x (.int m) = .int n := by
  obtain rfl | ⟨n, rfl⟩ := h
  · exact ⟨m, rfl⟩
  · unfold orElse
    split_ifs
    · exact ⟨n, rfl⟩
    · exact ⟨m, rfl⟩

theorem counted_fallbackCompletion (h : fallbackCompletion env messages = .ok c) : c.Counted := by
  have ⟨text, _, hc⟩ := exists_of_bind h
  cases hc
  exact ⟨⟨_, rfl⟩, ⟨_, rfl⟩, ⟨_, rfl⟩⟩

theorem counted_geminiCompletion (h : geminiCompletion env messages data = .ok c)
    (hc : ∀ usageMeta, ∀ key ∈ countKeys, ∀ count,
      data.get "usageMetadata" (.dict []) = .ok usageMeta →
      usageMeta.get key .null = .ok count → count = .null ∨ ∃ n, count = .int n) : c.Counted := by
  have ⟨text, _, h⟩ := exists_of_bind h
  have ⟨usageMeta, hu, h⟩ := exists_of_bind h
  have ⟨promptText, _, h⟩ := exists_of_bind h
  have ⟨promptCount, hp, h⟩ := exists_of_bind h
  have ⟨completionCount, hq, h⟩ := exists_of_bind h
  have ⟨totalCount, ht, h⟩ := exists_of_bind h
  have ⟨n, hn⟩ := exists_orElse (hc _ _ (by decide) _ hu hp) (estimateTokens promptText)
  have ⟨m, hm⟩ := exists_orElse (hc _ _ (by decide) _ hu hq) (estimateTokens text)
  rw [hn, hm] at h
  split_ifs at h with htt
  case pos =>
    have ⟨_, hv, h⟩ := exists_of_bind h
    cases hv
    cases h
    obtain rfl | ht := hc _ _ (by decide) _ hu ht
    · cases htt
    · exact ⟨⟨n, rfl⟩, ⟨m, rfl⟩, ht⟩
  case neg =>
    have ⟨_, hv, h⟩ := exists_of_bind h
    cases hv
    cases h
    exact ⟨⟨n, rfl⟩, ⟨m, rfl⟩, ⟨n + m, rfl⟩⟩

theorem lift_eq_ok (h : lift x = .ok a) : x = .ok a := by
  cases x
  case error e => cases h
  case ok b    => cases h; rfl

theorem counted_complete (hc : Counts env) (h : complete env body = .ok (.inr c)) : c.Counted := by
  have ⟨messages, _, h⟩ := exists_of_bind h
  have ⟨(contents, systemText), _, h⟩ := exists_of_bind h
  split_ifs at h
  case pos =>
    have ⟨c', hc', h⟩ := exists_of_bind h
    cases h
    exact counted_fallbackCompletion (lift_eq_ok hc')
  case neg =>
    have ⟨response, hr, h⟩ := exists_of_bind h
    split_ifs at h
    · cases h
    · cases hl : env.loads response.text <;> rw [hl] at h
      case none      => cases h
      case some data =>
        have ⟨c', hc', h⟩ := exists_of_bind h
        cases h
        exact counted_geminiCompletion (lift_eq_ok hc') (fun _ _ hk _ => hc _ _ _ _ _ hk _ hr hl)

-- Whether an answer is streamed makes no difference to what is answered.
theorem complete_set_stream (x : Json) :
    complete env (body.set "stream" x) = complete env body := by
  have hm : ∀ {key default}, key ≠ "stream" →
      Json.Fields.get (body.set "stream" x) key default = body.get key default :=
    fun hk => Json.Fields.get_set_of_ne hk
  simp only [complete, @hm "messages" _ (by decide), @hm "max_tokens" _ (by decide)]

namespace Completion

theorem Counted.plain_usage (h : c.Counted) : c.usage.Plain := by
  have ⟨⟨_, hp⟩, ⟨_, hc⟩, ⟨_, ht⟩⟩ := h
  simp [usage, hp, hc, ht, Json.Plain, Json.PlainFields]

-- The chunk of a piece of the text.
def sentPiece (env : Env) (hm : model.Plain) (piece : List Char) : Sent where
  data  := chunk env model [("content", .str (.ofList piece))] .null
  text? := some (.ofList piece)
  delta := .content _ _ [] _ rfl rfl rfl
  plain := by simp [chunk, Json.Plain, Json.PlainFields, Json.PlainItems, hm]
  read  := rfl

def sentUsage (env : Env) (hm : model.Plain) (hc : c.Counted) : Sent where
  data  := chunk env model [] (.str "stop") ++ [("usage", c.usage)]
  text? := some ""
  delta := .noContent _ _ [] rfl rfl rfl
  plain := by simp [chunk, Json.Plain, Json.PlainFields, Json.PlainItems, hm, hc.plain_usage]
  read  := rfl

def sent (env : Env) (hm : model.Plain) (hc : c.Counted) : List Sent :=
  (slices chunkSize c.text.toList).map (sentPiece env hm) ++ [sentUsage env hm hc]

-- The events of a stream.
def events (env : Env) (hm : model.Plain) (hc : c.Counted) : List Sse :=
  (sent env hm hc).map Sent.sse ++ [.done]

theorem event_eq (payload : List Char) (h : '\n' ∉ payload) :
    event (.ofList payload) = Sse.bytes [.ofData payload h] := by
  simp [event, Sse.bytes, Sse.pieces, Sse.ofData, Sse.lineEnd, Piece.bytes, Piece.chars]

theorem bytes_sse (e : Sent) : Sse.bytes [e.sse] = event (Json.dumps (.dict e.data)) :=
  (event_eq _ e.oneLine).symm

theorem bytes_done : Sse.bytes [.done] = event "[DONE]" := by
  rw [Sse.done, ← event_eq, String.ofList_toList]

theorem sse_eq (env : Env) (hm : model.Plain) (hc : c.Counted) :
    c.sse env model = (events env hm hc).map fun e => Sse.bytes [e] := by
  have hs : c.chunks env model = (sent env hm hc).map (·.data) := by
    simp only [chunks, sent, List.map_append, List.map_map, List.map_cons, List.map_nil]
    rfl
  rw [sse, hs, events, List.map_append, List.map_map, List.map_map, List.map_singleton, bytes_done]
  exact congrArg (· ++ _) (List.map_congr_left fun e _ => (bytes_sse e).symm)

theorem chunkSize_pos : 0 < chunkSize := by
  decide

theorem join_sent (hm : model.Plain) (hc : c.Counted) :
    String.join ((sent env hm hc).map (·.text)) = c.text := by
  have ht : String.join ((slices chunkSize c.text.toList).map String.ofList) = c.text := by
    rw [← String.toList_inj, String.toList_join, List.flatMap_map]
    simp only [String.toList_ofList, List.flatMap_id', flatten_slices chunkSize_pos]
  simpa [sent, sentPiece, sentUsage, Event.text, Function.comp_def] using ht

theorem collected_events (floatRepr : String → String) (hm : model.Plain) (hc : c.Counted)
    (h : Whole received (events env hm hc)) :
    collected (Json.loads floatRepr) received = { fullText := c.text, usageDict := c.usage } := by
  have ht : (((sent env hm hc).map Sent.toEvent).foldl Reconstruction.add .empty).fullText =
      c.text := by
    rw [Reconstruction.foldl_add_fullText, List.map_map]
    exact String.empty_append.trans (join_sent hm hc)
  have hu : (((sent env hm hc).map Sent.toEvent).foldl Reconstruction.add .empty).usageDict =
      c.usage := by
    rw [sent, List.map_append, List.foldl_append]
    rfl
  rw [collected_eq_carried (h.uncut fun e => legible_sent), events, carried_sent, ← ht, ← hu]

end Completion

-- An answer that is streamed arrives as the answer that would not be, however the stream is cut
-- between its lines: with the same text and the same usage, and it is billed alike.
theorem streamed_as_answered (floatRepr : String → String) (hc : Counts env)
    (hm : (body.get "model" (.str "gemini-flash")).Plain)
    (h : chatCompletions env body = .ok (.sse yields)) :
    ∃ (events : List Sse) (answer : Json.Fields), yields = events.map (fun e => Sse.bytes [e]) ∧
      chatCompletions env (body.set "stream" (.bool false)) = .ok (.json answer) ∧
      ∀ (gateway : Gateway.Env) (routed : Routed) (received : List (List UInt8)),
        gateway.loads = Json.loads floatRepr → Whole received events →
        ∃ streamed, (streamGenerator gateway routed (.ofChunks received)).trace =
            .post .chatCompletions routed.body :: (received.map .send ++ [.addTask streamed]) ∧
          outputText streamed.litellmResponse = outputText answer ∧
          streamed.litellmResponse.get "usage" .null = answer.get "usage" .null ∧
          ∀ (intOf : Json.IntOf) (model : Model),
            PostProcess.bill intOf model streamed.markupRate streamed.litellmResponse =
              PostProcess.bill intOf model routed.markupRate answer := by
  have ⟨done, hd, h⟩ := exists_of_bind h
  cases done
  case inl => cases h
  case inr c =>
    have hcc := counted_complete hc hd
    split_ifs at h
    case neg => cases h
    case pos =>
      let model := body.get "model" (.str "gemini-flash")
      have hy : c.sse env model = yields := Response.sse.inj (Except.ok.inj h)
      refine ⟨c.events env hm hcc, c.answer env model, hy ▸ c.sse_eq env hm hcc, ?_, ?_⟩
      case refine_1 =>
        have hs : complete env (body.set "stream" (.bool false)) = .ok (.inr c) :=
          (complete_set_stream _).trans hd
        have hg : Json.Fields.get (body.set "stream" (.bool false)) "model" (.str "gemini-flash") =
            model :=
          Json.Fields.get_set_of_ne (by decide)
        simp only [chatCompletions, hs, hg, Json.Fields.get_set_self]
        rfl
      case refine_2 =>
        intro gateway routed received hl hw
        have hr : received.foldl (Reconstruction.readChunk gateway.loads) .empty =
            ⟨c.text, c.usage⟩ :=
          hl ▸ c.collected_events floatRepr hm hcc hw
        refine ⟨_, congrArg _ relay_ofChunks, ?_, ?_, fun intOf model' => ?_⟩
        case refine_1 => rw [hr]; rfl
        case refine_2 => rw [hr]; rfl
        case refine_3 => rw [hr]; rfl

def helloData : Json := .dict [
  ("candidates", .list [.dict [
    ("content", .dict [("parts", .list [.dict [("text", .str "Hello, world.\nHow are you?")]])])]]),
  ("usageMetadata", .dict [("promptTokenCount", .int 3)])]

def Env.hello : Env where
  geminiApiKey := "key"
  post _       := .ok { statusCode := 200, text := "hello" }
  loads _      := some helloData
  add _ _      := .error .typeError
  isPrintable  := fun _ => false
  completionId := "chatcmpl-1"
  created      := 0

def helloBody : Json.Fields := [
  ("model", .str "gemini-flash"),
  ("messages", .list [.dict [("role", .str "user"), ("content", .str "Hello")]]),
  ("stream", .bool true)]

theorem counts_hello : Counts .hello := by
  intro payload response data usageMeta key _ count _ hl hu hk
  cases hl
  cases hu
  cases hk
  simp only [Json.Fields.get, List.lookup_cons]
  split
  · exact .inr ⟨3, rfl⟩
  · exact .inl rfl

-- A text of two pieces, and an estimate for the tokens that it has used.
theorem streamed_as_answered_of_hello : ∃ (events : List Sse) (answer : Json.Fields),
    events.length = 4 ∧ outputText answer = .ok (.str "Hello, world.\nHow are you?") ∧
      ∀ (gateway : Gateway.Env) (routed : Routed), gateway.loads = Json.loads id →
        ∃ streamed, .addTask streamed ∈ (streamGenerator gateway routed
            (.ofChunks (events.map fun e => Sse.bytes [e]))).trace ∧
          outputText streamed.litellmResponse = outputText answer := by
  obtain ⟨events, answer, hy, ha, hr⟩ := @streamed_as_answered .hello helloBody _ id counts_hello
    trivial rfl
  refine ⟨events, answer, ?_, ?_, fun gateway routed hl => ?_⟩
  case refine_1 => exact (List.length_map _).symm.trans (congrArg List.length hy.symm)
  case refine_2 => cases ha; rfl
  case refine_3 =>
    have ⟨streamed, ht, ho, _⟩ := hr gateway routed _ hl (whole_events events)
    exact ⟨streamed, by simp [ht], ho⟩

end MockLitellm
