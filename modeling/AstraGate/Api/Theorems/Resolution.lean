import AstraGate.Api.Gateway

open Python

namespace Gateway

-- The effects by which credit is held, and holds are resolved.
def Effect.resolves : Effect → Bool
  | holdCredit .. | releaseHold .. | commit | addTask _ => true
  | _ => false

def Held (env : Env) (es : List Effect) : Prop :=
  ∃ q rest, es = .holdCredit env.userId env.requestId q :: .commit :: rest

-- The hold is either released, which is committed, or handed over to post-processing.
def Resolved (env : Env) (es : List Effect) : Prop :=
  es.filter Effect.resolves = [.releaseHold env.userId env.requestId, .commit] ∨
    ∃ task, es.filter Effect.resolves = [.addTask task] ∧ task.requestId = env.requestId

def ResolvedOnce (env : Env) (es : List Effect) : Prop :=
  ∃ q rest, es = .holdCredit env.userId env.requestId q :: .commit :: rest ∧ Resolved env rest

-- Effects other than a call of the proxy, and than handing a request over to post-processing.
def Effect.Silent : Effect → Prop
  | post .. | addTask _ => False
  | _ => True

-- A handler that ends with an exception after it has resolved the hold.
structure Refused (env : Env) (x : Handler α) : Prop where
  resolved : Resolved env x.trace
  failed   : ∃ e, x.result = .error e
  silent   : ∀ e ∈ x.trace, e.Silent

-- The body asks for `model`, which is the only active one under the id that its name stands for.
def Requests (env : Env) (body : Json.Fields) (model : Model) : Prop :=
  ∃ modelName, body.get "model" .null = .str modelName ∧
    env.models.filter (fun m => m.modelId = modelNameToDbId modelName ∧ m.isActive) = [model]

-- The body asks for `model`, and the account covers the amount that it is estimated at.
structure Covers (env : Env) (body : Json.Fields) (endpoint : Except Error Endpoint)
    (model : Model) (markupRate amount : ℚ) : Prop where
  found    : (findModel env body).result = .ok model
  resolved : env.markupRate model.id model.providerId = .ok markupRate
  estimate : ∃ e, endpoint = .ok e ∧ amount = e.estimatedCost model markupRate
  covered  : ∃ account, Credit.holdCredit env.account amount = .ok account

-- What `check_output` can scan.
def Scannable (env : Env) (content : Json) : Prop :=
  content.truthy = false ∨ (env.keywords .output).filter (·.covers .output) = [] ∨
    ∃ text, content = .str text

def ReadableMessage (env : Env) : Json → Prop
  | .dict message => ∀ content ∈ message.lookup "content", Scannable env content
  | .list message => message.any (·.isStr "content") = false
  | .str message  => ¬Contains message "content"
  | _             => False

def ReadableResponse (env : Env) (response : Json.Fields) : Prop :=
  (response.get "choices" (.list [])).truthy = false ∨
    ∃ (choice : Json.Fields) (rest : List Json),
      response.get "choices" (.list []) = .list (.dict choice :: rest) ∧
      ReadableMessage env (choice.get "message" (.dict []))

-- The text passes the guardrail, and the request is routed to `provider`.
def Approves (env : Env) (model : Model) (inputText : String)
    (provider : ProviderBalance.ProviderStatus) : Prop :=
  Guardrail.checkInput env.lower (.str inputText) (env.keywords .input) = .ok .passed ∧
    (ProviderBalance.resolveProviderForRequest env.providerStatus model.providerId 3).provider =
      some provider

-- What is forwarded for a request that is approved, and the model that it is billed for.
def forwarded (env : Env) (body : Json.Fields) (model : Model)
    (provider : ProviderBalance.ProviderStatus) : Json.Fields × Model :=
  let decision := ProviderBalance.resolveProviderForRequest env.providerStatus model.providerId 3
  forward env provider.providerId decision.isFallback body model

-- What is known of a request that is approved for `provider`.
def approved (env : Env) (body : Json.Fields) (model : Model) (markupRate : ℚ)
    (inputText : String) (provider : ProviderBalance.ProviderStatus) : Routed where
  inputText  := inputText
  body       := (forwarded env body model provider).1
  modelId    := (forwarded env body model provider).2.id
  providerId := provider.providerId
  isFallback :=
    (ProviderBalance.resolveProviderForRequest env.providerStatus model.providerId 3).isFallback
  markupRate := markupRate

-- The request for a chat gets as far as to the answer `response`.
def Answered (env : Env) (body response : Json.Fields) : Prop :=
  ∃ model inputText provider, (findModel env body).result = .ok model ∧
    chatText env body = .ok inputText ∧ Approves env model inputText provider ∧
    env.post .chatCompletions (forwarded env body model provider).1 = .ok response

-- The messages of a chat can be gone through, and its answer can be read.
def ReadableChat (env : Env) (body : Json.Fields) : Prop :=
  (∃ messages, (body.get "messages" (.list [])).iter = .ok messages) ∧
    ∀ response, Answered env body response → ReadableResponse env response

variable {env : Env} {body : Json.Fields} {model : Model} {markupRate : ℚ}

@[simp]
theorem refund_trace : (refund env statusCode detail : Handler α).trace =
    [.releaseHold env.userId env.requestId, .commit] :=
  rfl

theorem Resolved.of_refund (h : s.filter Effect.resolves = []) :
    Resolved env (s ++ (refund env statusCode detail : Handler α).trace) := by
  simp [Resolved, h, Effect.resolves]

@[simp]
theorem refund_bind {f : α → Handler β} :
    refund env statusCode detail >>= f = refund env statusCode detail :=
  rfl

@[simp]
theorem lift_ok (a : α) : lift (.ok a) = pure a :=
  rfl

@[simp]
theorem lift_error (e : Error) : (lift (.error e) : Handler α) = raise (.error e) :=
  rfl

@[simp]
theorem query_ok (a : α) : query (.ok a) = pure a :=
  rfl

@[simp]
theorem query_error (e : Sql.Error) : (query (.error e) : Handler α) = raise (.sqlError e) :=
  rfl

@[simp]
theorem raise_bind {e : Exn} {f : α → Handler β} : raise e >>= f = raise e :=
  rfl

theorem findModel_cases (env : Env) (body : Json.Fields) :
    (∃ e, findModel env body = raise e) ∨
    ∃ model, Requests env body model ∧ findModel env body = pure model := by
  unfold findModel Requests
  generalize body.get "model" .null = modelName
  by_cases ht : modelName.truthy
  case neg => exact .inl ⟨_, if_pos (by simpa using ht)⟩
  case pos =>
    simp only [ht, Bool.not_true, Bool.false_eq_true, if_false]
    cases modelName
    case str modelName =>
      simp only
      cases hr : Sql.scalarOneOrNone (env.models.filter fun m =>
        m.modelId = modelNameToDbId modelName ∧ m.isActive)
      case error e => exact .inl ⟨_, rfl⟩
      case ok row  =>
        cases row
        case none       => exact .inl ⟨_, rfl⟩
        case some model =>
          exact .inr ⟨model, ⟨modelName, rfl, Sql.scalarOneOrNone_eq_some_iff.mp hr⟩, rfl⟩
    all_goals exact .inl ⟨_, rfl⟩

theorem findModel_trace : (findModel env body).trace = [] := by
  cases findModel_cases env body
  case inl h => have ⟨e, he⟩ := h; rw [he]; rfl
  case inr h => have ⟨model, _, hm⟩ := h; rw [hm]; rfl

theorem requests_of_findModel (h : (findModel env body).result = .ok model) :
    Requests env body model := by
  cases findModel_cases env body
  case inl hf => have ⟨e, he⟩ := hf; rw [he] at h; contradiction
  case inr hf => have ⟨model', hr, hm⟩ := hf; rw [hm] at h; cases h; exact hr

theorem Covers.unique {endpoint : Except Error Endpoint}
    (h : Covers env body endpoint model markupRate q)
    (h' : Covers env body endpoint model' markupRate' q') : q' = q := by
  have ⟨e, he, hq⟩ := h.estimate
  have ⟨e', he', hq'⟩ := h'.estimate
  cases h.found.symm.trans h'.found
  cases h.resolved.symm.trans h'.resolved
  cases he.symm.trans he'
  exact hq'.trans hq.symm

-- Credit is held if and only if the account covers the estimate; otherwise nothing happens.
theorem prepare_covers_cases (env : Env) (body : Json.Fields) (endpoint : Except Error Endpoint) :
    (prepare env body endpoint).trace = [] ∧
      (∃ e, (prepare env body endpoint).result = .error e) ∧
      (∀ model markupRate q, ¬Covers env body endpoint model markupRate q) ∨
    ∃ model markupRate q, (findModel env body).result = .ok model ∧
      Covers env body endpoint model markupRate q ∧
      (prepare env body endpoint).result = .ok (model, markupRate) ∧
      (prepare env body endpoint).trace =
        [.holdCredit env.userId env.requestId q, .commit] := by
  unfold prepare
  cases hm : (findModel env body).result
  case error e =>
    exact .inl ⟨(Traced.trace_bind_of_error hm).trans findModel_trace,
      ⟨e, Traced.result_bind_of_error hm⟩, fun _ _ _ h => nomatch hm.symm.trans h.found⟩
  case ok model =>
    rw [Traced.result_bind_of_ok hm, Traced.trace_bind_of_ok hm, findModel_trace]
    cases hr : env.markupRate model.id model.providerId
    case error e =>
      refine .inl ⟨rfl, ⟨_, rfl⟩, fun model _ _ h => ?_⟩
      cases hm.symm.trans h.found
      exact nomatch hr.symm.trans h.resolved
    case ok markupRate =>
      cases endpoint
      case error e =>
        refine .inl ⟨rfl, ⟨_, rfl⟩, fun _ _ _ h => ?_⟩
        have ⟨_, he, _⟩ := h.estimate
        contradiction
      case ok endpoint =>
        simp only [query_ok, lift_ok, pure_bind, holdCredit]
        split
        case h_1 error hc =>
          refine .inl ⟨rfl, ⟨_, rfl⟩, fun model _ _ h => ?_⟩
          have ⟨_, he, hq⟩ := h.estimate
          have ⟨_, hc'⟩ := h.covered
          cases hm.symm.trans h.found
          cases hr.symm.trans h.resolved
          cases he
          subst hq
          exact nomatch hc.symm.trans hc'
        case h_2 account hc =>
          exact .inr ⟨_, _, _, rfl, ⟨hm, hr, ⟨_, rfl, rfl⟩, account, hc⟩, rfl, rfl⟩

theorem prepare_cases (env : Env) (body : Json.Fields) (endpoint : Except Error Endpoint) :
    (prepare env body endpoint).trace = [] ∧ (∃ e, (prepare env body endpoint).result = .error e) ∨
    ∃ model markupRate q, (findModel env body).result = .ok model ∧
      env.markupRate model.id model.providerId = .ok markupRate ∧
      (prepare env body endpoint).result = .ok (model, markupRate) ∧
      (prepare env body endpoint).trace =
        [.holdCredit env.userId env.requestId q, .commit] := by
  cases prepare_covers_cases env body endpoint
  case inl h => exact .inl ⟨h.left, h.right.left⟩
  case inr h =>
    have ⟨model, markupRate, q, hm, hc, hr, ht⟩ := h
    exact .inr ⟨model, markupRate, q, hm, hc.resolved, hr, ht⟩

-- A handler that holds credit has found the model, and resolves the hold after it.
theorem resolvedOnce_bind_iff {endpoint : Except Error Endpoint}
    {f : Model × ℚ → Handler Response} (h : Held env (prepare env body endpoint >>= f).trace) :
    ∃ model markupRate, (findModel env body).result = .ok model ∧
      (ResolvedOnce env (prepare env body endpoint >>= f).trace ↔
        Resolved env (f (model, markupRate)).trace) := by
  cases prepare_cases env body endpoint
  case inl hp =>
    have ⟨ht, e, hr⟩ := hp
    rw [Held, Traced.trace_bind_of_error hr, ht] at h
    have ⟨_, _, h⟩ := h
    contradiction
  case inr hp =>
    have ⟨model, markupRate, q, hm, _, hr, ht⟩ := hp
    refine ⟨model, markupRate, hm, ?_⟩
    rw [ResolvedOnce, Traced.trace_bind_of_ok hr, ht]
    constructor
    case mp =>
      rintro ⟨_, rest, he, hr⟩
      cases he
      exact hr
    case mpr => exact fun hr => ⟨q, _, rfl, hr⟩

@[simp]
theorem screen_passed : screen env direction subject .passed = pure () :=
  rfl

theorem refused_screen_bind {f : Unit → Handler α} (hr : result.violated) :
    Refused env (screen env direction subject result >>= f) := by
  rw [screen, if_pos hr, bind_assoc, refund_bind]
  exact ⟨.of_refund (s := [_]) rfl, ⟨_, rfl⟩, by simp [Effect.Silent]⟩

theorem resolved_screen_bind {f : Unit → Handler α} (h : s.filter Effect.resolves = [])
    (hr : result.violated) :
    Resolved env (s ++ (screen env direction subject result >>= f).trace) := by
  have he : (s ++ [Effect.recordViolation result direction]).filter Effect.resolves = [] := by
    simp [h, Effect.resolves]
  rw [screen, if_pos hr, bind_assoc, refund_bind, Traced.trace_emit_bind, List.append_cons]
  exact .of_refund he

-- A request that is not approved is refunded.
theorem approve_cases (env : Env) (body : Json.Fields) (model : Model) (markupRate : ℚ)
    (inputText : String) :
    (∀ provider, ¬Approves env model inputText provider) ∧
      (∀ f : Routed → Handler Response,
        Refused env (approve env body model markupRate inputText >>= f)) ∨
    ∃ provider, Approves env model inputText provider ∧
      approve env body model markupRate inputText =
        pure (approved env body model markupRate inputText provider) := by
  unfold approve Approves
  obtain ⟨result, hc, hr⟩ : ∃ result,
      Guardrail.checkInput env.lower (.str inputText) (env.keywords .input) = .ok result ∧
        (result = .passed ∨ result.violated) := Guardrail.scanText_str ..
  simp only [hc, lift_ok, pure_bind, bind_assoc]
  cases hr
  case inl hr =>
    subst hr
    simp only [screen_passed, pure_bind, route]
    cases (ProviderBalance.resolveProviderForRequest env.providerStatus model.providerId 3).provider
    case none          =>
      exact .inl ⟨by simp, fun _ => ⟨.inl rfl, ⟨_, rfl⟩, by simp [Effect.Silent]⟩⟩
    case some provider => exact .inr ⟨provider, ⟨trivial, rfl⟩, rfl⟩
  case inr hr =>
    refine .inl ⟨fun provider h => ?_, fun f => refused_screen_bind hr⟩
    cases h.left
    contradiction

theorem exists_checkOutput_iff {content : Json} :
    (∃ result, Guardrail.checkOutput env.lower content (env.keywords .output) = .ok result) ↔
      Scannable env content :=
  Guardrail.scanText_ok_iff env.lower

theorem messageContent_eq (message : Json) : messageContent message =
    (message.contains "content").bind fun found =>
      if found then message.item "content" else .ok (.str "") :=
  rfl

theorem readableMessage_iff {message : Json} :
    (∃ content, messageContent message = .ok content ∧ Scannable env content) ↔
      ReadableMessage env message := by
  have hs : Scannable env (.str "") := .inl rfl
  rw [messageContent_eq]
  cases message
  case dict fields =>
    cases hl : fields.lookup "content"
    case none         => simpa [Json.contains, Except.bind, ReadableMessage, hl] using hs
    case some content => simp [Json.contains, Json.item, Except.bind, ReadableMessage, hl]
  case list xs =>
    cases ha : xs.any (·.isStr "content")
    case false => simpa [Json.contains, Except.bind, ReadableMessage, ha] using hs
    case true  => simp [Json.contains, Json.item, Except.bind, ReadableMessage, ha]
  case str s =>
    by_cases hc : Contains s "content"
    case pos => simp [Json.contains, Json.item, Except.bind, ReadableMessage, hc]
    case neg => simpa [Json.contains, Except.bind, ReadableMessage, hc] using hs
  all_goals simp [Json.contains, Except.bind, ReadableMessage]

theorem outputText_eq (response : Json.Fields) : outputText response =
    if (response.get "choices" (.list [])).truthy then
      (response.get "choices" (.list [])).head.bind fun choice =>
        (choice.get "message" (.dict [])).bind messageContent
    else
      .ok (.str "") :=
  rfl

theorem readableResponse_iff {response : Json.Fields} :
    (∃ content, outputText response = .ok content ∧ Scannable env content) ↔
      ReadableResponse env response := by
  rw [outputText_eq, ReadableResponse]
  generalize response.get "choices" (.list []) = choices
  by_cases ht : choices.truthy
  case neg => exact iff_of_true ⟨_, if_neg ht, .inl rfl⟩ (.inl (by simpa using ht))
  case pos =>
    rw [if_pos ht, or_iff_right (by simp [ht])]
    cases choices
    case list xs =>
      cases xs
      case nil => contradiction
      case cons choice rest =>
        cases choice
        case dict choice => simpa [Json.head, Json.get, Except.bind] using readableMessage_iff
        all_goals simp [Json.head, Json.get, Except.bind]
    case str s => cases hs : s.toList <;> simp [Json.head, Json.get, Except.bind, hs]
    all_goals simp [Json.head, Except.bind]

theorem chatText_ok_iff : (∃ text, chatText env body = .ok text) ↔
    ∃ messages, (body.get "messages" (.list [])).iter = .ok messages := by
  unfold chatText
  cases (body.get "messages" (.list [])).iter
  case error e     => exact iff_of_false nofun nofun
  case ok messages => exact iff_of_true ⟨_, rfl⟩ ⟨_, rfl⟩

theorem forward_get {default : Json} (hk : key ≠ "model") :
    (forward env providerId isFallback body model).1.get key default = body.get key default := by
  cases isFallback
  case false => rfl
  case true  =>
    simp only [forward, if_true]
    split
    case h_1 => exact Json.Fields.get_set_of_ne hk
    case h_2 => rfl

theorem post_bind_of_ok {f : Json.Fields → Handler α} (h : env.post path body = .ok response) :
    (post env path body >>= f).trace = .post path body :: (f response).trace := by
  simp [post, h]

theorem post_bind_of_error {f : Json.Fields → Handler α} (h : env.post path body = .error e) :
    ∃ statusCode detail, (post env path body >>= f).trace =
      [.post path body] ++ (refund env statusCode detail : Handler α).trace := by
  simp only [post, h, bind_assoc, Traced.trace_emit_bind]
  cases e <;> exact ⟨_, _, rfl⟩

theorem resolved_addTask {routed : Routed} {response : Json.Fields} {f : Unit → Handler α}
    (h : s.filter Effect.resolves = []) (hf : (f ()).trace = []) :
    Resolved env (s ++ (addTask env routed response >>= f).trace) := by
  refine .inr ⟨task env routed response, ?_, rfl⟩
  simp [addTask, hf, h, Effect.resolves]

-- An answer is delivered or refunded exactly if it can be read.
theorem resolved_deliver_iff {routed : Routed} {response : Json.Fields}
    (h : s.filter Effect.resolves = []) :
    Resolved env (s ++ (deliver env routed response).trace) ↔ ReadableResponse env response := by
  have hn : ∀ {e : Error}, ¬Resolved env (s ++ (raise (.error e) : Handler Response).trace) := by
    simp [Resolved, raise, h]
  rw [← readableResponse_iff, deliver]
  cases ho : outputText response
  case error e => exact iff_of_false hn nofun
  case ok content =>
    rw [lift_ok, pure_bind]
    have hs : (∃ c, (Except.ok content : Except Error Json) = .ok c ∧ Scannable env c) ↔
        Scannable env content := by simp
    rw [hs, ← exists_checkOutput_iff]
    cases hc : Guardrail.checkOutput env.lower content (env.keywords .output)
    case error e => exact iff_of_false hn nofun
    case ok result =>
      refine iff_of_true ?_ ⟨result, rfl⟩
      by_cases hr : result.violated
      case pos => exact resolved_screen_bind h hr
      case neg =>
        rw [lift_ok, pure_bind, screen, if_neg hr, pure_bind]
        exact resolved_addTask h rfl

theorem resolved_serveChat_iff (hm : (findModel env body).result = .ok model)
    (hs : (body.get "stream" (.bool false)).truthy = false) :
    Resolved env (serveChat env body model markupRate).trace ↔ ReadableChat env body := by
  rw [serveChat, ReadableChat, ← chatText_ok_iff]
  cases ht : chatText env body
  case error e => exact iff_of_false (by simp [Resolved, raise]) (by simp)
  case ok inputText =>
    rw [lift_ok, pure_bind, and_iff_right ⟨inputText, rfl⟩]
    have ha : ∀ {response}, Answered env body response ↔
        ∃ provider, Approves env model inputText provider ∧
          env.post .chatCompletions (forwarded env body model provider).1 = .ok response := by
      simp [Answered, hm, ht]
    cases approve_cases env body model markupRate inputText
    case inl hr =>
      refine iff_of_true (hr.right _).resolved (fun response h => ?_)
      have ⟨provider, hp, _⟩ := ha.mp h
      exact absurd hp (hr.left provider)
    case inr hr =>
      have ⟨provider, hp, hr⟩ := hr
      let routed := approved env body model markupRate inputText provider
      have hr : approve env body model markupRate inputText = pure routed := hr
      have hs : (routed.body.get "stream" (.bool false)).truthy = false := by
        have hb : routed.body.get "stream" (.bool false) = body.get "stream" (.bool false) :=
          forward_get (by decide)
        rw [hb, hs]
      have ha : ∀ {response}, Answered env body response ↔
          env.post .chatCompletions routed.body = .ok response := by
        refine ha.trans ⟨?_, fun h => ⟨provider, hp, h⟩⟩
        rintro ⟨provider', hp', h⟩
        cases Option.some.inj (hp.right.symm.trans hp'.right)
        exact h
      simp only [hr, pure_bind, hs, Bool.false_eq_true, if_false, ha]
      cases he : env.post .chatCompletions routed.body
      case error e =>
        have ⟨statusCode, detail, ht⟩ := post_bind_of_error (f := deliver env routed) he
        rw [ht]
        exact iff_of_true (.of_refund rfl) nofun
      case ok response =>
        rw [post_bind_of_ok he]
        refine (resolved_deliver_iff (s := [_]) rfl).trans ⟨?_, fun h => h response rfl⟩
        rintro hr _ ⟨⟩
        exact hr

theorem resolved_serveEmbeddings :
    Resolved env (serveEmbeddings env body model markupRate).trace := by
  rw [serveEmbeddings]
  cases approve_cases env body model markupRate (embeddingsText env body)
  case inl hr => exact (hr.right _).resolved
  case inr hr =>
    have ⟨provider, _, hr⟩ := hr
    let routed := approved env body model markupRate (embeddingsText env body) provider
    have hr : approve env body model markupRate (embeddingsText env body) = pure routed := hr
    rw [hr, pure_bind]
    cases he : env.post .embeddings routed.body
    case error e =>
      obtain ⟨statusCode, detail, ht⟩ := post_bind_of_error he
      rw [ht]
      exact .of_refund rfl
    case ok response =>
      rw [post_bind_of_ok he]
      exact resolved_addTask (s := [_]) rfl rfl

theorem held_of_holdCredit {endpoint : Endpoint} {f : Model × ℚ → Handler Response}
    (hm : findModel env body = pure model)
    (hr : env.markupRate model.id model.providerId = .ok markupRate)
    (hc : Credit.holdCredit env.account (endpoint.estimatedCost model markupRate) = .ok account) :
    Held env (prepare env body (.ok endpoint) >>= f).trace := by
  simp only [Held, prepare, hm, hr, holdCredit, hc, query_ok, lift_ok, pure_bind, bind_assoc,
    Traced.trace_emit_bind]
  exact ⟨_, _, rfl⟩

theorem held_chatCompletions (count : ℚ) (ht : maxTokens env body = .ok count)
    (hm : findModel env body = pure model)
    (hr : env.markupRate model.id model.providerId = .ok markupRate)
    (hc : Credit.holdCredit env.account ((Endpoint.chat count).estimatedCost model markupRate) =
      .ok account) : Held env (chatCompletions env body).trace := by
  have he : Endpoint.chat <$> maxTokens env body = .ok (.chat count) := by rw [ht]; rfl
  rw [chatCompletions, he]
  exact held_of_holdCredit hm hr hc

theorem resolvedOnce_chatCompletions_iff (h : Held env (chatCompletions env body).trace)
    (hs : (body.get "stream" (.bool false)).truthy = false) :
    ResolvedOnce env (chatCompletions env body).trace ↔ ReadableChat env body := by
  have ⟨model, markupRate, hm, hr⟩ := resolvedOnce_bind_iff h
  exact hr.trans (resolved_serveChat_iff hm hs)

-- As soon as the credit for a request without streaming is held: the hold of a chat is resolved
-- exactly once if and only if what is read of its messages and of its answer has the right shape,
-- and the hold of a request for embeddings always is.
theorem resolvedOnce_iff_readable (env : Env) (body : Json.Fields) :
    (Held env (chatCompletions env body).trace →
      (body.get "stream" (.bool false)).truthy = false →
      (ResolvedOnce env (chatCompletions env body).trace ↔ ReadableChat env body)) ∧
    (Held env (embeddings env body).trace → ResolvedOnce env (embeddings env body).trace) := by
  constructor
  case left => exact resolvedOnce_chatCompletions_iff
  case right =>
    intro h
    have ⟨model, markupRate, _, hr⟩ := resolvedOnce_bind_iff h
    exact hr.mpr resolved_serveEmbeddings

-- One model of one provider, an account with $1, and `response` as the answer to every call.
def Env.answering (response : Json.Fields) : Env where
  virtualKeyId   := 1
  userId         := 1
  requestId      := "ag-req-1"
  startTime      := 0
  account        := some ⟨1, none, none, none⟩
  models         := [⟨1, 1, "m", 1, 1, none, true⟩]
  markupRate     := fun _ _ => .ok (1 / 5)
  keywords       := fun _ => []
  providerStatus := fun id => some ⟨id, "openai", .normal, 50, 10, 2, none, true⟩
  post           := fun _ _ => .ok response
  lower          := id
  isPrintable    := fun _ => true
  loads          := fun _ => none

-- A chat whose messages are `null`.
theorem not_resolvedOnce_of_null_messages :
    ¬∀ (env : Env) (body : Json.Fields), Held env (chatCompletions env body).trace →
      (body.get "stream" (.bool false)).truthy = false →
      ResolvedOnce env (chatCompletions env body).trace := by
  intro h
  let env := Env.answering []
  let body : Json.Fields := [("model", .str "m"), ("messages", .null), ("max_tokens", .int 1)]
  have hh : Held env (chatCompletions env body).trace :=
    held_chatCompletions 1 (by decide +kernel) rfl rfl (if_neg (by decide +kernel))
  have hc := (resolvedOnce_chatCompletions_iff hh rfl).mp (h env body hh rfl)
  exact nomatch hc.left

-- A chat that is answered with a content which is a text, and one whose answer has no choices.
theorem resolvedOnce_of_text_content :
    let response := [("choices", .list [.dict [("message", .dict [("content", .str "hi")])]])]
    let env := Env.answering response
    ResolvedOnce env (chatCompletions env [("model", .str "m"), ("max_tokens", .int 1)]).trace := by
  intro response env
  let body : Json.Fields := [("model", .str "m"), ("max_tokens", .int 1)]
  have hh : Held env (chatCompletions env body).trace :=
    held_chatCompletions 1 (by decide +kernel) rfl rfl (if_neg (by decide +kernel))
  refine ((resolvedOnce_iff_readable env body).left hh rfl).mpr ⟨⟨[], rfl⟩, ?_⟩
  intro _ ⟨_, _, _, _, _, _, hr⟩
  cases hr
  refine .inr ⟨_, _, rfl, ?_⟩
  rintro _ ⟨⟩
  exact .inr (.inr ⟨_, rfl⟩)

end Gateway
