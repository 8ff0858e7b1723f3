import AstraGate.Api.Theorems.Stream
import AstraGate.Services.Markup
import AstraGate.Services.Theorems.ProviderBalance

open Python

namespace Gateway

-- What a request makes the service do: a chat, which may go on with a generator, or embeddings.
inductive Serving (env : Env) (body : Json.Fields) : List Effect → Prop
  | chat : Serving env body (chatCompletions env body).trace
  | streaming (stream : Stream)
    (returned : (chatCompletions env body).result = .ok (.streaming routed)) :
    Serving env body ((chatCompletions env body).trace ++ (streamGenerator env routed stream).trace)
  | embeddings : Serving env body (embeddings env body).trace

-- The proxy is called with the body that has been routed, and what is handed over to
-- post-processing is an answer to it.
def Effect.Follows (env : Env) (routed : Routed) : Effect → Prop
  | post _ body  => body = routed.body
  | addTask task => ∃ response, task = Gateway.task env routed response
  | _            => True

-- Where a request for `model` is routed to.
def routing (env : Env) (model : Model) : ProviderBalance.ProviderRoutingDecision :=
  ProviderBalance.resolveProviderForRequest env.providerStatus model.providerId 3

-- The request gets as far as to be routed, and what it has done follows from that.
structure Served (env : Env) (body : Json.Fields) (model : Model) (markupRate : ℚ)
    (provider : ProviderBalance.ProviderStatus) (inputText : String) (es : List Effect) : Prop where
  requests : Requests env body model
  resolved : env.markupRate model.id model.providerId = .ok markupRate
  routed   : (routing env model).provider = some provider
  follows  : ∀ e ∈ es, e.Follows env (approved env body model markupRate inputText provider)

variable {env : Env} {body : Json.Fields} {model : Model} {markupRate : ℚ} {routed : Routed}

theorem Effect.Silent.follows {e : Effect} (h : e.Silent) : e.Follows env routed := by
  cases e <;> trivial

theorem follows_addTask_bind {f : Unit → Handler α} (hf : (f ()).trace = []) :
    ∀ e ∈ (addTask env routed response >>= f).trace, e.Follows env routed := by
  rw [addTask, Traced.trace_emit_bind, hf]
  simp [Effect.Follows]

theorem follows_post_bind {f : Json.Fields → Handler α} (hb : body = routed.body)
    (hf : ∀ response, ∀ e ∈ (f response).trace, e.Follows env routed) :
    ∀ e ∈ (post env path body >>= f).trace, e.Follows env routed := by
  cases he : env.post path body
  case error e =>
    have ⟨statusCode, detail, ht⟩ := post_bind_of_error (f := f) he
    rw [ht]
    simp [Effect.Follows, hb]
  case ok response =>
    rw [post_bind_of_ok he, List.forall_mem_cons]
    exact ⟨hb, hf response⟩

theorem silent_or_addTask_of_deliver {response : Json.Fields} :
    ∀ e ∈ (deliver env routed response).trace,
      e.Silent ∨ e = .addTask (task env routed response) := by
  rw [deliver]
  cases outputText response
  case error e    => simp [raise]
  case ok content =>
    rw [lift_ok, pure_bind]
    cases Guardrail.checkOutput env.lower content (env.keywords .output)
    case error e   => simp [raise]
    case ok result =>
      rw [lift_ok, pure_bind]
      by_cases hr : result.violated
      case pos => exact fun e he => .inl <| (refused_screen_bind hr).silent e he
      case neg =>
        rw [screen, if_neg hr, pure_bind, addTask, Traced.trace_emit_bind]
        simp

theorem follows_deliver {response : Json.Fields} :
    ∀ e ∈ (deliver env routed response).trace, e.Follows env routed := by
  intro e he
  cases silent_or_addTask_of_deliver e he
  case inl hs => exact hs.follows
  case inr he => exact he ▸ ⟨response, rfl⟩

theorem deliver_result_ne {response : Json.Fields} :
    (deliver env routed response).result ≠ .ok (.streaming routed') := by
  intro h
  have ⟨_, _, h⟩ := Traced.exists_of_result_bind h
  have ⟨_, _, h⟩ := Traced.exists_of_result_bind h
  have ⟨_, _, h⟩ := Traced.exists_of_result_bind h
  have ⟨_, _, h⟩ := Traced.exists_of_result_bind h
  exact nomatch h

theorem serveChat_silent_or_approved (env : Env) (body : Json.Fields) (model : Model)
    (markupRate : ℚ) :
    (∀ e ∈ (serveChat env body model markupRate).trace, e.Silent) ∧
      (∀ routed, (serveChat env body model markupRate).result ≠ .ok (.streaming routed)) ∨
    ∃ inputText provider, Approves env model inputText provider ∧
      (∀ e ∈ (serveChat env body model markupRate).trace,
        e.Follows env (approved env body model markupRate inputText provider)) ∧
      ∀ routed, (serveChat env body model markupRate).result = .ok (.streaming routed) →
        routed = approved env body model markupRate inputText provider := by
  rw [serveChat]
  cases chatText env body
  case error e => exact .inl (by simp [raise])
  case ok inputText =>
    rw [lift_ok, pure_bind]
    cases approve_cases env body model markupRate inputText
    case inl hr =>
      refine .inl ⟨(hr.right _).silent, fun routed h => ?_⟩
      obtain ⟨e, he⟩ := (hr.right _).failed
      cases he.symm.trans h
    case inr hr =>
      obtain ⟨provider, hp, hr⟩ := hr
      refine .inr ⟨inputText, provider, hp, ?_⟩
      rw [hr, pure_bind]
      split
      case isTrue  => simp
      case isFalse =>
        refine ⟨follows_post_bind rfl (fun _ => follows_deliver), fun routed h => ?_⟩
        obtain ⟨_, _, h⟩ := Traced.exists_of_result_bind h
        exact absurd h deliver_result_ne

theorem follows_relay {stream : Stream} :
    ∀ e ∈ (relay env routed r stream).trace, e.Follows env routed := by
  induction stream generalizing r
  case exhausted          => exact follows_addTask_bind (f := pure) rfl
  case raised             => simp [relay, Effect.Follows]
  case cancelled          => simp [relay, raise]
  case closed             => simp [relay, raise, Effect.Follows]
  case next chunk rest ih =>
    rw [relay, Traced.trace_emit_bind, List.forall_mem_cons]
    exact ⟨trivial, ih⟩

theorem follows_streamGenerator {stream : Stream} :
    ∀ e ∈ (streamGenerator env routed stream).trace, e.Follows env routed := by
  rw [streamGenerator, Traced.trace_emit_bind, List.forall_mem_cons]
  exact ⟨rfl, follows_relay⟩

theorem serveEmbeddings_silent_or_approved (env : Env) (body : Json.Fields) (model : Model)
    (markupRate : ℚ) :
    (∀ e ∈ (serveEmbeddings env body model markupRate).trace, e.Silent) ∨
    ∃ inputText provider, Approves env model inputText provider ∧
      ∀ e ∈ (serveEmbeddings env body model markupRate).trace,
        e.Follows env (approved env body model markupRate inputText provider) := by
  rw [serveEmbeddings]
  cases approve_cases env body model markupRate (embeddingsText env body)
  case inl hr => exact .inl (hr.right _).silent
  case inr hr =>
    obtain ⟨provider, hp, hr⟩ := hr
    refine .inr ⟨_, provider, hp, ?_⟩
    rw [hr, pure_bind]
    exact follows_post_bind rfl (fun _ => follows_addTask_bind rfl)

-- A request is refused before its model and markup are known, or goes on once the hold is
-- committed.
theorem prepare_bind_cases (env : Env) (body : Json.Fields) (endpoint : Except Error Endpoint)
    (f : Model × ℚ → Handler Response) :
    (prepare env body endpoint >>= f).trace = [] ∧
      (∀ response, (prepare env body endpoint >>= f).result ≠ .ok response) ∨
    ∃ model markupRate q, Requests env body model ∧
      env.markupRate model.id model.providerId = .ok markupRate ∧
      (prepare env body endpoint >>= f).trace =
        .holdCredit env.userId env.requestId q :: .commit :: (f (model, markupRate)).trace ∧
      (prepare env body endpoint >>= f).result = (f (model, markupRate)).result := by
  cases prepare_cases env body endpoint
  case inl hp =>
    have ⟨ht, e, hr⟩ := hp
    rw [Traced.trace_bind_of_error hr, Traced.result_bind_of_error hr]
    exact .inl ⟨ht, nofun⟩
  case inr hp =>
    have ⟨model, markupRate, q, hm, hk, hr, ht⟩ := hp
    rw [Traced.trace_bind_of_ok hr, Traced.result_bind_of_ok hr, ht]
    exact .inr ⟨model, markupRate, q, requests_of_findModel hm, hk, rfl, rfl⟩

theorem Served.of_approves {es : List Effect} (hr : Requests env body model)
    (hm : env.markupRate model.id model.providerId = .ok markupRate)
    (ha : Approves env model inputText provider)
    (hf : ∀ e ∈ es, e.Follows env (approved env body model markupRate inputText provider)) :
    Served env body model markupRate provider inputText
      (.holdCredit env.userId env.requestId q :: .commit :: es) where
  requests := hr
  resolved := hm
  routed   := ha.right
  follows  := by
    rw [List.forall_mem_cons, List.forall_mem_cons]
    exact ⟨trivial, trivial, hf⟩

theorem Served.append (hs : Served env body model markupRate provider inputText es)
    (hf : ∀ e ∈ es', e.Follows env (approved env body model markupRate inputText provider)) :
    Served env body model markupRate provider inputText (es ++ es') :=
  { hs with follows := List.forall_mem_append.mpr ⟨hs.follows, hf⟩ }

theorem silent_cons {es : List Effect} (h : ∀ e ∈ es, e.Silent) :
    ∀ e ∈ Effect.holdCredit userId requestId q :: .commit :: es, e.Silent := by
  rw [List.forall_mem_cons, List.forall_mem_cons]
  exact ⟨trivial, trivial, h⟩

theorem chatCompletions_cases (env : Env) (body : Json.Fields) :
    (chatCompletions env body).trace = [] ∧
      (∀ response, (chatCompletions env body).result ≠ .ok response) ∨
    ∃ model markupRate q, Requests env body model ∧
      env.markupRate model.id model.providerId = .ok markupRate ∧
      (chatCompletions env body).trace =
        .holdCredit env.userId env.requestId q :: .commit ::
          (serveChat env body model markupRate).trace ∧
      (chatCompletions env body).result = (serveChat env body model markupRate).result :=
  prepare_bind_cases env body (Endpoint.chat <$> maxTokens env body)
    fun p => serveChat env body p.1 p.2

theorem embeddings_cases (env : Env) (body : Json.Fields) :
    (embeddings env body).trace = [] ∨
    ∃ model markupRate q, Requests env body model ∧
      env.markupRate model.id model.providerId = .ok markupRate ∧
      (embeddings env body).trace =
        .holdCredit env.userId env.requestId q :: .commit ::
          (serveEmbeddings env body model markupRate).trace := by
  cases prepare_bind_cases env body (.ok <| .embeddings <| embeddingsText env body)
    fun p => serveEmbeddings env body p.1 p.2
  case inl hp => exact .inl hp.left
  case inr hp =>
    obtain ⟨model, markupRate, q, hr, hm, ht, _⟩ := hp
    exact .inr ⟨model, markupRate, q, hr, hm, ht⟩

-- A request neither calls the proxy nor is handed over, unless it has been routed.
theorem Serving.silent_or_served (h : Serving env body es) :
    (∀ e ∈ es, e.Silent) ∨ ∃ model markupRate provider inputText,
      Served env body model markupRate provider inputText es := by
  cases h
  case chat =>
    cases chatCompletions_cases env body
    case inl hp => exact .inl (by simp [hp.left])
    case inr hp =>
      obtain ⟨model, markupRate, q, hr, hm, ht, _⟩ := hp
      rw [ht]
      cases serveChat_silent_or_approved env body model markupRate
      case inl hc => exact .inl (silent_cons hc.left)
      case inr hc =>
        obtain ⟨inputText, provider, ha, hf, _⟩ := hc
        exact .inr ⟨_, _, provider, inputText, .of_approves hr hm ha hf⟩
  case streaming routed stream returned =>
    cases chatCompletions_cases env body
    case inl hp => exact absurd returned (hp.right _)
    case inr hp =>
      obtain ⟨model, markupRate, q, hr, hm, ht, he⟩ := hp
      rw [he] at returned
      rw [ht]
      cases serveChat_silent_or_approved env body model markupRate
      case inl hc => exact absurd returned (hc.right routed)
      case inr hc =>
        obtain ⟨inputText, provider, ha, hf, hs⟩ := hc
        refine .inr ⟨_, _, provider, inputText, .append (.of_approves hr hm ha hf) ?_⟩
        exact hs routed returned ▸ follows_streamGenerator
  case embeddings =>
    cases embeddings_cases env body
    case inl hp => exact .inl (by simp [hp])
    case inr hp =>
      obtain ⟨model, markupRate, q, hr, hm, ht⟩ := hp
      rw [ht]
      cases serveEmbeddings_silent_or_approved env body model markupRate
      case inl hc => exact .inl (silent_cons hc)
      case inr hc =>
        obtain ⟨inputText, provider, ha, hf⟩ := hc
        exact .inr ⟨_, _, provider, inputText, .of_approves hr hm ha hf⟩

-- The status of a provider is found under its id.
def Env.Named (env : Env) : Prop :=
  ∀ id provider, env.providerStatus id = some provider → provider.providerId = id

-- `modelId` is the id of active models, all of them of one provider.
def Sole (env : Env) (modelId : String) (providerId : UUID) : Prop :=
  (∃ model ∈ env.models, model.isActive ∧ model.modelId = modelId) ∧
    ∀ model ∈ env.models, model.isActive → model.modelId = modelId → model.providerId = providerId

-- The model that the body names is an active one of the provider.
def Names (env : Env) (body : Json.Fields) (providerId : UUID) : Prop :=
  ∃ name, body.get "model" .null = .str name ∧ Sole env (modelNameToDbId name) providerId

-- What is forwarded belongs to the provider that is charged, and never to one in hard stop.
structure Belongs (env : Env) (es : List Effect) (provider : ProviderBalance.ProviderStatus) :
    Prop where
  active    : provider.isActive
  running   : provider.status ≠ .hardStop
  charged   : ∀ task, .addTask task ∈ es → task.providerId = provider.providerId
  forwarded : ∀ path body, .post path body ∈ es → Names env body provider.providerId
  avoided   : ∀ path body name, .post path body ∈ es → body.get "model" .null = .str name →
    ∀ model ∈ env.models, model.isActive → model.modelId = modelNameToDbId name →
    ∀ status, env.providerStatus model.providerId = some status → status.status ≠ .hardStop

-- If the request falls back to another provider, then that has an active model, and the name of the
-- first one stands for an id that only active models of this provider have.
def Addressable (env : Env) (body : Json.Fields) : Prop :=
  ∀ model provider, Requests env body model → (routing env model).provider = some provider →
    (routing env model).isFallback → ∃ fallback,
      env.models.find? (fun m => m.providerId = provider.providerId ∧ m.isActive) = some fallback ∧
        Sole env (modelNameToDbId (dbIdToModelName fallback.modelId)) provider.providerId

theorem Requests.unique (h : Requests env body model) (h' : Requests env body model') :
    model' = model := by
  have ⟨modelName, hn, hm⟩ := h
  have ⟨modelName', hn', hm'⟩ := h'
  cases hn.symm.trans hn'
  cases hm.symm.trans hm'
  rfl

theorem Requests.names (h : Requests env body model) : Names env body model.providerId := by
  have ⟨modelName, hn, hm⟩ := h
  have hf : ∀ m, m ∈ env.models ∧ m.modelId = modelNameToDbId modelName ∧ m.isActive ↔
      m = model := by
    intro m
    have hl : m ∈ [model] ↔ m = model := List.mem_singleton
    rw [← hl, ← hm]
    simp
  refine ⟨modelName, hn, ⟨model, ?_⟩, fun m hm ha hi => ?_⟩
  · have ⟨hm, hi, ha⟩ := (hf model).mpr rfl
    exact ⟨hm, ha, hi⟩
  · rw [(hf m).mp ⟨hm, hi, ha⟩]

theorem Names.unique {id id' : UUID} (h : Names env body id) (h' : Names env body id') :
    id' = id := by
  have ⟨name, hn, ⟨model, hm, ha, hi⟩, hs⟩ := h
  have ⟨name', hn', _, hs'⟩ := h'
  cases hn.symm.trans hn'
  rw [← hs model hm ha hi, hs' model hm ha hi]

theorem names_set {id : UUID} :
    Names env (body.set "model" (.str name)) id ↔ Sole env (modelNameToDbId name) id := by
  simp [Names, Json.Fields.get_set_self]

-- The routing keeps the provider exactly if it finds no fallback.
theorem routing_provider (hn : env.Named) (h : (routing env model).provider = some provider) :
    provider.isActive ∧ provider.status ≠ .hardStop ∧
      env.providerStatus provider.providerId = some provider ∧
      ((routing env model).isFallback ↔ provider.providerId ≠ model.providerId) := by
  have ⟨id, hp, hs, ha, hf⟩ := ProviderBalance.resolveProviderForRequest_provider h
  cases hn id provider hp
  exact ⟨ha, hs, hp, hf⟩

-- The forwarded body names a model of the provider it is forwarded for exactly if a fallback can be
-- addressed.
theorem names_forwarded_iff (hn : env.Named) (hr : Requests env body model)
    (hp : (routing env model).provider = some provider) :
    Names env (forwarded env body model provider).1 provider.providerId ↔ Addressable env body := by
  have hd : ∀ {P : Model → ProviderBalance.ProviderStatus → Prop},
      (∀ model provider, Requests env body model → (routing env model).provider = some provider →
        P model provider) ↔ P model provider := by
    intro P
    refine ⟨fun h => h model provider hr hp, fun h model' provider' hr' hp' => ?_⟩
    cases hr.unique hr'
    cases hp.symm.trans hp'
    exact h
  have hf : forwarded env body model provider =
      forward env provider.providerId (routing env model).isFallback body model := rfl
  obtain ⟨_, _, _, hi⟩ := routing_provider hn hp
  rw [Addressable, hd, hf, forward]
  cases hb : (routing env model).isFallback
  case false =>
    have he : provider.providerId = model.providerId := by simpa [hb] using hi
    exact iff_of_true (he ▸ hr.names) (by simp)
  case true =>
    have he : provider.providerId ≠ model.providerId := by simpa [hb] using hi
    simp only [if_true, forall_const]
    cases hs : env.models.find? fun m => m.providerId = provider.providerId ∧ m.isActive
    case none          => exact iff_of_false (fun h => he (hr.names.unique h)) (by simp)
    case some fallback => simp [names_set]

theorem Served.belongs_iff (h : Served env body model markupRate provider inputText es)
    (hn : env.Named) (hp : .post path body' ∈ es) :
    Belongs env es provider ↔
      Names env (forwarded env body model provider).1 provider.providerId := by
  have ⟨ha, hr, hc, _⟩ := routing_provider hn h.routed
  have hf : ∀ {path body'}, .post path body' ∈ es → body' = (forwarded env body model provider).1 :=
    fun hp => h.follows _ hp
  constructor
  case mp => exact fun hb => hf hp ▸ hb.forwarded path body' hp
  case mpr =>
    intro hm
    have ⟨name, hg, _, hs⟩ := hm
    exact {
      active  := ha
      running := hr
      charged := by
        intro task ht
        have ⟨response, he⟩ := h.follows _ ht
        rw [he]
        rfl
      forwarded := fun path body' hp => hf hp ▸ hm
      avoided   := by
        intro path body' name' hp hg' m hm hma hmi status hst
        cases hg.symm.trans (hf hp ▸ hg')
        rw [hs m hm hma hmi, hc] at hst
        cases hst
        exact hr }

-- A request that gets as far as to call the proxy is served with a model of the provider that is
-- charged for it if and only if that model can be addressed.
theorem belongs_iff_addressable (hn : env.Named) (hs : Serving env body es)
    (hp : .post path body' ∈ es) :
    (∃ model provider, Requests env body model ∧ (routing env model).provider = some provider ∧
      Belongs env es provider) ↔ Addressable env body := by
  cases hs.silent_or_served
  case inl hq => exact absurd (hq _ hp) id
  case inr h =>
    have ⟨model, markupRate, provider, inputText, h⟩ := h
    rw [← names_forwarded_iff hn h.requests h.routed, ← h.belongs_iff hn hp]
    constructor
    case mp =>
      intro ⟨model', provider', hr, hp, hb⟩
      cases h.requests.unique hr
      cases h.routed.symm.trans hp
      exact hb
    case mpr => exact fun hb => ⟨model, provider, h.requests, h.routed, hb⟩

theorem post_mem_post_bind {f : Json.Fields → Handler α} :
    .post path body ∈ (post env path body >>= f).trace := by
  cases he : env.post path body
  case error e =>
    have ⟨statusCode, detail, ht⟩ := post_bind_of_error (f := f) he
    rw [ht]
    exact List.mem_cons_self
  case ok response =>
    rw [post_bind_of_ok he]
    exact List.mem_cons_self

-- A request for embeddings that is covered and approved gets as far as to call the proxy.
section Embeddings

variable (hm : findModel env body = pure model)
  (hr : env.markupRate model.id model.providerId = .ok markupRate)
  (hc : Credit.holdCredit env.account
    ((Endpoint.embeddings (embeddingsText env body)).estimatedCost model markupRate) = .ok account)
  (ha : Approves env model (embeddingsText env body) provider)

include hm hr hc ha

theorem embeddings_trace :
    let routed := approved env body model markupRate (embeddingsText env body) provider
    ∃ q, (embeddings env body).trace = .holdCredit env.userId env.requestId q :: .commit ::
      (post env .embeddings routed.body >>= fun response => do
        addTask env routed response
        return Response.json response).trace := by
  simp only [embeddings, prepare, hm, hr, holdCredit, hc, query_ok, lift_ok, pure_bind, bind_assoc,
    Traced.trace_emit_bind, serveEmbeddings]
  refine ⟨_, congrArg _ <| congrArg _ ?_⟩
  cases approve_cases env body model markupRate (embeddingsText env body)
  case inl hr => exact absurd ha (hr.left provider)
  case inr hr =>
    obtain ⟨provider', hp, hr⟩ := hr
    cases hp.right.symm.trans ha.right
    rw [hr, pure_bind]

theorem post_mem_embeddings :
    .post .embeddings (forwarded env body model provider).1 ∈ (embeddings env body).trace := by
  have ⟨q, ht⟩ := embeddings_trace hm hr hc ha
  rw [ht]
  exact List.mem_cons_of_mem _ <| List.mem_cons_of_mem _ post_mem_post_bind

theorem addTask_mem_embeddings {response : Json.Fields} :
    let routed := approved env body model markupRate (embeddingsText env body) provider
    env.post .embeddings routed.body = .ok response →
      .addTask (task env routed response) ∈ (embeddings env body).trace := by
  intro routed hp
  have ⟨q, ht⟩ := embeddings_trace hm hr hc ha
  rw [ht, post_bind_of_ok hp]
  exact List.mem_cons_of_mem _ <| List.mem_cons_of_mem _ <| List.mem_cons_of_mem _ <|
    List.mem_cons_self

end Embeddings

-- Provider 1, which has the model "m", is in hard stop, and falls back to provider 2.
def Env.fallingBack (models : List Model) (response : Json.Fields) : Env :=
  let models := ⟨1, 1, "m", 1, 1, none, true⟩ :: models
  { Env.answering response with
    models
    markupRate     := Markup.resolveFromDb models []
    providerStatus := fun id =>
      if id = 1 then some ⟨1, "openai", .hardStop, 1, 10, 2, some 2, true⟩
      else if id = 2 then some ⟨2, "groq", .normal, 50, 10, 2, none, true⟩
      else none }

theorem Env.fallingBack_named (models : List Model) (response : Json.Fields) :
    (Env.fallingBack models response).Named := by
  intro id provider h
  simp only [fallingBack] at h
  split_ifs at h
  all_goals
    cases h
    exact Eq.symm ‹_›

-- The only model of the fallback is not active.
theorem not_belongs_of_no_model :
    ¬∀ (env : Env) (body : Json.Fields) (es : List Effect) (path : Path) (body' : Json.Fields),
      env.Named → Serving env body es → .post path body' ∈ es →
      ∃ model provider, Requests env body model ∧ (routing env model).provider = some provider ∧
        Belongs env es provider := by
  intro h
  let env := Env.fallingBack [⟨2, 2, "n", 1, 1, none, false⟩] []
  let body : Json.Fields := [("model", .str "m")]
  let requested : Model := ⟨1, 1, "m", 1, 1, none, true⟩
  let fallback : ProviderBalance.ProviderStatus := ⟨2, "groq", .normal, 50, 10, 2, none, true⟩
  have hp : .post .embeddings (forwarded env body requested fallback).1 ∈
      (embeddings env body).trace :=
    post_mem_embeddings rfl rfl (if_neg (by decide +kernel)) ⟨rfl, rfl⟩
  obtain ⟨model, provider, hr, hd, hb⟩ :=
    h env body _ .embeddings _ (Env.fallingBack_named _ _) .embeddings hp
  have hn : Requests env body requested := ⟨"m", rfl, rfl⟩
  cases hn.unique hr
  cases (show (routing env requested).provider = some fallback from rfl).symm.trans hd
  have hf : Names env body 2 := hb.forwarded _ _ hp
  exact absurd (hn.names.unique hf) (by decide)

theorem belongs_of_fallback_model :
    let env := Env.fallingBack [⟨2, 2, "n", 1, 1, none, true⟩] []
    ∃ model provider, Requests env [("model", .str "m")] model ∧
      (routing env model).provider = some provider ∧
      Belongs env (embeddings env [("model", .str "m")]).trace provider := by
  intro env
  let body : Json.Fields := [("model", .str "m")]
  let requested : Model := ⟨1, 1, "m", 1, 1, none, true⟩
  let fallback : ProviderBalance.ProviderStatus := ⟨2, "groq", .normal, 50, 10, 2, none, true⟩
  have hp : .post .embeddings (forwarded env body requested fallback).1 ∈
      (embeddings env body).trace :=
    post_mem_embeddings rfl rfl (if_neg (by decide +kernel)) ⟨rfl, rfl⟩
  refine (belongs_iff_addressable (Env.fallingBack_named _ _) .embeddings hp).mpr ?_
  have hn : Requests env body requested := ⟨"m", rfl, rfl⟩
  intro model provider hr hd _
  cases hn.unique hr
  cases (show (routing env requested).provider = some fallback from rfl).symm.trans hd
  exact ⟨_, rfl, ⟨_, .tail _ <| .head _, rfl, rfl⟩, by decide⟩

end Gateway
