import AstraGate.Api.Theorems.Resolution

namespace Gateway

-- The consumer does not stop the generator: the stream is exhausted, or it raises.
def Stream.Ends : Stream → Prop
  | exhausted | raised _ => True
  | cancelled | closed _ => False
  | next _ rest          => rest.Ends

variable {env : Env} {body : Json.Fields} {routed : Routed}

theorem resolved_relay_iff {stream : Stream} (h : s.filter Effect.resolves = []) :
    Resolved env (s ++ (relay env routed r stream).trace) ↔ stream.Ends := by
  induction stream generalizing s r
  case exhausted     => exact iff_of_true (resolved_addTask (f := pure) h rfl) trivial
  case raised        => exact iff_of_true (.of_refund h) trivial
  case cancelled     => exact iff_of_false (by simp [Resolved, relay, raise, h]) id
  case closed        => exact iff_of_false (by simp [Resolved, relay, raise, h, Effect.resolves]) id
  case next chunk rest ih =>
    have hs : (s ++ [Effect.send chunk]).filter Effect.resolves = [] := by
      simp [h, Effect.resolves]
    rw [relay, Traced.trace_emit_bind, List.append_cons]
    exact ih hs

-- A stream resolves the hold of its request exactly once if and only if the consumer does not stop
-- the generator.
theorem resolved_streamGenerator_iff (env : Env) (routed : Routed) (stream : Stream) :
    Resolved env (streamGenerator env routed stream).trace ↔ stream.Ends := by
  rw [streamGenerator, Traced.trace_emit_bind]
  exact resolved_relay_iff (s := [_]) rfl

-- The client goes away once it has got the first chunk.
theorem not_resolved_of_closed :
    ¬∀ (env : Env) (routed : Routed) (stream : Stream),
      Resolved env (streamGenerator env routed stream).trace := by
  intro h
  let routed : Routed := ⟨"hi", [("model", .str "m"), ("stream", .bool true)], 1, 1, false, 1 / 5⟩
  have hs := h (.answering []) routed (.closed [100, 97, 116, 97, 58])
  exact (resolved_relay_iff (s := [_]) rfl).mp hs

theorem serveChat_streaming (hs : (body.get "stream" (.bool false)).truthy)
    (h : (serveChat env body model markupRate).result = .ok response) :
    (serveChat env body model markupRate).trace = [] := by
  unfold serveChat at h ⊢
  cases ht : chatText env body
  case error e => rfl
  case ok inputText =>
    rw [ht, lift_ok, pure_bind] at h
    rw [lift_ok, pure_bind]
    cases approve_cases env body model markupRate inputText
    case inl hr =>
      obtain ⟨e, he⟩ := (hr.right _).failed
      exact nomatch he.symm.trans h
    case inr hr =>
      have ⟨provider, _, hr⟩ := hr
      let routed := approved env body model markupRate inputText provider
      have hr : approve env body model markupRate inputText = pure routed := hr
      have hs : (routed.body.get "stream" (.bool false)).truthy := by
        have hb : routed.body.get "stream" (.bool false) = body.get "stream" (.bool false) :=
          forward_get (by decide)
        rw [hb, hs]
      rw [hr, pure_bind, if_pos hs, Traced.trace_pure]

-- A chat that returns a generator has held its credit, and leaves the resolution to the generator.
theorem resolvedOnce_streaming_iff {stream : Stream}
    (hs : (body.get "stream" (.bool false)).truthy)
    (h : (chatCompletions env body).result = .ok (.streaming routed)) :
    ResolvedOnce env
      ((chatCompletions env body).trace ++ (streamGenerator env routed stream).trace) ↔
      stream.Ends := by
  unfold chatCompletions at h ⊢
  cases prepare_cases env body (Endpoint.chat <$> maxTokens env body)
  case inl hp =>
    have ⟨_, e, hr⟩ := hp
    exact nomatch (Traced.result_bind_of_error hr).symm.trans h
  case inr hp =>
    have ⟨model, markupRate, q, _, _, hr, ht⟩ := hp
    rw [Traced.result_bind_of_ok hr] at h
    rw [Traced.trace_bind_of_ok hr, serveChat_streaming hs h, ht]
    refine Iff.trans ⟨?_, fun hr => ⟨q, _, rfl, hr⟩⟩ (resolved_relay_iff (s := [_]) rfl)
    rintro ⟨_, _, he, hr⟩
    cases he
    exact hr

end Gateway
