import AstraGate.Execution.RateLimit.Step
import AstraGate.Lib.Python
import AstraGate.Lib.Tickets

open Function Tickets

namespace RateLimit

variable {str : UUID ↪ String} {s s' : State} {r : CallId} {t : Task} {k : UUID} {w : Nat}

namespace State

-- The counter of a window is as high as the count of the calls that have incremented it, each of
-- them has drawn a number of its own, and the counter outlasts the minute after its window.
structure Invariant (str : UUID ↪ String) (s : State) : Prop where
  clock    : ∀ r, ∀ now ∈ (s.tasks r).readAt, now ≤ s.now
  numbered : ∀ k w, Numbered s.number (s.counted k w)
  counter  : ∀ k w,
    (s.counters (buildKey (str k) w) |>.map Redis.Entry.value |>.getD 0) = (s.counted k w).card
  lasting  : ∀ k w e, s.counters (buildKey (str k) w) = some e → ∀ t ∈ e.expires,
    60000 * (w + 2) ≤ t

theorem Initial.counted (h : s.Initial) : s.counted k w = ∅ := by
  ext r
  simp [mem_counted, h.fresh r, Task.slot]

theorem Initial.invariant (h : s.Initial) : s.Invariant str where
  clock r          := by simp [h.fresh r, Task.readAt]
  numbered k w     := by rw [h.counted]; exact numbered_empty
  counter k w      := by simp [h.empty, h.counted]
  lasting k w e he := by simp [h.empty] at he

theorem Invariant.congr (h : s.Invariant str) (hc : s'.counters = s.counters)
    (hs : ∀ k w, s'.counted k w = s.counted k w) (hn : s'.number = s.number)
    (ht : ∀ r, ∀ now ∈ (s'.tasks r).readAt, now ≤ s'.now) :
    s'.Invariant str where
  clock        := ht
  numbered k w := by rw [hs, hn]; exact h.numbered k w
  counter k w  := by rw [hc, hs]; exact h.counter k w
  lasting k w  := by rw [hc]; exact h.lasting k w

-- A step that does not increment the counter for a call leaves the counted calls alone.
theorem counted_eq (hs : s'.tasks = update s.tasks r t) (hn : t.number = (s.tasks r).number)
    (hl : t.number ≠ none → t.slot = (s.tasks r).slot) :
    s'.counted k w = s.counted k w := by
  ext r'
  by_cases hr : r' = r
  case pos =>
    subst hr
    simp only [mem_counted, hs, update_self, ← hn]
    exact and_congr_left fun hn => by rw [hl hn]
  case neg => simp [mem_counted, hs, hr]

theorem number_update (hs : s'.tasks = update s.tasks r t) :
    s'.number = update s.number r (t.number.getD 0) := by
  funext r'
  by_cases hr : r' = r
  case pos => subst hr; simp [number, hs]
  case neg => simp [number, hs, hr]

theorem number_eq (hs : s'.tasks = update s.tasks r t) (hn : t.number = (s.tasks r).number) :
    s'.number = s.number := by
  rw [number_update hs, hn]
  exact update_eq_self r s.number

-- A step that increments the counter for a call adds it to the counted calls of its window.
theorem counted_insert (hs : s'.tasks = update s.tasks r t) (hn : t.number ≠ none)
    (hl : t.slot = some (k, w)) (hr : (s.tasks r).slot = t.slot) :
    s'.counted k w = insert r (s.counted k w) ∧
      ∀ k' w', (k', w') ≠ (k, w) → s'.counted k' w' = s.counted k' w' := by
  constructor
  case left =>
    ext r'
    by_cases hr : r' = r
    case pos => simp [mem_counted, hs, hr, hn, hl]
    case neg => simp [mem_counted, hs, hr]
  case right =>
    intro k' w' hk
    ext r'
    by_cases hr' : r' = r
    case pos =>
      have hk : t.slot ≠ some (k', w') := fun he => hk (Option.some.inj (he.symm.trans hl))
      simp [mem_counted, hs, hr', hr, hk]
    case neg => simp [mem_counted, hs, hr']

-- A counter is found by every call that increments it in time.
theorem Invariant.incr_eq (h : s.Invariant str) (hp : s.now < 60000 * (w + 2)) :
    (Redis.incr s.now <| s.counters <| buildKey (str k) w).value = (s.counted k w).card + 1 ∧
      ∀ t ∈ (Redis.incr s.now <| s.counters <| buildKey (str k) w).expires,
        60000 * (w + 2) ≤ t := by
  have hc := h.counter k w
  cases he : s.counters (buildKey (str k) w)
  case none   => simp_all [Redis.incr]
  case some e =>
    have hl : e.Live s.now := fun t ht => hp.trans_le (h.lasting k w e he t ht)
    rw [Redis.incr_of_live hl, ← hc, he]
    exact ⟨rfl, h.lasting k w e he⟩

theorem buildKey_str_inj {k' : UUID} {w' : Nat} :
    buildKey (str k') w' = buildKey (str k) w ↔ (k', w') = (k, w) := by
  rw [buildKey_inj, str.injective.eq_iff, Prod.mk.injEq]

-- Drawing the next number for a call, and setting the counter to it.
theorem Invariant.draw {c : Redis.Entry Nat} (h : s.Invariant str)
    (hs : s'.tasks = update s.tasks r t)
    (hc : s'.counters = update s.counters (buildKey (str k) w) (some c))
    (ht : ∀ r, ∀ now ∈ (s'.tasks r).readAt, now ≤ s'.now)
    (hl : t.slot = some (k, w)) (hr : (s.tasks r).slot = t.slot) (hn : (s.tasks r).number = none)
    (hd : t.number = some c.value) (hv : c.value = (s.counted k w).card + 1)
    (hx : ∀ t ∈ c.expires, 60000 * (w + 2) ≤ t) : s'.Invariant str := by
  have hm : ∀ k' w', r ∉ s.counted k' w' := fun k' w' hm => (mem_counted.mp hm).right hn
  have ⟨hi, ho⟩ := counted_insert hs (by simp [hd]) hl hr
  have hu : s'.number = update s.number r c.value := by rw [number_update hs, hd]; rfl
  have hg : ∀ k' w', Numbered s'.number (s.counted k' w') := by
    intro k' w'
    refine (h.numbered k' w').congr fun r' hr' => ?_
    have hne : r' ≠ r := fun he => hm k' w' (he ▸ hr')
    rw [hu, update_of_ne hne]
  constructor
  case clock => exact ht
  case numbered =>
    intro k' w'
    by_cases hk : (k', w') = (k, w)
    case pos =>
      cases hk
      rw [hi]
      exact (hg k w).draw (hm k w) (by rw [hu, update_self, hv])
    case neg => rw [ho k' w' hk]; exact hg k' w'
  case counter =>
    intro k' w'
    by_cases hk : (k', w') = (k, w)
    case pos =>
      cases hk
      rw [hi, Finset.card_insert_of_notMem (hm k w), hc, update_self, ← hv]
      rfl
    case neg =>
      rw [ho k' w' hk, hc, update_of_ne (buildKey_str_inj.not.mpr hk)]
      exact h.counter k' w'
  case lasting =>
    intro k' w' e he
    by_cases hk : (k', w') = (k, w)
    case pos =>
      cases hk
      rw [hc, update_self] at he
      cases he
      exact hx
    case neg =>
      rw [hc, update_of_ne (buildKey_str_inj.not.mpr hk)] at he
      exact h.lasting k' w' e he

end State

open State

theorem Step.preserves_clock (e : Step str s s') (h : s.Invariant str) :
    ∀ r, ∀ now ∈ (s'.tasks r).readAt, now ≤ s'.now := by
  have hu : ∀ {r t}, (∀ now ∈ t.readAt, now ≤ s.now) →
      ∀ r', ∀ now ∈ (update s.tasks r t r').readAt, now ≤ s.now :=
    fun ht => (forall_update_iff s.tasks fun _ t => ∀ now ∈ t.readAt, now ≤ s.now).mpr
      ⟨ht, fun r' _ => h.clock r'⟩
  cases e
  case tick d => exact fun r now hn => (h.clock r now hn).trans (Nat.le_add_right ..)
  case pass | failIncr | failExpire | expire => exact hu nofun
  case read => exact hu (by simp [Task.readAt])
  case incr r key now task =>
    have hr := h.clock r
    rw [task] at hr
    refine hu ?_
    split
    · exact hr
    · exact nofun

-- Every call that is over has a count.
def State.Available (s : State) : Prop :=
  ∀ r key now, s.tasks r ≠ .decided key now none

theorem Step.preserves_available (e : Step str s s') (h : s.Available) (hp : e.Prompt) :
    s'.Available := by
  have hu : ∀ {r t}, (∀ key now, t ≠ .decided key now none) →
      ∀ r' key now, update s.tasks r t r' ≠ .decided key now none :=
    fun ht => (forall_update_iff s.tasks fun _ t => ∀ key now, t ≠ .decided key now none).mpr
      ⟨ht, fun r' _ => h r'⟩
  cases e
  case tick                  => exact h
  case pass | read | expire  => exact hu nofun
  case incr                  => exact hu (by split <;> nofun)
  case failIncr | failExpire => contradiction

theorem Step.preserves_invariant (e : Step str s s') (h : s.Invariant str) (hp : e.Prompt) :
    s'.Invariant str := by
  have hc := e.preserves_clock h
  cases e
  case tick d => exact h.congr rfl (fun _ _ => rfl) rfl hc
  case pass task _ =>
    exact h.congr rfl (fun _ _ => counted_eq rfl (by rw [task]; rfl) nofun)
      (number_eq rfl (by rw [task]; rfl)) hc
  case read task _ =>
    exact h.congr rfl (fun _ _ => counted_eq rfl (by rw [task]; rfl) nofun)
      (number_eq rfl (by rw [task]; rfl)) hc
  case incr r key now task =>
    have ⟨hv, hx⟩ := h.incr_eq (k := key.id) (lt_of_lt_add hp)
    refine h.draw rfl rfl hc ?_ ?_ ?_ ?_ hv hx
    · split <;> rfl
    · rw [task]; split <;> rfl
    · rw [task]; rfl
    · split
      case isTrue h1 => rw [h1]; rfl
      case isFalse => rfl
  case expire r key now task =>
    have hn : Task.number (.decided key now (some 1)) = (s.tasks r).number := by rw [task]; rfl
    have hs : ∀ k w, (s.expire str r key now).counted k w = s.counted k w :=
      fun _ _ => counted_eq rfl hn (fun _ => by rw [task]; rfl)
    have hu : (s.expire str r key now).counters =
        update s.counters (buildKey (str key.id) (minuteWindow now))
          (Redis.expire s.now rateLimitTtl _) := rfl
    constructor
    case clock => exact hc
    case numbered =>
      intro k w
      rw [hs, number_eq rfl hn]
      exact h.numbered k w
    case counter =>
      intro k w
      rw [hs, ← h.counter, hu]
      by_cases hk : (k, w) = (key.id, minuteWindow now)
      case pos => cases hk; rw [update_self, Redis.expire_map_value]
      case neg => rw [update_of_ne (buildKey_str_inj.not.mpr hk)]
    case lasting =>
      intro k w e he t ht
      rw [hu] at he
      by_cases hk : (k, w) = (key.id, minuteWindow now)
      case pos =>
        cases hk
        rw [update_self] at he
        have ⟨e', he', hx⟩ := Redis.expire_eq_some he
        cases hx t ht
        case inl ht =>
          have hr := h.clock r now (by rw [task]; rfl)
          exact ht ▸ le_add_rateLimitTtl hr
        case inr ht => exact h.lasting _ _ e' he' t ht
      case neg =>
        rw [update_of_ne (buildKey_str_inj.not.mpr hk)] at he
        exact h.lasting k w e he t ht
  case failIncr   => contradiction
  case failExpire => contradiction

theorem Task.eq_decided {t : Task} (ha : ∀ key now, t ≠ .decided key now none)
    (hr : t.result ≠ none) (hs : t.slot = some (k, w)) :
    ∃ key now count, t = .decided key now (some count) ∧ minuteWindow now = w := by
  cases t
  case decided key now count =>
    cases count
    case none       => exact absurd rfl (ha key now)
    case some count => exact ⟨key, now, count, rfl, congrArg Prod.snd <| Option.some.inj hs⟩
  all_goals contradiction

theorem Task.passes_decided_iff {now : Time} (hl : key.rateLimitRpm = some L) :
    (decided key now (some count)).passes ↔ count ≤ L := by
  by_cases hc : count ≤ L
  case pos => simp [passes, result, enforceRateLimit_of_le hl hc, hc, Except.isOk, Except.toBool]
  case neg =>
    have ⟨e, he, _⟩ := enforceRateLimit_of_lt now hl (not_le.mp hc)
    simp [passes, result, he, hc, Except.isOk, Except.toBool]

-- In every run with an available Redis, of the calls for a key with limit `L` in a minute window
-- pass as many as the limit allows for, whatever the other calls do.
theorem card_passed_eq_min (es : Run str s₁ s₂) (h : s₁.Initial) (hp : es.All Step.Prompt)
    (hl : ∀ r ∈ s₂.calls k w, (s₂.tasks r).limit = some L)
    (hd : ∀ r ∈ s₂.calls k w, (s₂.tasks r).result ≠ none) :
    (s₂.passed k w).card = min (s₂.calls k w).card L ∧
      ∀ r ∈ s₂.calls k w \ s₂.passed k w, ∃ key now count e,
        s₂.tasks r = .decided key now count ∧ (s₂.tasks r).result = some (.error e) ∧
        1 ≤ e.retryAfter ∧ e.retryAfter ≤ windowSeconds ∧
        seconds now + e.retryAfter = windowSeconds * (w + 1) := by
  have hi := es.invariant_of_all (fun e => e.preserves_invariant) h.invariant hp
  have ha : s₂.Available :=
    es.invariant_of_all (fun e => e.preserves_available) (fun r => by simp [h.fresh r]) hp
  have hc : ∀ r ∈ s₂.calls k w, ∃ key now count, s₂.tasks r = .decided key now (some count) ∧
      minuteWindow now = w ∧ key.rateLimitRpm = some L := by
    intro r hr
    have ⟨key, now, count, ht, hw⟩ := Task.eq_decided (ha r) (hd r hr) (mem_calls.mp hr)
    exact ⟨key, now, count, ht, hw, by simpa [ht, Task.limit] using hl r hr⟩
  have hs : s₂.counted k w = s₂.calls k w := by
    refine Finset.filter_true_of_mem fun r hr => ?_
    have ⟨key, now, count, ht, _⟩ := hc r hr
    simp [ht, Task.number]
  have hpass : s₂.passed k w = (s₂.calls k w).filter (s₂.number · ≤ L) := by
    refine Finset.filter_congr fun r hr => ?_
    have ⟨key, now, count, ht, _, hk⟩ := hc r hr
    rw [ht, Task.passes_decided_iff hk, number, ht]
    rfl
  constructor
  case left => rw [hpass, ← hs, (hi.numbered k w).card_filter_le]
  case right =>
    intro r hr
    have ⟨hr, hn⟩ := Finset.mem_sdiff.mp hr
    have ⟨key, now, count, ht, hw, hk⟩ := hc r hr
    have hn : ¬count ≤ L := by
      rw [hpass, Finset.mem_filter] at hn
      simpa [hr, ht, number, Task.number] using hn
    have ⟨e, he, hx⟩ := enforceRateLimit_of_lt now hk (not_le.mp hn)
    have ⟨h₁, h₂, h₃⟩ := seconds_add_retryAfter now
    rw [← hx, hw] at *
    exact ⟨key, now, some count, e, ht, by rw [ht, Task.result, he], h₁, h₂, h₃⟩

-- Two calls for a key with a limit of one request per minute, of which the first to count sets the
-- time to live last.
theorem card_passed_eq_one :
    ∃ (str : UUID ↪ String) (s₁ s₂ : State), Nonempty (Run str s₁ s₂) ∧
      (s₂.calls 7 0).card = 2 ∧ (s₂.passed 7 0).card = 1 := by
  let key : VirtualKey := ⟨7, 1, "Default Key", none, "", "", true, some 1, none, 0, 0, none⟩
  let es : Run Python.str .initial _ :=
    .step (.read 1 key rfl (by decide)) <|
    .step (.tick 500) <|
    .step (.read 2 key rfl (by decide)) <|
    .step (.incr 2 key 500 rfl) <|
    .step (.incr 1 key 0 rfl) <|
    .step (.expire 2 key 500 rfl) .refl
  have hp : es.All Step.Prompt := by
    refine ⟨trivial, trivial, trivial, ?_, ?_, trivial, trivial⟩ <;> (unfold Step.Prompt; decide)
  have hc := card_passed_eq_min (k := 7) (w := 0) (L := 1) es State.initial_isInitial hp
    (by decide +kernel) (by decide +kernel)
  exact ⟨Python.str, _, _, ⟨es⟩, by decide +kernel, hc.left.trans (by decide +kernel)⟩

end RateLimit
