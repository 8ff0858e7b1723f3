import AstraGate.Execution.IpTracking.Step
import AstraGate.Lib.Python

open Function

namespace IpTracking

open State

variable {str : UUID ↪ String} {s s' s₁ s₂ : State} {t : TaskId} {k : UUID} {w : Nat}
  {task : Task} {c : Call}

theorem trackingKey_str_inj {k' : UUID} {w' : Nat} :
    trackingKey (str k') w' = trackingKey (str k) w ↔ (k', w') = (k, w) := by
  rw [trackingKey_inj, str.injective.eq_iff, Prod.mk.injEq]

section Members

variable {e : Option (Redis.Entry (Finset String))} {now ttl : Nat}

def value (e : Option (Redis.Entry (Finset String))) : Finset String :=
  (e.map Redis.Entry.value).getD ∅

-- What is in the set of a window, whether it has expired or not.
def State.members (str : UUID ↪ String) (s : State) (k : UUID) (w : Nat) : Finset String :=
  value (s.sets (trackingKey (str k) w))

theorem sets_update (s s' : State) (hs : s'.sets = update s.sets (key str c) e) :
    s'.sets (trackingKey (str c.keyId) c.hourWindow) = e ∧
      ∀ k w, (k, w) ≠ c.slot →
        s'.sets (trackingKey (str k) w) = s.sets (trackingKey (str k) w) := by
  constructor
  case left  => rw [hs, key, update_self]
  case right => exact fun k w hk => by rw [hs, key, update_of_ne (trackingKey_str_inj.not.mpr hk)]

theorem members_update (s s' : State) (hs : s'.sets = update s.sets (key str c) e) :
    s'.members str c.keyId c.hourWindow = value e ∧
      ∀ k w, (k, w) ≠ c.slot → s'.members str k w = s.members str k w :=
  have ⟨hu, ho⟩ := sets_update s s' hs
  ⟨congrArg value hu, fun k w hk => congrArg value (ho k w hk)⟩

theorem value_expire : value (Redis.expire now ttl e) = value e := by
  rw [value, Redis.expire_map_value, value]

-- A set that has expired is begun again.
theorem value_add_subset : (Redis.add now ip e).value ⊆ insert ip (value e) := by
  unfold Redis.add
  cases hf : Redis.find now e
  case none => simp
  case some e' =>
    have ⟨he, _⟩ := Option.filter_eq_some_iff.mp hf
    rw [he]
    rfl

theorem card_le : Redis.card now e ≤ (value e).card := by
  unfold Redis.card
  cases hf : Redis.find now e
  case none => exact Nat.zero_le _
  case some e' =>
    have ⟨he, _⟩ := Option.filter_eq_some_iff.mp hf
    rw [he]
    rfl

theorem add_of_forall_live (ip : String) (h : ∀ a ∈ e, a.Live now) :
    (Redis.add now ip e).value = insert ip (value e) ∧
      ∀ a ∈ e, (Redis.add now ip e).expires = a.expires := by
  cases e
  case none   => exact ⟨rfl, nofun⟩
  case some a =>
    rw [Redis.add_of_live (h a rfl)]
    exact ⟨rfl, fun b hb => by cases hb; rfl⟩

theorem card_of_forall_live (h : ∀ a ∈ e, a.Live now) : Redis.card now e = (value e).card := by
  cases e
  case none   => rfl
  case some a => exact Redis.card_of_live (h a rfl)

end Members

theorem addresses_add (str : UUID ↪ String) (h : s.tasks t = .begun c) :
    (s.add str t c).addresses c.keyId c.hourWindow =
        insert c.clientIp (s.addresses c.keyId c.hourWindow) ∧
      ∀ k w, (k, w) ≠ c.slot → (s.add str t c).addresses k w = s.addresses k w :=
  addresses_insert rfl rfl (by rw [h]; rfl)

theorem members_add (str : UUID ↪ String) (s : State) (t : TaskId) (c : Call) :
    (s.add str t c).members str c.keyId c.hourWindow =
        (Redis.add s.now c.clientIp (s.sets (key str c))).value ∧
      ∀ k w, (k, w) ≠ c.slot → (s.add str t c).members str k w = s.members str k w :=
  members_update s (s.add str t c) rfl

theorem members_expire (str : UUID ↪ String) (s : State) (t : TaskId) (c : Call) :
    (s.expire str t c).members str k w = s.members str k w := by
  have ⟨hm, ho⟩ := members_update s (s.expire str t c) rfl
  by_cases hc : (k, w) = c.slot
  case pos => cases hc; rw [hm, value_expire]; rfl
  case neg => exact ho k w hc

namespace Step

theorem addresses_subset (e : Step str s s') : s.addresses k w ⊆ s'.addresses k w := by
  have hk : ∀ {t task}, s'.tasks = update s.tasks t task → task.stored = (s.tasks t).stored →
      s.addresses k w ⊆ s'.addresses k w := fun hs ht => (addresses_eq hs ht).ge
  cases e
  case tick               => exact subset_rfl
  case begin t _ _ task   => exact hk rfl (by rw [task]; rfl)
  case expire t c task    => exact hk rfl (by rw [task]; rfl)
  case count t c task     => exact hk rfl (by rw [task]; rfl)
  case failAdd t c task   => exact hk rfl (by rw [task]; rfl)
  case failLater t c task =>
    exact hk rfl (by rcases task with task | task <;> rw [task] <;> rfl)
  case add t c task =>
    have ⟨hi, ho⟩ := addresses_add str task
    by_cases hc : (k, w) = c.slot
    case pos => cases hc; rw [hi]; exact Finset.subset_insert _ _
    case neg => rw [ho k w hc]

-- A set gets no other members than the addresses that are added to it.
theorem members_subset (e : Step str s s') (h : s.members str k w ⊆ s.addresses k w) :
    s'.members str k w ⊆ s'.addresses k w := by
  have ha := e.addresses_subset (k := k) (w := w)
  cases e
  case expire t c task => exact (members_expire str s t c).le.trans (h.trans ha)
  case add t c task =>
    have ⟨hm, ho⟩ := members_add str s t c
    have ⟨hi, _⟩ := addresses_add str task
    by_cases hc : (k, w) = c.slot
    case pos =>
      cases hc
      rw [hm, hi]
      exact value_add_subset.trans (Finset.insert_subset_insert _ h)
    case neg => rw [ho k w hc]; exact h.trans ha
  all_goals exact h.trans ha

-- A count is drawn by its own step, and stays.
theorem counted_cases (e : Step str s s') (h : s'.tasks t = .counted c n) :
    s.tasks t = .counted c n ∨
      n = Redis.card s.now (s.sets (key str c)) ∧ s'.addresses = s.addresses := by
  have hu : ∀ {t' task}, s'.tasks = update s.tasks t' task → (∀ c n, task ≠ .counted c n) →
      s.tasks t = .counted c n := by
    intro t' task hs hn
    by_cases ht : t = t'
    case pos => rw [hs, ht, update_self] at h; exact absurd h (hn c n)
    case neg => rwa [hs, update_of_ne ht] at h
  cases e
  case tick => exact .inl h
  case count t' c' task =>
    by_cases ht : t = t'
    case pos =>
      subst ht
      have h : Task.counted c' _ = .counted c n := (update_self ..).symm.trans h
      cases h
      exact .inr ⟨rfl, funext₂ fun k w => addresses_eq rfl (by rw [task]; rfl)⟩
    case neg => exact .inl ((update_of_ne ht ..).symm.trans h)
  all_goals exact .inl (hu rfl nofun)

end Step

-- What holds in every run: no set has too many members, and no task has counted too many.
structure State.Sound (str : UUID ↪ String) (s : State) : Prop where
  within  : ∀ k w, s.members str k w ⊆ s.addresses k w
  bounded : ∀ t c n, s.tasks t = .counted c n → n ≤ (s.addresses c.keyId c.hourWindow).card

theorem State.Initial.sound (h : s.Initial) : s.Sound str where
  within k w        := by simp [members, value, h.empty]
  bounded t c n htc := by rw [h.fresh t] at htc; cases htc

theorem Step.preserves_sound (e : Step str s s') (h : s.Sound str) : s'.Sound str where
  within k w := e.members_subset (h.within k w)
  bounded t c n ht := by
    cases e.counted_cases ht
    case inl ht => exact (h.bounded t c n ht).trans (Finset.card_le_card e.addresses_subset)
    case inr ht =>
      obtain ⟨rfl, ha⟩ := ht
      rw [ha]
      exact card_le.trans (Finset.card_le_card (h.within ..))

-- All tasks of a window have counted, and one of them all addresses.
def State.Known (s : State) (k : UUID) (w : Nat) : Prop :=
  (s.calls k w).Nonempty → (∀ t ∈ s.calls k w, ∃ c n, s.tasks t = .counted c n) →
    ∃ t ∈ s.calls k w, ∃ c, s.tasks t = .counted c (s.addresses k w).card

-- What holds in prompt runs: the set of a window has all its addresses, and lasts as long as it.
structure State.Exact (str : UUID ↪ String) (s : State) : Prop where
  clock   : ∀ t c, (s.tasks t).call = some c → 3600000 * c.hourWindow ≤ s.now
  full    : ∀ k w, s.members str k w = s.addresses k w
  lasting : ∀ k w, ∀ e ∈ s.sets (trackingKey (str k) w), ∀ t ∈ e.expires, 3600000 * (w + 1) ≤ t
  known   : ∀ k w, s.Known k w

theorem State.Initial.exact (h : s.Initial) : s.Exact str where
  clock t c htc     := by rw [h.fresh t] at htc; cases htc
  full k w          := by
    ext ip
    simp [members, value, h.empty, mem_addresses, h.fresh, Task.stored]
  lasting k w e he  := by rw [h.empty] at he; cases he
  known k w hn      := by
    obtain ⟨t, ht⟩ := hn
    obtain ⟨c, hc, -⟩ := mem_calls.mp ht
    rw [h.fresh t] at hc
    cases hc

theorem State.Exact.live (h : s.Exact str) (hp : s.now < 3600000 * (c.hourWindow + 1)) :
    ∀ a ∈ s.sets (key str c), a.Live s.now :=
  fun a ha t ht => hp.trans_le (h.lasting _ _ a ha t ht)

-- The tasks of another window do not matter.
theorem State.Known.of_other (h : s.Known k w) (hs : s'.tasks = update s.tasks t task)
    (hc : task.call = some c) (ho : s.tasks t = .fresh ∨ (s.tasks t).call = some c)
    (ha : s'.addresses k w = s.addresses k w) (hk : (k, w) ≠ c.slot) : s'.Known k w := by
  have hn : ∀ c', (s.tasks t).call = some c' → c'.slot ≠ (k, w) := by
    intro c' hc' he
    cases ho
    case inl ho => rw [ho] at hc'; cases hc'
    case inr ho => cases ho.symm.trans hc'; exact hk he.symm
  have ht : ∀ {t'}, (t' ∈ s'.calls k w ↔ t' ∈ s.calls k w) ∧
      (t' ∈ s.calls k w → s'.tasks t' = s.tasks t') := by
    intro t'
    simp only [mem_calls]
    by_cases he : t' = t
    case pos =>
      subst he
      rw [hs, update_self, hc]
      refine ⟨iff_of_false ?_ ?_, ?_⟩
      · rintro ⟨c', hc', he⟩
        cases hc'
        exact hk he.symm
      · exact fun ⟨c', hc', he⟩ => hn c' hc' he
      · exact fun ⟨c', hc', he⟩ => absurd he (hn c' hc')
    case neg => rw [hs, update_of_ne he]; exact ⟨Iff.rfl, fun _ => rfl⟩
  intro ⟨t₀, ht₀⟩ hall
  have ⟨t₁, ht₁, c', hc'⟩ := h ⟨t₀, ht.left.mp ht₀⟩ fun t₁ ht₁ => by
    obtain ⟨c', n, hc'⟩ := hall t₁ (ht.left.mpr ht₁)
    exact ⟨c', n, (ht.right ht₁).symm.trans hc'⟩
  exact ⟨t₁, ht.left.mpr ht₁, c', by rw [ht.right ht₁, ha, hc']⟩

-- A task that has not counted yet is either for this window, so that not all of its tasks have, or
-- for another one.
theorem State.Known.of_move (h : s.Known k w) (hs : s'.tasks = update s.tasks t task)
    (hc : task.call = some c) (hn : ∀ c n, task ≠ .counted c n)
    (ho : s.tasks t = .fresh ∨ (s.tasks t).call = some c)
    (ha : (k, w) ≠ c.slot → s'.addresses k w = s.addresses k w) : s'.Known k w := by
  by_cases hk : (k, w) = c.slot
  case neg => exact h.of_other hs hc ho (ha hk) hk
  case pos =>
    intro _ hall
    have hm : t ∈ s'.calls k w := mem_calls.mpr ⟨c, by rw [hs, update_self, hc], hk.symm⟩
    obtain ⟨c', n, ht⟩ := hall t hm
    rw [hs, update_self] at ht
    exact absurd ht (hn c' n)

namespace Step

theorem preserves_clock (e : Step str s s') (h : s.Exact str) :
    ∀ t c, (s'.tasks t).call = some c → 3600000 * c.hourWindow ≤ s'.now := by
  have hu : ∀ {t task}, (∀ c, task.call = some c → 3600000 * c.hourWindow ≤ s.now) →
      ∀ t' c, (update s.tasks t task t').call = some c → 3600000 * c.hourWindow ≤ s.now :=
    fun ht => (forall_update_iff s.tasks fun _ task => ∀ c, task.call = some c →
      3600000 * c.hourWindow ≤ s.now).mpr ⟨ht, fun t' _ => h.clock t'⟩
  have hk : ∀ {t task' c}, s.tasks t = task' → task'.call = some c →
      ∀ c', some c = some c' → 3600000 * c'.hourWindow ≤ s.now := by
    intro t task' c ht hc c' he
    cases he
    exact h.clock t c (ht ▸ hc)
  cases e
  case tick d => exact fun t c hc => (h.clock t c hc).trans (Nat.le_add_right ..)
  case begin t keyId clientIp task =>
    refine hu fun c hc => ?_
    cases hc
    change 3600000 * hourWindow s.now ≤ s.now
    rw [hourWindow, RateLimit.seconds]
    omega
  case add t c task     => exact hu (hk task rfl)
  case expire t c task  => exact hu (hk task rfl)
  case count t c task   => exact hu (hk task rfl)
  case failAdd t c task => exact hu (hk task rfl)
  case failLater t c task =>
    cases task
    case inl task => exact hu (hk task rfl)
    case inr task => exact hu (hk task rfl)

theorem preserves_full (e : Step str s s') (h : s.Exact str) (hp : e.Prompt) :
    s'.members str k w = s'.addresses k w := by
  have hk : ∀ {t task}, s'.tasks = update s.tasks t task → task.stored = (s.tasks t).stored →
      s.members str k w = s'.addresses k w :=
    fun hs ht => (h.full k w).trans (addresses_eq hs ht).symm
  cases e
  case tick               => exact h.full k w
  case begin t _ _ task   => exact hk rfl (by rw [task]; rfl)
  case count t c task     => exact hk rfl (by rw [task]; rfl)
  case failAdd t c task   => exact hk rfl (by rw [task]; rfl)
  case failLater t c task =>
    exact hk rfl (by rcases task with task | task <;> rw [task] <;> rfl)
  case expire t c task    =>
    exact (members_expire str s t c).trans <| hk rfl (by rw [task]; rfl)
  case add t c task =>
    have ⟨hm, ho⟩ := members_add str s t c
    have ⟨hi, ho'⟩ := addresses_add str task
    by_cases hc : (k, w) = c.slot
    case pos =>
      cases hc
      have hl := (add_of_forall_live c.clientIp (h.live hp)).left
      rw [hm, hi, hl, ← h.full]
      rfl
    case neg => rw [ho k w hc, ho' k w hc, h.full]

theorem preserves_lasting (e : Step str s s') (h : s.Exact str) (hp : e.Prompt) :
    ∀ a ∈ s'.sets (trackingKey (str k) w), ∀ t ∈ a.expires, 3600000 * (w + 1) ≤ t := by
  cases e
  case expire t c task =>
    have ⟨hu, ho⟩ := sets_update s (s.expire str t c) rfl
    by_cases hc : (k, w) = c.slot
    case neg => rw [ho k w hc]; exact h.lasting k w
    case pos =>
      cases hc
      rw [hu]
      intro a ha x hx
      have ⟨a', ha', he⟩ := Redis.expire_eq_some ha
      cases he x hx
      case inr he => exact h.lasting _ _ a' ha' x he
      case inl he =>
        have hw := h.clock t c (by rw [task]; rfl)
        rw [he, ipTrackingTtl, Nat.mul_add]
        exact Nat.add_le_add_right hw _
  case add t c task =>
    have ⟨hu, ho⟩ := sets_update s (s.add str t c) rfl
    by_cases hc : (k, w) = c.slot
    case neg => rw [ho k w hc]; exact h.lasting k w
    case pos =>
      cases hc
      rw [hu]
      intro a ha x hx
      cases ha
      cases he : s.sets (key str c)
      case none => rw [he] at hx; cases hx
      case some a' =>
        have hl := (add_of_forall_live c.clientIp (h.live hp)).right a' he
        rw [hl] at hx
        exact h.lasting _ _ a' he x hx
  all_goals exact h.lasting k w

theorem preserves_known (e : Step str s s') (h : s.Exact str) (hp : e.Prompt) :
    s'.Known k w := by
  have hk : s.Known k w := h.known k w
  cases e
  case tick => exact hk
  case count t c task =>
    have ha : (s.count str t c).addresses k w = s.addresses k w :=
      addresses_eq rfl (by rw [task]; rfl)
    by_cases hc : (k, w) = c.slot
    case neg => exact hk.of_other rfl rfl (.inr (by rw [task]; rfl)) ha hc
    case pos =>
      cases hc
      intro _ _
      have ht : (s.count str t c).tasks t = _ := update_self ..
      refine ⟨t, mem_calls.mpr ⟨c, congrArg Task.call ht, rfl⟩, c, ?_⟩
      rw [ha, ← h.full, ht, card_of_forall_live (h.live hp)]
      rfl
  case begin t keyId clientIp task =>
    exact hk.of_move rfl rfl nofun (.inl task) fun _ => addresses_eq rfl (by rw [task]; rfl)
  case add t c task =>
    exact hk.of_move rfl rfl nofun (.inr (by rw [task]; rfl)) ((addresses_add str task).right k w)
  case expire t c task =>
    exact hk.of_move rfl rfl nofun (.inr (by rw [task]; rfl))
      fun _ => addresses_eq rfl (by rw [task]; rfl)
  case failAdd t c task =>
    exact hk.of_move rfl rfl nofun (.inr (by rw [task]; rfl))
      fun _ => addresses_eq rfl (by rw [task]; rfl)
  case failLater t c task =>
    have ht : (s.tasks t).call = some c ∧ (s.tasks t).stored = (Task.lost c).stored := by
      rcases task with task | task <;> rw [task] <;> exact ⟨rfl, rfl⟩
    exact hk.of_move rfl rfl nofun (.inr ht.left) fun _ => addresses_eq rfl ht.right.symm

theorem preserves_exact (e : Step str s s') (h : s.Exact str) (hp : e.Prompt) :
    s'.Exact str where
  clock       := e.preserves_clock h
  full _ _    := e.preserves_full h hp
  lasting _ _ := e.preserves_lasting h hp
  known _ _   := e.preserves_known h hp

end Step

theorem warns_iff_of_known (h : s.Sound str) (hk : s.Known k w)
    (hc : ∀ t ∈ s.calls k w, ∃ c n, s.tasks t = .counted c n) :
    (∃ t ∈ s.calls k w, (s.tasks t).warns) ↔
      suspiciousIpThreshold < (s.addresses k w).card := by
  constructor
  case mp =>
    intro ⟨t, ht, hw⟩
    obtain ⟨c, n, hn⟩ := hc t ht
    obtain ⟨c', hc', hs⟩ := mem_calls.mp ht
    rw [hn] at hw hc'
    cases hc'
    cases hs
    exact (of_decide_eq_true hw).trans_le (h.bounded t c n hn)
  case mpr =>
    intro hl
    have ⟨ip, hi⟩ := Finset.card_pos.mp (Nat.zero_lt_of_lt hl)
    obtain ⟨t, c, hst, hs, -⟩ := mem_addresses.mp hi
    have ht : t ∈ s.calls k w := mem_calls.mpr ⟨c, Task.call_of_stored hst, hs⟩
    obtain ⟨t', ht', c', hn⟩ := hk ⟨t, ht⟩ hc
    exact ⟨t', ht', by rw [hn]; exact decide_eq_true hl⟩

-- Whatever fails or is late, a warning says that more than ten addresses have used the key in the
-- hour. If Redis answers in time, then it is not missed either, whatever the order of the commands.
theorem warns_iff (es : Run str s₁ s₂) (h : s₁.Initial) :
    (∀ t ∈ s₂.calls k w, (s₂.tasks t).warns →
        suspiciousIpThreshold < (s₂.addresses k w).card) ∧
      (es.All Step.Prompt → (∀ t ∈ s₂.calls k w, ∃ c n, s₂.tasks t = .counted c n) →
        ((∃ t ∈ s₂.calls k w, (s₂.tasks t).warns) ↔
          suspiciousIpThreshold < (s₂.addresses k w).card)) := by
  have hs : s₂.Sound str := es.invariant (fun e => e.preserves_sound) h.sound
  constructor
  case left =>
    intro t ht hw
    obtain ⟨c, hc, hsl⟩ := mem_calls.mp ht
    cases htt : s₂.tasks t <;> rw [htt] at hw hc
    case counted c' n =>
      cases hc
      cases hsl
      exact (of_decide_eq_true hw).trans_le (hs.bounded t c n htt)
    all_goals cases hw
  case right =>
    intro hp hc
    have he : s₂.Exact str :=
      es.invariant_of_all (fun e => e.preserves_exact) h.exact hp
    exact warns_iff_of_known hs (he.known k w) hc

-- Two addresses use a key at the same time, of which the first one to be added is counted last.
theorem warns_iff_of_two_addresses :
    ∃ (s₁ s₂ : State), Nonempty (Run Python.str s₁ s₂) ∧ (s₂.addresses 7 0).card = 2 ∧
      ¬∃ t ∈ s₂.calls 7 0, (s₂.tasks t).warns := by
  let es : Run Python.str .initial _ :=
    .step (.begin 1 7 "10.0.0.1" rfl) <|
    .step (.tick 500) <|
    .step (.begin 2 7 "10.0.0.2" rfl) <|
    .step (.add 1 ⟨7, "10.0.0.1", 0⟩ rfl) <|
    .step (.add 2 ⟨7, "10.0.0.2", 0⟩ rfl) <|
    .step (.expire 2 ⟨7, "10.0.0.2", 0⟩ rfl) <|
    .step (.count 2 ⟨7, "10.0.0.2", 0⟩ rfl) <|
    .step (.expire 1 ⟨7, "10.0.0.1", 0⟩ rfl) <|
    .step (.count 1 ⟨7, "10.0.0.1", 0⟩ rfl) .refl
  have hp : es.All Step.Prompt := by
    refine ⟨trivial, trivial, trivial, ?_, ?_, trivial, ?_, trivial, ?_, trivial⟩ <;>
      (unfold Step.Prompt; decide)
  have hw := (warns_iff (k := 7) (w := 0) es initial_isInitial).right hp fun t ht => by
    obtain rfl | rfl := (by decide +kernel : ∀ t ∈ State.calls _ 7 0, t = 1 ∨ t = 2) t ht
    · exact ⟨_, _, rfl⟩
    · exact ⟨_, _, rfl⟩
  exact ⟨_, _, ⟨es⟩, by decide +kernel, hw.not.mpr (by decide +kernel)⟩

end IpTracking
