import AstraGate.Execution.Store.Mock
import AstraGate.Execution.Store.Theorems.Refinement

open Function

namespace MockRedis

open Redis

variable {store : MockRedis} {key : String}

theorem server_setex (time : Nat) {value : String} : (store.setex key time value).server =
    update store.server key (some { value := .text value, expires := none }) := by
  funext key'
  rw [server, get_setex]
  by_cases hk : key' = key
  case pos => rw [hk, update_self, update_self]; rfl
  case neg => rw [update_of_ne hk, update_of_ne hk]; rfl

theorem server_delete {keys : List String} :
    (store.delete keys).2.server = store.server.del keys := by
  funext key
  by_cases hk : key ∈ keys <;> simp [server, get_delete, Server.del, hk]

theorem get_server (now : Time) : store.server.get now key = .ok (store.get key) := by
  unfold Server.get server
  cases store.get key
  case none => rfl
  case some raw =>
    have hl : Entry.Live now { value := Data.text raw, expires := none } := by simp [Entry.Live]
    rw [Option.map_some, find_of_live hl]
    rfl

end MockRedis

namespace Store

open Redis

variable {floatRepr : String → String} {text : Markup.RateText} {store : MockRedis} {s : State}
  {server : Server} {now : Time} {ttl : Nat} {k : Key}

-- The entry, if it never expired.
def lasting (e : Entry α) : Entry α :=
  { e with expires := none }

def State.lasting (s : State) : State :=
  fun k => (s k).map Store.lasting

-- The mock stores what the services see, and for ever.
def Mimics (text : Markup.RateText) (store : MockRedis) (s : State) : Prop :=
  Represents text store.server s.lasting

theorem lasting_update {e : Option (Entry (Value k))} :
    State.lasting (update s k e) = update s.lasting k (e.map lasting) := by
  funext k'
  by_cases hk : k' = k
  case pos => subst hk; rw [State.lasting, update_self, update_self]
  case neg => rw [State.lasting, update_of_ne hk, update_of_ne hk]; rfl

theorem lasting_expire : (s.expire now k ttl).lasting = s.lasting := by
  have he : (Redis.expire now ttl (s k)).map lasting = (s k).map lasting := by
    unfold Redis.expire
    cases hf : find now (s k)
    case none => rfl
    case some e =>
      have ⟨hk, _⟩ := Option.filter_eq_some_iff.mp hf
      rw [hk]
      rfl
  rw [State.expire, lasting_update, he]
  exact update_eq_self k s.lasting

theorem lasting_dropMarkups {keys : List String} :
    (s.dropMarkups keys).lasting = s.lasting.dropMarkups keys := by
  funext k
  cases k
  case markup id =>
    simp only [State.lasting, State.dropMarkups]
    split <;> rfl
  all_goals rfl

-- The store without the rates.
def State.dropRates (s : State) : State
  | .markup _ => none
  | k         => s k

theorem lasting_dropRates : s.dropRates.lasting = s.lasting.dropRates := by
  funext k
  cases k <;> rfl

-- A full scan leaves none of them.
theorem Represents.dropMarkups_eq_dropRates (h : Represents text server s)
    {replies : List Redis.Reply} (hs : Redis.Scan Markup.IsMarkupKey server replies) :
    s.dropMarkups (replies.flatMap Redis.Reply.gone) = s.dropRates := by
  funext k
  cases k
  case markup id =>
    rw [State.dropMarkups, State.dropRates]
    split_ifs with hm
    case pos => rfl
    case neg =>
      have hk := Markup.isMarkupKey_cacheKey Billing.uuidStr id.val
      have hn : server (Key.markup id).render = none := by_contra fun hn => hm (hs.mem_gone hk hn)
      have hr := h (.markup id)
      cases he : s (.markup id)
      case none   => rfl
      case some e => rw [hn, he] at hr; cases hr
  all_goals rfl

-- What has not expired is found with and without its time.
theorem value_lasting (h : ∀ e ∈ s k, e.Live now) : s.lasting.value now k = s.value now k := by
  unfold State.value State.lasting
  cases he : s k
  case none => rfl
  case some e =>
    have hl : (lasting e).Live now := by simp [Entry.Live, lasting]
    rw [Option.map_some, find_of_live hl, find_of_live (h e he)]
    rfl

namespace Mimics

theorem empty : Mimics text ∅ (fun _ => none) :=
  represents_empty text fun _ => rfl

theorem set (h : Mimics text store s) {raw : String} {v : Value k} {time : Nat}
    (hv : Holds text k (.text raw) v) :
    Mimics text (store.setex k.render time raw) (s.set now k ttl v) := by
  rw [Mimics, MockRedis.server_setex, State.set, lasting_update]
  exact Redis.Represents.update h Key.render_injective (.some ⟨hv, rfl⟩)

theorem drop (h : Mimics text store s) (k : Key) :
    Mimics text (store.delete [k.render]).2 (s.drop k) := by
  rw [Mimics, MockRedis.server_delete, State.drop, lasting_update]
  exact Represents.drop h k

-- The scan of the mock is as full as those of the server.
theorem dropRates (h : Mimics text store s) :
    Mimics text (store.delete (store.scan <| some <| Markup.redisMarkupPrefix ++ "*").2).2
      s.dropRates := by
  have hs : Redis.Scan Markup.IsMarkupKey store.server _ := MockRedis.scan_markups
  have hd := Represents.dropMarkups_eq_dropRates h hs
  rw [List.flatMap_singleton, Redis.Reply.gone, List.nil_append] at hd
  rw [Mimics, MockRedis.server_delete, lasting_dropRates, ← hd]
  exact Represents.dropMarkups h (hs.matching _ <| List.mem_singleton_self _)

theorem expire (h : Mimics text store s) : Mimics text store (s.expire now k ttl) := by
  rw [Mimics, lasting_expire]
  exact h

-- A counter that has not expired is the one that the mock has.
theorem incr (key : String) {e : Option (Entry Nat)} (hl : ∀ a ∈ e, a.Live now)
    (h : Matches Counts (store.server key) (e.map lasting)) :
    (store.incr key).1 = .ok (Redis.incr now e).value ∧
      ∃ d, (store.incr key).2.server = update store.server key (some ⟨d, none⟩) ∧
        Counts d (Redis.incr now e).value := by
  cases e
  case none =>
    have hg : store.get key = none := by
      cases hs : store.get key
      case none => rfl
      case some raw => rw [MockRedis.server, hs] at h; cases h
    rw [MockRedis.incr, hg]
    exact ⟨rfl, _, MockRedis.server_setex 0, rfl⟩
  case some a =>
    have hg : store.get key = some (toString a.value) := by
      cases hs : store.get key
      case none => rw [MockRedis.server, hs] at h; cases h
      case some raw =>
        rw [MockRedis.server, hs] at h
        cases h
        case some h => cases h.left; rfl
    rw [Redis.incr_of_live (hl a rfl), MockRedis.incr, hg, Option.elim_some, Python.int?_toString]
    exact ⟨rfl, _, MockRedis.server_setex 0, rfl⟩

end Mimics

theorem mock_handle (floatRepr : String → String) (h : Mimics text store s)
    (hr : Represents text server s) {c : Command} (hs : c.Supported)
    (hl : ∀ k ∈ c.reads, ∀ e ∈ s k, e.Live now) (hf : c.Scans server) :
    (c.mock floatRepr text now store).1 = (s.handle now c).1 ∧
      Mimics text (c.mock floatRepr text now store).2 (s.handle now c).2 := by
  have hv : ∀ k ∈ c.reads, s.lasting.value now k = s.value now k :=
    fun k hk => value_lasting (hl k hk)
  cases c
  all_goals simp only [Command.mock, State.handle, true_and]
  case getCachedStatus id =>
    exact ⟨congrArg Reply.status ((Represents.getCachedStatus h id).trans (hv _ rfl)), h⟩
  case getKeyFromCache keyHash =>
    rw [← hv _ rfl]
    exact ⟨congrArg Reply.active (Represents.getKeyFromCache h keyHash), h⟩
  case getCachedRate id =>
    have hr : (store.get <| Markup.cacheKey Billing.uuidStr id.val).bind text.float =
        s.lasting.value now (.markup id) := by
      rw [← Represents.getCachedRate h id, MockRedis.get_server]
      rfl
    exact ⟨congrArg Reply.rate (hr.trans (hv _ rfl)), h⟩
  case getHold requestId =>
    exact ⟨congrArg Reply.hold ((Represents.getHold h requestId).trans (hv _ rfl)), h⟩
  case getCachedKeywords =>
    exact ⟨congrArg Reply.keywords ((Represents.getCachedKeywords h).trans (hv _ rfl)), h⟩
  case incrWindow id w =>
    obtain ⟨hr, d, he, hd⟩ := Mimics.incr (RateLimit.buildKey id.str w) (hl _ rfl)
      (h (.rateLimit id w))
    have hm : Matches (Holds text (.rateLimit id w)) (some ⟨d, none⟩)
        (some <| lasting <| Redis.incr now (s (.rateLimit id w))) := .some ⟨hd, rfl⟩
    refine ⟨by rw [hr]; rfl, ?_⟩
    rw [Mimics, he, lasting_update]
    exact Redis.Represents.update h Key.render_injective hm
  case incrAttempts id =>
    obtain ⟨hr, d, he, hd⟩ := Mimics.incr (Auth.loginAttemptsKey Billing.uuidStr id.val) (hl _ rfl)
      (h (.loginAttempts id))
    have hm : Matches (Holds text (.loginAttempts id)) (some ⟨d, none⟩)
        (some <| lasting <| Redis.incr now (s (.loginAttempts id))) := .some ⟨hd, rfl⟩
    refine ⟨by rw [hr]; rfl, ?_⟩
    rw [Mimics, he, lasting_update]
    exact Redis.Represents.update h Key.render_injective hm
  case cacheStatus status              => exact h.set (.status status)
  case setHold requestId userId amount => exact h.set (.hold requestId userId amount)
  case setKeyInCache keyHash key       => exact h.set (.virtualKey keyHash key)
  case cacheRate id rate               => exact h.set (.rate id rate)
  case blacklist jti ttl               => exact h.set (.blacklisted jti)
  case cacheKeywords keywords          => exact h.set (.keywords keywords)
  case invalidateMarkups               => exact hr.dropMarkups_eq_dropRates hf ▸ h.dropRates
  case deleteMarkups keys matching =>
    rw [Mimics, MockRedis.server_delete, lasting_dropMarkups]
    exact Represents.dropMarkups h matching
  case expireWindow                    => exact h.expire
  case expireAttempts                  => exact h.expire
  case invalidateProviderStatusCache i => exact h.drop (.providerStatus i)
  case dropKey keyHash                 => exact h.drop (.virtualKey keyHash)
  case invalidateMarkupCache id        => exact h.drop (.markup id)
  case releaseRedisHold requestId      => exact h.drop (.hold requestId)
  case resetAttempts id                => exact h.drop (.loginAttempts id)
  case invalidateKeywordCache          => exact h.drop .keywords
  all_goals cases hs

-- The counter of a minute lasts for a minute after its end.
def State.Lasts (s : State) : Prop :=
  ∀ id w, ∀ e ∈ s (.rateLimit id w), ∀ t ∈ e.expires, 60000 * (w + 2) ≤ t

namespace State.Lasts

theorem update (h : s.Lasts) {e : Option (Entry (Value k))} (hk : ∀ id w, k ≠ .rateLimit id w) :
    State.Lasts (update s k e) := by
  intro id w
  rw [update_of_ne (hk id w).symm]
  exact h id w

theorem update_window (h : s.Lasts) {id : Cache.Id} {w : Nat} {e : Option (Entry Nat)}
    (he : ∀ a ∈ e, ∀ t ∈ a.expires, 60000 * (w + 2) ≤ t) :
    State.Lasts (Function.update s (.rateLimit id w) e) := by
  intro id' w'
  by_cases hk : Key.rateLimit id' w' = .rateLimit id w
  case pos => cases hk; rw [update_self]; exact he
  case neg => rw [update_of_ne hk]; exact h id' w'

theorem live (h : s.Lasts) {c : Command} (hp : s.Punctual now c) :
    ∀ k ∈ c.reads, ∀ e ∈ s k, e.Live now := by
  cases c
  case incrWindow id w =>
    intro k hk
    cases hk
    exact fun e he t ht => hp.trans_le (h id w e he t ht)
  case expireWindow => exact nofun
  all_goals exact hp

theorem handle (h : s.Lasts) {c : Command} (hp : s.Punctual now c) : (s.handle now c).2.Lasts := by
  cases c
  case incrWindow id w =>
    refine h.update_window fun a ha t ht => ?_
    cases ha
    cases he : s (.rateLimit id w)
    case none => rw [he] at ht; cases ht
    case some e =>
      rw [he, incr_of_live (h.live hp _ rfl e he)] at ht
      exact h id w e he t ht
  case expireWindow id w =>
    refine h.update_window fun a ha t ht => ?_
    have ⟨e, he, hx⟩ := Redis.expire_eq_some ha
    cases hx t ht
    case inl hx => rw [hx, Nat.mul_add]; exact Nat.add_le_add_right hp _
    case inr hx => exact h id w e he t hx
  all_goals first | exact h.update nofun | exact h

end State.Lasts

-- The mock, on which nothing ever expires and no addresses are tracked, replies like the server
-- until a service asks the server for what has expired. Rate limits are the same for ever.
theorem mockAll_serveAll (cs : List (Time × Command)) (hm : Mimics text store s)
    (hr : Represents text server s) (hl : s.Lasts) (hs : ∀ c ∈ cs, c.2.Supported)
    (ht : Timely cs s) (hf : Scanned floatRepr text cs server) :
    (mockAll floatRepr text cs store).1 = (serveAll floatRepr text cs server).1 := by
  induction cs generalizing store server s
  case nil => rfl
  case cons c cs ih =>
    obtain ⟨now, c⟩ := c
    have ⟨hc, hcs⟩ := List.forall_mem_cons.mp hs
    have ⟨hmr, hm⟩ := mock_handle floatRepr hm hr hc (hl.live ht.left) hf.left
    have ⟨hsr, hr⟩ := serve_handle floatRepr now hr c
    refine congrArg₂ List.cons (hmr.trans hsr.symm) ?_
    exact ih hm hr (hl.handle ht.left) hcs ht.right hf.right

-- A rate is cached and swept away, and a key is used in two minutes, of which the counter of the
-- first one has expired by the second.
theorem mockAll_serveAll_of_two_minutes :
    ∃ cs, (mockAll id Markup.quarterText cs ∅).1 = [.done, .done, .count (.ok 1), .done,
      .count (.ok 2), .count (.ok 1), .count (.ok 1)] := by
  let key := (Key.markup ⟨7, by decide⟩).render
  let replies : List Redis.Reply := [⟨[], [key]⟩]
  have hk : Markup.IsMarkupKey key := Markup.isMarkupKey_cacheKey Billing.uuidStr 7
  have hg : replies.flatMap Redis.Reply.gone = [key] := rfl
  let cs : List (Time × Command) := [
    (0, .cacheRate ⟨7, by decide⟩ (1 / 4)),
    (0, .invalidateMarkups replies (hg ▸ List.forall_mem_singleton.mpr hk)),
    (1000, .incrWindow ⟨7, by decide⟩ 0),
    (1000, .expireWindow ⟨7, by decide⟩ 0),
    (60500, .incrWindow ⟨7, by decide⟩ 0),
    (200000, .incrAttempts ⟨7, by decide⟩),
    (200000, .incrWindow ⟨7, by decide⟩ 3)]
  have hs : ∀ c ∈ cs, c.2.Supported := by simp [cs, Command.Supported]
  have ht : Timely cs fun _ => none := by
    refine ⟨?_, ?_, ?_, ?_, ?_, ?attempts, ?_, trivial⟩
    case attempts => rintro _ ⟨⟩ _ ⟨⟩
    all_goals simp [State.Punctual, Command.reads]
  have hf : Scanned id Markup.quarterText cs fun _ => none := by
    refine ⟨trivial, ⟨?_, ?_⟩, trivial, trivial, trivial, trivial, trivial, trivial⟩
    case refine_1 => simpa [replies] using hk
    case refine_2 =>
      intro key' _ hn _
      refine ⟨_, List.mem_singleton_self _, List.mem_singleton.mpr <| by_contra fun hk => hn ?_⟩
      exact update_of_ne hk _ fun _ => none
  have hr : Represents Markup.quarterText (fun _ => none) (fun _ => none) :=
    represents_empty _ fun _ => rfl
  have hl : State.Lasts fun _ => none := by
    intro id w e he
    cases he
  exact ⟨cs, (mockAll_serveAll cs .empty hr hl hs ht hf).trans rfl⟩

end Store
