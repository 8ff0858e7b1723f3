import AstraGate.Frontend.Api
import Mathlib.Data.Nat.Find

namespace Frontend

variable {env : Env} {client client' : Client} {path : String} {options : Options} {n : Nat}

-- The server hands out a new token in answer to the `n`th request for one.
def Renews (env : Env) (n : Nat) : Prop :=
  ∃ response, env.refresh n = some response ∧ response.ok ∧
    ∃ data, response.body = some data ∧ data ≠ .null

-- The client has something to ask for a new token with.
def CanRefresh (env : Env) (client : Client) : Prop :=
  ∃ token, nonempty? (getRefreshToken env client) = some token

-- A refresh that succeeds asks the server once, and leaves the refresh token as it is.
theorem refreshAccessToken_of_renews (h : CanRefresh env client)
    (hr : Renews env client.refreshes.length) : ∃ client',
      refreshAccessToken env client = (true, client') ∧ CanRefresh env client' ∧
        client'.requests = client.requests ∧
        client'.refreshes.length = client.refreshes.length + 1 := by
  have ⟨token, ht⟩ := h
  obtain ⟨response, hs, ho, data, hb, hd⟩ := hr
  unfold refreshAccessToken
  simp only [ht, hs, ho, hb]
  cases data
  case null => contradiction
  all_goals exact ⟨_, rfl, ⟨token, ht⟩, rfl, List.length_append⟩

theorem refreshAccessToken_of_not
    (h : ¬(CanRefresh env client ∧ Renews env client.refreshes.length)) : ∃ client',
      refreshAccessToken env client = (false, client') ∧ client'.requests = client.requests := by
  unfold refreshAccessToken
  split
  case h_1 => exact ⟨_, rfl, rfl⟩
  case h_2 token ht =>
    dsimp only
    split
    case h_1 => exact ⟨_, rfl, rfl⟩
    case h_2 response hs =>
      split_ifs with ho
      case neg => exact ⟨_, rfl, rfl⟩
      case pos =>
        split
        case h_1 => exact ⟨_, rfl, rfl⟩
        case h_2 => exact ⟨_, rfl, rfl⟩
        case h_3 data hd hb => exact absurd ⟨⟨token, ht⟩, response, hs, ho, data, hb, hd⟩ h

-- The server turns down the `n`th request to the path, and hands out a new token.
def Repeats (env : Env) (n : Nat) : Prop :=
  (∃ response, env.respond n = some response ∧ response.status = 401) ∧ Renews env n

-- The client has sent `n` requests to the path, and as many for a new token.
structure Client.At (n : Nat) (client : Client) : Prop where
  requests  : client.requests.length = n
  refreshes : client.refreshes.length = n

theorem length_send {request : Request} :
    (client.send request).requests.length = client.requests.length + 1 :=
  List.length_append

theorem apiRequest_of_repeats (hc : client.At n) (h : CanRefresh env client) (hr : Repeats env n) :
    ∃ client', client'.At (n + 1) ∧ CanRefresh env client' ∧ ∀ fuel,
      apiRequest env path options (fuel + 1) client = apiRequest env path options fuel client' := by
  obtain ⟨⟨response, ha, h401⟩, hr⟩ := hr
  have hs : CanRefresh env (client.send (pathRequest env path options client)) := h
  obtain ⟨client', he, h, hq, hf⟩ := refreshAccessToken_of_renews hs (hc.refreshes.symm ▸ hr)
  have hn : client'.At (n + 1) := {
    requests  := by rw [hq, length_send, hc.requests]
    refreshes := hf.trans (congrArg (· + 1) hc.refreshes) }
  refine ⟨client', hn, h, fun fuel => ?_⟩
  simp only [apiRequest, hc.requests, ha, h401, if_true, he]

theorem apiRequest_of_not_repeats (hc : client.At n)
    (h : ¬(CanRefresh env client ∧ Repeats env n)) : ∃ client' result,
      client'.requests.length = n + 1 ∧ ∀ fuel,
        apiRequest env path options (fuel + 1) client = (client', some result) := by
  have hl : (client.send (pathRequest env path options client)).requests.length = n + 1 := by
    rw [length_send, hc.requests]
  simp only [apiRequest, hc.requests]
  cases hs : env.respond n
  case none => exact ⟨_, _, hl, fun _ => rfl⟩
  case some response =>
    by_cases h401 : response.status = 401
    case neg =>
      simp only [h401, if_false]
      cases response.ok
      case false => exact ⟨_, _, hl, fun _ => rfl⟩
      case true  => exact ⟨_, _, hl, fun _ => rfl⟩
    case pos =>
      have hr : ¬(CanRefresh env (client.send (pathRequest env path options client)) ∧
          Renews env client.refreshes.length) := by
        rw [hc.refreshes]
        exact fun hr => h ⟨hr.left, ⟨response, hs, h401⟩, hr.right⟩
      obtain ⟨client', he, hq⟩ := refreshAccessToken_of_not hr
      simp only [h401, if_true, he]
      refine ⟨{ client' with location := _ }, _, ?_, fun _ => rfl⟩
      exact (congrArg List.length hq).trans hl

theorem repeats_succ (h : ∀ i < k + 1, Repeats env (n + i)) :
    ∀ i < k, Repeats env (n + 1 + i) := by
  intro i hi
  rw [Nat.add_right_comm]
  exact h (i + 1) (Nat.succ_lt_succ hi)

-- All attempts are repeated, as deep as the recursion goes.
theorem apiRequest_pending (hc : client.At n) (h : CanRefresh env client)
    (hr : ∀ i < fuel, Repeats env (n + i)) : ∃ client', client'.requests.length = n + fuel ∧
      apiRequest env path options fuel client = (client', none) := by
  induction fuel generalizing client n
  case zero => exact ⟨client, hc.requests, rfl⟩
  case succ fuel ih =>
    obtain ⟨client', hc, h, he⟩ := apiRequest_of_repeats hc h (hr 0 fuel.succ_pos)
    obtain ⟨client', hl, ho⟩ := ih hc h (repeats_succ hr)
    exact ⟨client', by rw [hl, Nat.add_right_comm]; rfl, by rw [he, ho]⟩

-- The first attempt that is not repeated is the last one.
theorem apiRequest_returns (hc : client.At n) (h : CanRefresh env client)
    (hr : ∀ i < k, Repeats env (n + i)) (hn : ¬Repeats env (n + k)) (hk : k < fuel) :
    ∃ client' result, client'.requests.length = n + k + 1 ∧
      apiRequest env path options fuel client = (client', some result) := by
  induction k generalizing client n fuel <;> cases fuel <;> try contradiction
  case zero.succ fuel =>
    obtain ⟨client', result, hl, he⟩ := apiRequest_of_not_repeats hc (fun hr => hn hr.right)
    exact ⟨client', result, hl, he fuel⟩
  case succ.succ k ih fuel =>
    obtain ⟨client', hc, h, he⟩ := apiRequest_of_repeats hc h (hr 0 k.succ_pos)
    have hn : ¬Repeats env (n + 1 + k) := by rwa [Nat.add_right_comm]
    obtain ⟨client', result, hl, ho⟩ := ih hc h (repeats_succ hr) hn (Nat.lt_of_succ_lt_succ hk)
    exact ⟨client', result, by rw [hl, Nat.add_right_comm n 1]; rfl, by rw [he, ho]⟩

-- The client at the start of a call, which counts the requests of that call only.
def Client.start (storage : Storage) (location : String) : Client where
  storage   := storage
  location  := location
  requests  := []
  refreshes := []

-- The call returns, and sends its request at most twice: again only after a successful refresh.
structure RetriesOnce (env : Env) (path : String) (options : Options) (client : Client) : Prop where
  returns   : ∃ fuel result, (apiRequest env path options fuel client).2 = some result
  requests  : ∀ fuel, (apiRequest env path options fuel client).1.requests.length ≤ 2
  refreshed : ∀ fuel, 1 < (apiRequest env path options fuel client).1.requests.length →
    Renews env 0

section Start

variable {storage : Storage} {location : String}

theorem Client.start_at : (start storage location).At 0 where
  requests  := rfl
  refreshes := rfl

theorem retriesOnce_of_not_canRefresh (h : ¬CanRefresh env (.start storage location)) :
    RetriesOnce env path options (.start storage location) := by
  obtain ⟨client, result, hl, he⟩ :=
    apiRequest_of_not_repeats Client.start_at (h ·.left)
  have hm : ∀ fuel,
      (apiRequest env path options fuel (.start storage location)).1.requests.length ≤ 1 := by
    intro fuel
    cases fuel
    case zero      => exact Nat.zero_le _
    case succ fuel => rw [he, hl]
  exact {
    returns        := ⟨1, result, by rw [he]⟩
    requests fuel  := Nat.le_succ_of_le (hm fuel)
    refreshed fuel := (absurd (hm fuel) <| Nat.not_le_of_lt ·) }

theorem retriesOnce_of_last (h : CanRefresh env (.start storage location))
    (hr : ∀ i < k, Repeats env (0 + i)) (hn : ¬Repeats env (0 + k)) (hk : k ≤ 1) :
    RetriesOnce env path options (.start storage location) := by
  have hm : ∀ fuel,
      (apiRequest env path options fuel (.start storage location)).1.requests.length ≤ k + 1 := by
    intro fuel
    cases Nat.lt_or_ge k fuel
    case inl hf =>
      obtain ⟨client, result, hl, he⟩ := apiRequest_returns Client.start_at h hr hn hf
      rw [he, hl, Nat.zero_add]
    case inr hf =>
      have hr : ∀ i < fuel, Repeats env (0 + i) := fun i hi => hr i (Nat.lt_of_lt_of_le hi hf)
      obtain ⟨client, hl, he⟩ := apiRequest_pending Client.start_at h hr
      rw [he, hl]
      omega
  constructor
  case returns =>
    obtain ⟨client, result, _, he⟩ := apiRequest_returns Client.start_at h hr hn k.lt_succ_self
    exact ⟨k + 1, result, by rw [he]⟩
  case requests => exact fun fuel => Nat.le_trans (hm fuel) (Nat.succ_le_succ hk)
  case refreshed =>
    intro fuel hl
    have hk : 0 < k := Nat.lt_of_succ_lt_succ (Nat.lt_of_lt_of_le hl (hm fuel))
    exact (hr 0 hk).right

theorem not_retriesOnce_of_repeats (h : CanRefresh env (.start storage location))
    (hr : ∀ i < 2, Repeats env (0 + i)) :
    ¬RetriesOnce env path options (.start storage location) := by
  intro hm
  have hl := hm.requests 3
  by_cases hn : Repeats env (0 + 2)
  case pos =>
    have hr : ∀ i < 3, Repeats env (0 + i) := Nat.forall_lt_succ_right.mpr ⟨hr, hn⟩
    obtain ⟨client, h3, he⟩ := apiRequest_pending Client.start_at h hr
    rw [he, h3] at hl
    contradiction
  case neg =>
    obtain ⟨client, result, h3, he⟩ :=
      apiRequest_returns Client.start_at h hr hn (Nat.lt_succ_self 2)
    rw [he, h3] at hl
    contradiction

-- A call whose attempts are all repeated never returns, and any other call does.
theorem returns_iff : (∃ fuel result,
      (apiRequest env path options fuel (.start storage location)).2 = some result) ↔
    ¬(CanRefresh env (.start storage location) ∧ ∀ n, Repeats env n) := by
  constructor
  case mp =>
    rintro ⟨fuel, result, he⟩ ⟨h, hr⟩
    obtain ⟨client, _, ho⟩ := apiRequest_pending Client.start_at h (fun i _ => hr (0 + i))
    rw [ho] at he
    contradiction
  case mpr =>
    intro hn
    by_cases h : CanRefresh env (.start storage location)
    case neg => exact (retriesOnce_of_not_canRefresh h).returns
    case pos =>
      have hl : ∃ k, ¬Repeats env (0 + k) := by simpa [h] using hn
      classical
      have hr : ∀ i < Nat.find hl, Repeats env (0 + i) := by
        intro i hi
        exact not_not.mp (Nat.find_min hl hi)
      obtain ⟨client, result, _, he⟩ :=
        apiRequest_returns Client.start_at h hr (Nat.find_spec hl) (Nat.lt_succ_self _)
      exact ⟨Nat.find hl + 1, result, by rw [he]⟩

end Start

-- The second refresh is the one that must not succeed, if the first one has and both requests
-- have been turned down.
theorem retriesOnce_iff (env : Env) (path : String) (options : Options) (storage : Storage)
    (location : String) :
    RetriesOnce env path options (.start storage location) ↔
      ¬(CanRefresh env (.start storage location) ∧ Repeats env 0 ∧ Repeats env 1) := by
  by_cases h : CanRefresh env (.start storage location)
  case neg => exact iff_of_true (retriesOnce_of_not_canRefresh h) (fun hr => h hr.left)
  case pos =>
    by_cases h₀ : Repeats env 0
    case neg =>
      have hr : ∀ i < 0, Repeats env (0 + i) := by simp
      exact iff_of_true (retriesOnce_of_last h hr h₀ (by decide)) (fun hn => h₀ hn.right.left)
    case pos =>
      have hr : ∀ i < 1, Repeats env (0 + i) := by simpa using h₀
      by_cases h₁ : Repeats env 1
      case neg =>
        exact iff_of_true (retriesOnce_of_last h hr h₁ (by decide)) (fun hn => h₁ hn.right.right)
      case pos =>
        have hr : ∀ i < 2, Repeats env (0 + i) := Nat.forall_lt_succ_right.mpr ⟨hr, h₁⟩
        exact iff_of_false (not_retriesOnce_of_repeats h hr) (fun hn => hn ⟨h, h₀, h₁⟩)

-- The server turns down every request, and hands out a new token whenever it is asked.
theorem not_retriesOnce_of_unauthorized :
    ¬∀ (env : Env) (path : String) (options : Options) (storage : Storage) (location : String),
      RetriesOnce env path options (.start storage location) := by
  intro h
  let env : Env := {
    apiUrl    := "http://localhost:8000"
    isBrowser := true
    respond _ := some ⟨401, none⟩
    refresh _ := some ⟨200, some (.object [("access_token", .str "token")])⟩ }
  have hr : ∀ n, Repeats env n := by
    intro n
    exact ⟨⟨_, rfl, rfl⟩, _, rfl, rfl, _, rfl, by simp⟩
  have hc : CanRefresh env (.start ⟨some "old", some "refresh"⟩ "/dashboard") := ⟨"refresh", rfl⟩
  exact not_retriesOnce_of_repeats hc (fun i _ => hr (0 + i)) <|
    h env "/keys" ⟨none, [], none⟩ ⟨some "old", some "refresh"⟩ "/dashboard"

end Frontend
