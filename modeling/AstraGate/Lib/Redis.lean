import Mathlib.Data.Option.Basic

-- The keys of a Redis server. Times are in milliseconds.
namespace Redis

-- What is stored under a key, and the time from which on Redis takes the key for missing.
structure Entry (α : Type*) where
  value   : α
  expires : Option Nat
deriving DecidableEq

variable {α : Type*} {now ttl : Nat} {e : Entry α}

def Entry.Live (now : Nat) (e : Entry α) : Prop :=
  ∀ t ∈ e.expires, now < t

instance : Decidable (e.Live now) :=
  match h : e.expires with
  | none   => .isTrue (by simp [Entry.Live, h])
  | some t => decidable_of_iff (now < t) (by simp [Entry.Live, h])

-- What a command finds under a key.
def find (now : Nat) (key : Option (Entry α)) : Option (Entry α) :=
  key.filter (·.Live now)

-- `INCR`
def incr (now : Nat) (key : Option (Entry Nat)) : Entry Nat :=
  match find now key with
  | some e => { e with value := e.value + 1 }
  | none   => { value := 1, expires := none }

-- `EXPIRE`, which leaves a key alone that it does not find.
def expire (now ttl : Nat) (key : Option (Entry α)) : Option (Entry α) :=
  match find now key with
  | some e => some { e with expires := some (now + ttl) }
  | none   => key

@[simp]
theorem find_none : find now (none : Option (Entry α)) = none :=
  rfl

theorem find_of_live (h : e.Live now) : find now (some e) = some e :=
  Option.filter_eq_some_iff.mpr ⟨rfl, decide_eq_true h⟩

theorem incr_of_live {e : Entry Nat} (h : e.Live now) :
    incr now (some e) = { e with value := e.value + 1 } := by
  rw [incr, find_of_live h]

-- An `EXPIRE` keeps the values of keys, and drops none of them before its new time, or the one it
-- had.
theorem expire_eq_some (h : expire now ttl key = some e) :
    ∃ e', key = some e' ∧ ∀ t ∈ e.expires, t = now + ttl ∨ t ∈ e'.expires := by
  unfold expire at h
  cases hf : find now key
  case none =>
    rw [hf] at h
    exact ⟨e, h, fun t => .inr⟩
  case some e' =>
    rw [hf] at h
    cases h
    have ⟨hk, _⟩ := Option.filter_eq_some_iff.mp hf
    exact ⟨e', hk, by simp⟩

theorem expire_map_value (key : Option (Entry α)) :
    (expire now ttl key).map Entry.value = key.map Entry.value := by
  unfold expire
  cases hf : find now key
  case none => rfl
  case some e =>
    have ⟨hk, _⟩ := Option.filter_eq_some_iff.mp hf
    rw [hk]
    rfl

-- The texts under the keys that have not expired.
abbrev Keyspace := String → Option String

-- `DEL`
def delete (keys : List String) (ks : String → Option α) : String → Option α :=
  fun key => if key ∈ keys then none else ks key

-- A reply of `SCAN`, and the keys that have expired before it since the one before.
structure Reply where
  expired : List String
  keys    : List String

-- The loop that deletes the keys of each reply, until the cursor is back at zero.
def sweep : List Reply → (String → Option α) → String → Option α
  | [],      ks => ks
  | r :: rs, ks => sweep rs (delete r.keys (delete r.expired ks))

-- The replies of a full iteration over the keys that match a pattern.
structure Scan (pattern : String → Prop) (ks : String → Option α) (replies : List Reply) :
    Prop where
  matching : ∀ r ∈ replies, ∀ key ∈ r.keys, pattern key
  complete : ∀ key, pattern key → ks key ≠ none → (∀ r ∈ replies, key ∉ r.expired) →
    ∃ r ∈ replies, key ∈ r.keys

variable {ks : String → Option α} {replies : List Reply} {pattern : String → Prop} {key : String}

@[simp]
theorem delete_nil : delete [] ks = ks := by
  funext key
  exact if_neg List.not_mem_nil

theorem delete_append : delete (keys₁ ++ keys₂) ks = delete keys₂ (delete keys₁ ks) := by
  funext key
  by_cases h₁ : key ∈ keys₁ <;> by_cases h₂ : key ∈ keys₂ <;> simp [delete, h₁, h₂]

-- The keys that are gone after a reply.
def Reply.gone (r : Reply) : List String :=
  r.expired ++ r.keys

-- The loop deletes all of them, whatever the order.
theorem sweep_eq_delete : sweep replies ks = delete (replies.flatMap Reply.gone) ks := by
  induction replies generalizing ks
  case nil          => rw [List.flatMap_nil, delete_nil]; rfl
  case cons r rs ih => rw [List.flatMap_cons, sweep, ih, delete_append, Reply.gone, delete_append]

-- A full iteration leaves out no key that matches the pattern.
theorem Scan.mem_gone (h : Scan pattern ks replies) (hp : pattern key) (hk : ks key ≠ none) :
    key ∈ replies.flatMap Reply.gone := by
  rw [List.mem_flatMap]
  by_contra hn
  have hn : ∀ r ∈ replies, key ∉ r.expired ∧ key ∉ r.keys := by simpa [Reply.gone] using hn
  have ⟨r, hr, hm⟩ := h.complete key hp hk (fun r hr => (hn r hr).left)
  exact (hn r hr).right hm

-- The loop deletes every key that matches the pattern.
theorem Scan.sweep_of_pattern (h : Scan pattern ks replies) (hp : pattern key) :
    sweep replies ks key = none := by
  rw [sweep_eq_delete]
  by_cases hk : ks key = none
  case pos => rw [delete, hk, ite_self]
  case neg => exact if_pos (h.mem_gone hp hk)

-- It touches no other key.
theorem Scan.sweep_of_not_pattern (h : Scan pattern ks replies) (hp : ¬pattern key)
    (he : ∀ r ∈ replies, key ∉ r.expired) : sweep replies ks key = ks key := by
  rw [sweep_eq_delete, delete, if_neg]
  intro hm
  have ⟨r, hr, hm⟩ := List.mem_flatMap.mp hm
  cases List.mem_append.mp hm
  case inl hm => exact he r hr hm
  case inr hm => exact hp (h.matching r hr key hm)

end Redis
