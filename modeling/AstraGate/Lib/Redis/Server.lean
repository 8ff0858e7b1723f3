import AstraGate.Lib.Redis
import Mathlib.Data.Finset.Card
import Mathlib.Data.Option.Defs
import Mathlib.Logic.Function.Basic

open Function

-- The commands of a server that stores texts, and sets of texts.
namespace Redis

inductive Data
  | text (s : String)
  | set (members : Finset String)
deriving DecidableEq

inductive Error
  | wrongType
  | notAnInteger
deriving DecidableEq

abbrev Server := String → Option (Entry Data)

-- The number that a text spells, without blanks or zeros in front of it.
def number? (s : String) : Option Int :=
  let n : Int :=
    match s.toList with
    | '-' :: digits => -Nat.ofDigitChars 10 digits 0
    | digits        => Nat.ofDigitChars 10 digits 0
  if toString n = s then some n else none

namespace Server

variable (now : Nat) (server : Server)

-- `GET`
def get (key : String) : Except Error (Option String) :=
  match (find now (server key)).map Entry.value with
  | none           => .ok none
  | some (.text s) => .ok (some s)
  | some (.set _)  => .error .wrongType

-- `SET` with a time to live, and `SETEX`.
def setex (key : String) (ttl : Nat) (s : String) : Server :=
  update server key (some { value := .text s, expires := some (now + ttl) })

-- `DEL`
def del (keys : List String) : Server :=
  fun key => if key ∈ keys then none else server key

-- `EXPIRE`
def expire (key : String) (ttl : Nat) : Server :=
  update server key (Redis.expire now ttl (server key))

-- `INCR`, which keeps the time to live.
def incr (key : String) : Except Error Int × Server :=
  match find now (server key) with
  | none => (.ok 1, update server key (some { value := .text (toString 1), expires := none }))
  | some e =>
    match e.value with
    | .set _  => (.error .wrongType, server)
    | .text s =>
      match number? s with
      | none   => (.error .notAnInteger, server)
      | some n =>
        (.ok (n + 1), update server key (some { e with value := .text (toString (n + 1)) }))

-- `SADD`, which keeps the time to live.
def sadd (key member : String) : Except Error Unit × Server :=
  match find now (server key) with
  | none => (.ok (), update server key (some { value := .set {member}, expires := none }))
  | some e =>
    match e.value with
    | .text _      => (.error .wrongType, server)
    | .set members =>
      (.ok (), update server key (some { e with value := .set (insert member members) }))

-- `SCARD`
def scard (key : String) : Except Error Nat :=
  match (find now (server key)).map Entry.value with
  | none                => .ok 0
  | some (.set members) => .ok members.card
  | some (.text _)      => .error .wrongType

end Server

theorem Server.del_singleton (server : Server) (key : String) :
    server.del [key] = update server key none := by
  funext key'
  simp [del, update_apply]

-- `SADD` to a set whose entry is known.
def add (now : Nat) (member : String) (key : Option (Entry (Finset String))) :
    Entry (Finset String) :=
  match find now key with
  | none   => { value := {member}, expires := none }
  | some e => { e with value := insert member e.value }

def card (now : Nat) (key : Option (Entry (Finset String))) : Nat :=
  (find now key).elim 0 (·.value.card)

theorem add_of_live {e : Entry (Finset String)} (h : e.Live now) :
    add now member (some e) = { e with value := insert member e.value } := by
  rw [add, find_of_live h]

theorem card_of_live {e : Entry (Finset String)} (h : e.Live now) :
    card now (some e) = e.value.card := by
  rw [card, find_of_live h]
  rfl

section Matches

variable {α β : Type*} {r : α → β → Prop} {e : Option (Entry α)} {e' : Option (Entry β)} (now : Nat)

-- Two entries that expire together, with values that are related.
def Matches (r : α → β → Prop) : Option (Entry α) → Option (Entry β) → Prop :=
  Option.Rel fun e e' => r e.value e'.value ∧ e.expires = e'.expires

theorem Matches.find (h : Matches r e e') : Matches r (find now e) (find now e') := by
  cases h
  case none => exact .none
  case some e e' h =>
    by_cases hl : e.Live now
    case pos =>
      have hl' : e'.Live now := by rwa [Entry.Live, ← h.right]
      rw [find_of_live hl, find_of_live hl']
      exact .some h
    case neg =>
      have hl' : ¬e'.Live now := by rwa [Entry.Live, ← h.right]
      rw [Redis.find, Redis.find, Option.filter_some, Option.filter_some,
        if_neg (by simpa using hl), if_neg (by simpa using hl')]
      exact .none

theorem Matches.expire (ttl : Nat) (h : Matches r e e') :
    Matches r (expire now ttl e) (expire now ttl e') := by
  have hf := h.find now
  unfold Redis.expire
  cases he : Redis.find now e <;> cases he' : Redis.find now e' <;> rw [he, he'] at hf
  case none.none => exact h
  case none.some => cases hf
  case some.none => cases hf
  case some.some =>
    cases hf
    case some hf => exact .some ⟨hf.left, rfl⟩

end Matches

section Replies

variable {α γ : Type*} {r : Data → α → Prop} {e : Option (Entry α)} {server : Server}
  {key : String} (now : Nat)

-- A text of digits is what the counter spells.
def Counts (d : Data) (n : Nat) : Prop :=
  d = .text (toString n)

def Contains (d : Data) (members : Finset String) : Prop :=
  d = .set members

theorem number?_toString (n : Nat) : number? (toString n) = some (n : Int) := by
  have hl : (toString n).toList = Nat.toDigits 10 n := by simp
  have ho : (Nat.ofDigitChars 10 (Nat.toDigits 10 n) 0 : Nat) = n :=
    Nat.ofDigitChars_ten_toDigits
  unfold number?
  rw [hl]
  split
  case h_1 digits he =>
    have hd := Nat.isDigit_of_mem_toDigits (b := 10) (n := n) (c := '-') (by decide) (by decide)
      (he ▸ List.mem_cons_self)
    cases hd
  case h_2 digits he => rw [ho]; exact if_pos rfl

-- What a client makes of the reply to its `GET` is what it makes of the value that is known.
theorem Server.get_of_matches {loads : String → Option γ} {f : α → γ}
    (hr : ∀ d a, r d a → ∃ s, d = .text s ∧ loads s = some (f a))
    (h : Matches r (server key) e) :
    ∃ raw, server.get now key = .ok raw ∧ raw.bind loads = (find now e).map (f ·.value) := by
  have hf := h.find now
  unfold Server.get
  cases he : find now (server key) <;> cases he' : find now e <;> rw [he, he'] at hf
  case none.none => exact ⟨none, rfl, rfl⟩
  case none.some => cases hf
  case some.none => cases hf
  case some.some a b =>
    cases hf
    case some hf =>
      have ⟨s, hs, hl⟩ := hr _ _ hf.left
      exact ⟨some s, by rw [Option.map_some, hs], hl⟩

theorem Server.incr_of_matches {e : Option (Entry Nat)} (h : Matches Counts (server key) e) :
    (server.incr now key).1 = .ok (Redis.incr now e).value ∧
      ∃ e', (server.incr now key).2 = update server key e' ∧
        Matches Counts e' (some (Redis.incr now e)) := by
  have hf := h.find now
  unfold Server.incr Redis.incr
  cases he : find now (server key) <;> cases he' : find now e <;> rw [he, he'] at hf
  case none.none => exact ⟨rfl, _, rfl, .some ⟨rfl, rfl⟩⟩
  case none.some => cases hf
  case some.none => cases hf
  case some.some a b =>
    cases hf
    case some hf =>
      have hv : a.value = .text (toString b.value) := hf.left
      simp only [hv, number?_toString]
      exact ⟨rfl, _, rfl, .some ⟨rfl, hf.right⟩⟩

theorem Server.sadd_of_matches {e : Option (Entry (Finset String))}
    (h : Matches Contains (server key) e) (member : String) :
    (server.sadd now key member).1 = .ok () ∧
      ∃ e', (server.sadd now key member).2 = update server key e' ∧
        Matches Contains e' (some (add now member e)) := by
  have hf := h.find now
  unfold Server.sadd add
  cases he : find now (server key) <;> cases he' : find now e <;> rw [he, he'] at hf
  case none.none => exact ⟨rfl, _, rfl, .some ⟨rfl, rfl⟩⟩
  case none.some => cases hf
  case some.none => cases hf
  case some.some a b =>
    cases hf
    case some hf =>
      have hv : a.value = .set b.value := hf.left
      simp only [hv]
      exact ⟨trivial, _, rfl, .some ⟨rfl, hf.right⟩⟩

theorem Server.scard_of_matches {e : Option (Entry (Finset String))}
    (h : Matches Contains (server key) e) : server.scard now key = .ok (card now e) := by
  have hf := h.find now
  unfold Server.scard card
  cases he : find now (server key) <;> cases he' : find now e <;> rw [he, he'] at hf
  case none.none => rfl
  case none.some => cases hf
  case some.none => cases hf
  case some.some a b =>
    cases hf
    case some hf =>
      have hv : a.value = .set b.value := hf.left
      simp only [Option.map_some, hv, Option.elim_some]

end Replies

section Represents

variable {K : Type*} {V : K → Type*} {render : K → String} {holds : ∀ k, Data → V k → Prop}
  {server : Server} {m : ∀ k, Option (Entry (V k))} {k : K}

-- What the server stores under the keys is what is known of their values.
def Represents (render : K → String) (holds : ∀ k, Data → V k → Prop) (server : Server)
    (m : ∀ k, Option (Entry (V k))) : Prop :=
  ∀ k, Matches (holds k) (server (render k)) (m k)

theorem Represents.update [DecidableEq K] (h : Represents render holds server m)
    (hr : Injective render) {e : Option (Entry Data)} {e' : Option (Entry (V k))}
    (he : Matches (holds k) e e') :
    Represents render holds (update server (render k) e) (update m k e') := by
  intro k'
  by_cases hk : k' = k
  case pos => subst hk; rw [update_self, update_self]; exact he
  case neg => rw [update_of_ne (hr.ne hk), update_of_ne hk]; exact h k'

-- A client can delete several keys at once, of which some may be unknown.
theorem Represents.del (h : Represents render holds server m) (keys : List String) :
    Represents render holds (server.del keys)
      (fun k => if render k ∈ keys then none else m k) := by
  intro k
  dsimp only [Server.del]
  split
  case isTrue  => exact .none
  case isFalse => exact h k

end Represents
end Redis
