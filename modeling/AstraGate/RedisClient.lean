import AstraGate.Lib.Python.Int
import AstraGate.Lib.Redis.Server
import AstraGate.Services.Markup
import Mathlib.Data.List.AList

-- What takes the place of Redis when there is no server.

-- The texts that are stored under keys, without the times from which on they are missing.
abbrev MockRedis :=
  AList fun _ : String => String

namespace MockRedis

-- `fnmatch`, for patterns without brackets.
def fnmatch : (pattern name : List Char) → Bool
  | [], name      => name.isEmpty
  | p :: ps, name =>
    if p = '*' then name.tails.any (fnmatch ps)
    else
      match name with
      | []      => false
      | c :: cs => (p = '?' || p = c) && fnmatch ps cs

variable (store : MockRedis)

def get (key : String) : Option String :=
  store.lookup key

-- `set` and `setex`, which ignore the time to live.
def setex (key : String) (_time : Nat) (value : String) : MockRedis :=
  store.insert key value

def delete : List String → MockRedis → Nat × MockRedis
  | [], store      => (0, store)
  | k :: ks, store =>
    if k ∈ store then
      let deleted := delete ks (store.erase k)
      (deleted.1 + 1, deleted.2)
    else
      delete ks store

def incr (key : String) : Except Python.Error Int × MockRedis :=
  match (store.get key).elim (some 0) (fun raw => Python.int? 10 raw.toList) with
  | none   => (.error .valueError, store)
  | some n => (.ok (n + 1), store.insert key (toString (n + 1)))

-- `expire`, which does nothing.
def expire (_key : String) (_time : Nat) : Bool × MockRedis :=
  (true, store)

def scan (pattern : Option String) : Nat × List String :=
  match pattern.filter (· ≠ "") with
  | none         => (0, store.keys)
  | some pattern => (0, store.keys.filter fun key => fnmatch pattern.toList key.toList)

-- The mock as a server on which nothing expires.
def server : Redis.Server :=
  fun key => (store.get key).map fun raw => { value := .text raw, expires := none }

variable {store : MockRedis}

-- A pattern for the texts that begin like this.
theorem fnmatch_append_star {pre name : List Char} (hs : '*' ∉ pre) (hq : '?' ∉ pre) :
    fnmatch (pre ++ ['*']) name = true ↔ pre <+: name := by
  induction pre generalizing name
  case nil =>
    simp only [List.nil_append, fnmatch, if_true, List.any_eq_true, List.nil_prefix, iff_true]
    exact ⟨[], (List.mem_tails _ _).mpr List.nil_suffix, rfl⟩
  case cons p ps ih =>
    have ⟨hp, hps⟩ := not_or.mp (List.mem_cons.not.mp hs)
    have ⟨hp', hps'⟩ := not_or.mp (List.mem_cons.not.mp hq)
    rw [List.cons_append, fnmatch.eq_def]
    dsimp only
    rw [if_neg (Ne.symm hp)]
    cases name
    case nil => simp
    case cons c cs =>
      have hn : decide (p = '?') = false := decide_eq_false (Ne.symm hp')
      simp only [hn, Bool.false_or, Bool.and_eq_true, decide_eq_true_eq, ih hps hps',
        List.cons_prefix_cons]

theorem get_setex (key : String) (time : Nat) (value : String) :
    (store.setex key time value).get = Function.update store.get key (some value) := by
  funext key'
  by_cases hk : key' = key
  case pos => rw [hk, Function.update_self]; exact AList.lookup_insert store
  case neg => rw [Function.update_of_ne hk]; exact AList.lookup_insert_ne hk

theorem get_delete (keys : List String) :
    (delete keys store).2.get = fun key => if key ∈ keys then none else store.get key := by
  induction keys generalizing store
  case nil => rfl
  case cons k ks ih =>
    funext key
    rw [delete]
    split
    case isTrue hk =>
      rw [ih]
      by_cases he : key = k
      case pos =>
        subst he
        have hn : MockRedis.get (AList.erase key store) key = none := AList.lookup_erase key store
        simp [hn]
      case neg =>
        have hn : MockRedis.get (AList.erase k store) key = store.get key :=
          AList.lookup_erase_ne he
        simp [he, hn]
    case isFalse hk =>
      rw [ih]
      have hn : store.get k = none := AList.lookup_eq_none.mpr hk
      by_cases he : key = k
      case pos => subst he; simp [hn]
      case neg => simp [he]

-- Its only reply to a scan for markup rates is a full one.
theorem scan_markups : Redis.Scan Markup.IsMarkupKey store.server
    [{ expired := [], keys := (store.scan (some <| Markup.redisMarkupPrefix ++ "*")).2 }] := by
  have hm : ∀ key, key ∈ (store.scan (some <| Markup.redisMarkupPrefix ++ "*")).2 ↔
      key ∈ store.keys ∧ Markup.IsMarkupKey key := by
    intro key
    have hp : (Markup.redisMarkupPrefix ++ "*").toList = Markup.redisMarkupPrefix.toList ++ ['*'] :=
      rfl
    have hf : (some (Markup.redisMarkupPrefix ++ "*")).filter (· ≠ "") =
        some (Markup.redisMarkupPrefix ++ "*") := by decide
    rw [scan, hf]
    dsimp only
    rw [List.mem_filter, hp, fnmatch_append_star (by decide) (by decide)]
    rfl
  constructor
  case matching => simp [hm]
  case complete =>
    intro key hk hn _
    refine ⟨_, List.mem_singleton_self _, (hm key).mpr ⟨?_, hk⟩⟩
    by_contra hk
    exact hn (congrArg _ <| AList.lookup_eq_none.mpr hk)

end MockRedis
