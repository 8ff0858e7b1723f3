import Mathlib.Data.List.Basic

-- Rewrites the entries of a list one after another, with a state that the entries before have left.
def rewrite {σ α : Type*} (next : σ → α → σ) (out : σ → α → α) : σ → List α → List α
  | _, []      => []
  | s, a :: as => out s a :: rewrite next out (next s a) as

namespace Rewrite

variable {σ α : Type*} {next : σ → α → σ} {out out' : σ → α → α} {s : σ} {as : List α} {i : Nat}

@[simp]
theorem length_rewrite : (rewrite next out s as).length = as.length := by
  induction as generalizing s
  case nil          => rfl
  case cons a as ih => exact congrArg (· + 1) ih

-- An entry is rewritten in the state that the ones before it have left, as they were.
theorem getElem?_rewrite :
    (rewrite next out s as)[i]? = as[i]?.map (out ((as.take i).foldl next s)) := by
  induction as generalizing s i
  case nil          => rfl
  case cons a as ih =>
    cases i
    case zero   => rfl
    case succ i => exact ih

-- If rewritten entries lead to the states that they led to before, and are rewritten in the same
-- way, then of two rewritings in a row only the latter one counts.
theorem rewrite_rewrite (hn : ∀ s a, next s (out' s a) = next s a)
    (ho : ∀ s a, out s (out' s a) = out s a) :
    rewrite next out s (rewrite next out' s as) = rewrite next out s as := by
  induction as generalizing s
  case nil          => rfl
  case cons a as ih => simp only [rewrite, hn, ho, ih]

end Rewrite
