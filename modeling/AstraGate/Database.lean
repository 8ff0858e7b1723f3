-- The exception that an endpoint raises to choose the response itself.
structure HTTPException where
  statusCode : Nat
  detail     : String
deriving DecidableEq

variable {ε : Type u} {α : Type v} {σ : Type w} {ρ : Type w'}

-- `get_db`: a request works in a session over the committed rows, which is committed if the
-- endpoint returns, and rolled back if it raises an exception. What it does to Redis stays.
def getDb (endpoint : σ → ρ → Except ε α × σ × ρ) (rows : σ) (redis : ρ) : Except ε α × σ × ρ :=
  match endpoint rows redis with
  | (.ok a, session, redis) => (.ok a, session, redis)
  | (.error e, _, redis)    => (.error e, rows, redis)

variable {endpoint : σ → ρ → Except ε α × σ × ρ} {rows : σ} {redis : ρ}

theorem getDb_result : (getDb endpoint rows redis).1 = (endpoint rows redis).1 := by
  unfold getDb
  split <;> simp_all

theorem getDb_of_ok (h : (endpoint rows redis).1 = .ok a) :
    getDb endpoint rows redis = endpoint rows redis := by
  unfold getDb
  split <;> simp_all

theorem getDb_rows_of_error (h : (endpoint rows redis).1 = .error e) :
    (getDb endpoint rows redis).2.1 = rows := by
  unfold getDb
  split <;> simp_all
