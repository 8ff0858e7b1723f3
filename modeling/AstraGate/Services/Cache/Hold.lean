import AstraGate.Lib.Decimal.Spelling
import AstraGate.Services.Cache
import AstraGate.Services.Credit

namespace Credit

-- `REDIS_HOLD_PREFIX`
def redisHoldPrefix : String :=
  "credit_hold:"

def holdCacheKey (requestId : String) : String :=
  redisHoldPrefix ++ requestId

-- The text that `hold_credit` writes.
def holdData (userId : UUID) (amount : Decimal.Signed) : String :=
  Billing.uuidStr userId ++ ":" ++ amount.str

-- `text.rsplit(sep, 1)`, where there is a `sep` in the text.
def rsplit (sep : Char) (text : List Char) : Option (List Char × List Char) :=
  (Python.split sep text.reverse).map fun p => (p.2.reverse, p.1.reverse)

-- What `_get_hold_amount` makes of the text: `none` where an exception is raised.
def readHold (holdData : String) : Option ℚ := do
  let parts ← rsplit ':' holdData.toList
  (Decimal.parse <| .ofList parts.2).bind Decimal.toRat?

section

variable (now : Time) (requestId : String) (server : Redis.Server)

-- `_get_hold_amount`
def getHold : Option ℚ :=
  (server.get now (holdCacheKey requestId)).toOption.join.bind readHold

-- The `SET` of `hold_credit`.
def setHold (userId : UUID) (amount : Decimal.Signed) : Redis.Server :=
  server.setex now (holdCacheKey requestId) redisHoldTtl (holdData userId amount)

-- `_release_redis_hold`
def releaseRedisHold : Redis.Server :=
  server.del [holdCacheKey requestId]

end

theorem rsplit_append {before after : List Char} (h : sep ∉ after) :
    rsplit sep (before ++ sep :: after) = some (before, after) := by
  have hs : Python.split sep (after.reverse ++ sep :: before.reverse) =
      some (after.reverse, before.reverse) :=
    Python.split_eq_some_iff.mpr ⟨rfl, by simpa using h⟩
  rw [rsplit, List.reverse_append, List.reverse_cons, List.append_assoc, List.singleton_append, hs]
  simp

theorem colon_not_mem_str (d : Decimal.Signed) : ':' ∉ d.str.toList := by
  have hn : ¬Decimal.Unsigned.IsSpelling ':' := by simp [Decimal.Unsigned.IsSpelling]
  have hm : ':' ∉ d.magnitude.str.toList := fun h => hn (d.magnitude.isSpelling_str _ h)
  cases hd : d.negative <;> simp [Decimal.Signed.str, hd, hm]

-- The amount that has been written is read back, whatever colons are in front of it.
theorem readHold_holdData (userId : UUID) (amount : Decimal.Signed) :
    readHold (holdData userId amount) = some amount.value := by
  have hl : (holdData userId amount).toList =
      (Billing.uuidStr userId).toList ++ ':' :: amount.str.toList := by
    simp [holdData]
  have hr : rsplit ':' ((Billing.uuidStr userId).toList ++ ':' :: amount.str.toList) =
      some ((Billing.uuidStr userId).toList, amount.str.toList) :=
    rsplit_append (colon_not_mem_str amount)
  rw [readHold, hl, hr]
  simp [amount.toRat?_parse_str]

end Credit
