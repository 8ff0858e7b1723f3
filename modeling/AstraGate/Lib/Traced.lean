-- A program that has effects one after another, and then returns a value or raises an exception.
structure Traced (η : Type u) (ε : Type v) (α : Type w) where
  trace  : List η
  result : Except ε α

namespace Traced

variable {η : Type u} {ε : Type v}

instance : Monad (Traced η ε) where
  pure a   := { trace := [], result := .ok a }
  bind x f :=
    match x.result with
    | .ok a    => { trace := x.trace ++ (f a).trace, result := (f a).result }
    | .error e => { trace := x.trace, result := .error e }

def emit (e : η) : Traced η ε Unit where
  trace  := [e]
  result := .ok ()

def throw (e : ε) : Traced η ε α where
  trace  := []
  result := .error e

def lift (x : Except ε α) : Traced η ε α where
  trace  := []
  result := x

variable {x : Traced η ε α} {f : α → Traced η ε β}

theorem id_map (x : Traced η ε α) : id <$> x = x := by
  have ⟨es, r⟩ := x
  cases r <;> simp [Functor.map]

theorem bind_assoc (x : Traced η ε α) (f : α → Traced η ε β) (g : β → Traced η ε γ) :
    x >>= f >>= g = x >>= fun a => f a >>= g := by
  have ⟨es, r⟩ := x
  cases r
  case error e => rfl
  case ok a    => cases h : (f a).result <;> simp [bind, h]

instance : LawfulMonad (Traced η ε) :=
  .mk' _ id_map (fun _ _ => rfl) bind_assoc

@[simp]
theorem trace_pure (a : α) : (pure a : Traced η ε α).trace = [] :=
  rfl

@[simp]
theorem result_pure (a : α) : (pure a : Traced η ε α).result = .ok a :=
  rfl

@[simp]
theorem trace_throw (e : ε) : (throw e : Traced η ε α).trace = [] :=
  rfl

@[simp]
theorem result_throw (e : ε) : (throw e : Traced η ε α).result = .error e :=
  rfl

@[simp]
theorem throw_bind (e : ε) : throw e >>= f = throw e :=
  rfl

@[simp]
theorem lift_ok (a : α) : (lift (.ok a) : Traced η ε α) = pure a :=
  rfl

@[simp]
theorem lift_error (e : ε) : (lift (.error e) : Traced η ε α) = throw e :=
  rfl

@[simp]
theorem trace_emit_bind {f : Unit → Traced η ε β} : (emit e >>= f).trace = e :: (f ()).trace :=
  rfl

@[simp]
theorem result_emit_bind {f : Unit → Traced η ε β} : (emit e >>= f).result = (f ()).result :=
  rfl

theorem trace_bind_of_ok (h : x.result = .ok a) : (x >>= f).trace = x.trace ++ (f a).trace := by
  simp only [bind, h]

theorem result_bind_of_ok (h : x.result = .ok a) : (x >>= f).result = (f a).result := by
  simp only [bind, h]

theorem trace_bind_of_error (h : x.result = .error e) : (x >>= f).trace = x.trace := by
  simp only [bind, h]

theorem result_bind_of_error (h : x.result = .error e) : (x >>= f).result = .error e := by
  simp only [bind, h]

theorem exists_of_result_bind (h : (x >>= f).result = .ok b) :
    ∃ a, x.result = .ok a ∧ (f a).result = .ok b := by
  cases hx : x.result
  case error e => exact nomatch (result_bind_of_error hx).symm.trans h
  case ok a    => exact ⟨a, rfl, result_bind_of_ok hx ▸ h⟩

end Traced
