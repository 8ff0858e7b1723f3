import AstraGate.Execution.Guardrail.Step
import AstraGate.Lib.Python
import AstraGate.Services.Theorems.Guardrail
import Mathlib.Logic.Equiv.List

open Admin Function

namespace Guardrail

variable {str : UUID → String} {json : KeywordText} {s s' s₁ s₂ : State}
  {keywords : List Keyword} {request : KeywordRequest}

-- No keywords have been cached.
def State.Initial (s : State) : Prop :=
  s.redis redisGuardrailKey = none

-- What is cached is what the query would return now, but for the order of its rows.
def State.Invariant (json : KeywordText) (s : State) : Prop :=
  ∀ value, s.redis redisGuardrailKey = some value →
    ∃ keywords, value = json.dumps keywords ∧ LoadsKeywords s.rows keywords

theorem State.Initial.invariant (h : s.Initial) : s.Invariant json :=
  fun _ hv => nomatch (h : s.redis redisGuardrailKey = none).symm.trans hv

-- A request is refused without a trace, or it leaves nothing in the cache.
theorem State.handle_cases (s : State) (request : KeywordRequest) :
    s.handle str request = s ∨ (s.handle str request).redis redisGuardrailKey = none := by
  unfold handle getDb KeywordRequest.endpoint
  cases request.apply str s.rows
  case error e => exact .inl rfl
  case ok rows => exact .inr (by simp [Redis.delete])

namespace State.Invariant

theorem getKeywords_eq (h : s.Invariant json) (hl : LoadsKeywords s.rows keywords) :
    LoadsKeywords s.rows (getKeywords json keywords s.redis).1 := by
  unfold getKeywords
  cases hc : s.redis redisGuardrailKey
  case none       => exact hl
  case some value =>
    obtain ⟨cached, rfl, hq⟩ := h value hc
    simpa [json.loads_dumps] using hq

theorem getKeywords (h : s.Invariant json) (hl : LoadsKeywords s.rows keywords) :
    { s with redis := (getKeywords json keywords s.redis).2 : State }.Invariant json := by
  intro value hv
  unfold Guardrail.getKeywords at hv
  cases hc : s.redis redisGuardrailKey |>.bind json.loads
  case some => simp only [hc] at hv; exact h value hv
  case none =>
    simp only [hc, update_self, Option.some.injEq] at hv
    exact ⟨keywords, hv.symm, hl⟩

end State.Invariant

namespace Step

theorem preserves_invariant (e : Step str json s s') (h : s.Invariant json) :
    s'.Invariant json := by
  cases e
  case expire key =>
    intro value hv
    refine h value ?_
    dsimp only at hv
    by_cases hk : redisGuardrailKey = key
    case pos => rw [hk, update_self] at hv; contradiction
    case neg => rwa [update_of_ne hk] at hv
  case request request new =>
    cases s.handle_cases request
    case inl hs => rwa [hs]
    case inr hn => exact fun _ hv => nomatch hn.symm.trans hv
  case check query => exact h.getKeywords query

-- A check reports what the table, as it is at that moment, makes of the text.
def Refines (lower : String → String) (e : Step str json s s') : Prop :=
  match e with
  | check direction text keywords _ =>
    ∃ result, Guardrail.check lower direction (.str text)
        (getKeywords json keywords s.redis).1 = .ok result ∧
      Verdict lower s.rows direction text result
  | _ => True

theorem refines {lower : String → String} (e : Step str json s s') (h : s.Invariant json) :
    e.Refines lower := by
  cases e
  case check direction text keywords query =>
    exact verdict_of_loads lower direction text (h.getKeywords_eq query)
  all_goals trivial

end Step

-- Whatever is cached, both checks report the keywords that are active in the table.
theorem check_refines {lower : String → String} (es : Run str json s₁ s₂) (h : s₁.Initial) :
    es.All (Step.Refines lower) :=
  es.all_of_preserved (fun e => e.preserves_invariant) (fun e => e.refines) h.invariant

-- Made up texts, from which lists of keywords can be read back.
def numberedText : KeywordText where
  dumps keywords       :=
    Python.str <| Encodable.encode <| keywords.map fun kw =>
      (kw.keyword.toList.map Char.toNat, kw.scope.ctorIdx)
  loads text           :=
    Encodable.decode (α := List (List ℕ × ℕ)) (Nat.ofDigitChars 10 text.toList 0) |>.map
      (·.map fun (keyword, scope) =>
        { keyword := .ofList (keyword.map Char.ofNat), scope := .ofNat scope })
  loads_dumps keywords := by
    have hd : ∀ n, Nat.ofDigitChars 10 (Python.str n).toList 0 = n := by
      intro n
      show Nat.ofDigitChars 10 n.repr.toList 0 = n
      simp
    simp only [hd, Encodable.encodek, Option.map_some, List.map_map]
    refine congrArg some <| (List.map_congr_left fun kw _ => ?_).trans (List.map_id keywords)
    simp [comp_def, Scope.ofNat_ctorIdx]

-- A keyword is created, found in an answer, and renamed while it is cached.
theorem check_refines_of_update :
    ∃ (s₁ s₂ : State) (es : Run Python.str numberedText s₁ s₂),
      s₁.rows = [] ∧ s₂.rows = [⟨1, "Worse", .both, true⟩] ∧
      es.All (Step.Refines (String.map Char.toLower)) := by
  let s₁ : State := { rows := [], redis := fun _ => none }
  let s₂ := s₁.handle Python.str (.create ⟨" Bad ", .both, by decide⟩ 1)
  have hr₂ : s₂.rows = [⟨1, "Bad", .both, true⟩] := by decide +kernel
  have h₂ : LoadsKeywords s₂.rows [⟨"Bad", .both⟩] := by rw [hr₂]; exact .refl _
  let s₃ : State := { s₂ with redis := (getKeywords numberedText [⟨"Bad", .both⟩] s₂.redis).2 }
  let s₄ := s₃.handle Python.str (.update 1 ⟨some "Worse", none, by decide⟩)
  have hr₄ : s₄.rows = [⟨1, "Worse", .both, true⟩] := by decide +kernel
  have h₄ : LoadsKeywords s₄.rows [⟨"Worse", .both⟩] := by rw [hr₄]; exact .refl _
  let es : Run Python.str numberedText s₁ _ :=
    .step (.request (.create ⟨" Bad ", .both, by decide⟩ 1) (by simp [s₁])) <|
    .step (.check .output "so BAD" _ h₂ : Step _ _ s₂ s₃) <|
    .step (.request (.update 1 ⟨some "Worse", none, by decide⟩) nofun) <|
    .step (.check .output "so BAD" _ h₄) .refl
  exact ⟨s₁, _, es, rfl, hr₄, check_refines es rfl⟩

end Guardrail
