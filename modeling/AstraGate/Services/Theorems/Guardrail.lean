import AstraGate.Services.Guardrail

open Python

namespace Guardrail

variable {lower : String → String} {rows : List GuardrailKeyword} {keywords : List Keyword}
  {direction : Direction} {text : String} {result : GuardrailResult}

-- A keyword of this scope is banned in this direction.
def Concerns : Direction → Scope → Prop
  | .input, scope  => scope = .input ∨ scope = .both
  | .output, scope => scope = .output ∨ scope = .both

-- The table has an active keyword for the direction that is, but for the case, a part of the text.
structure Bans (lower : String → String) (rows : List GuardrailKeyword) (direction : Direction)
    (text : String) (row : GuardrailKeyword) : Prop where
  mem      : row ∈ rows
  active   : row.isActive
  scope    : Concerns direction row.scope
  contains : Contains (lower text) (lower row.keyword)

-- The beginning of a long text is marked as such.
def snippet (text : String) : List Char :=
  text.toList.take (min 100 text.length) ++ if 100 < text.length then "...".toList else []

-- What a check is to report of a text.
structure Verdict (lower : String → String) (rows : List GuardrailKeyword) (direction : Direction)
    (text : String) (result : GuardrailResult) : Prop where
  violated       : result.violated ↔ text ≠ "" ∧ ∃ row, Bans lower rows direction text row
  keywordMatched : result.violated → ∃ row, Bans lower rows direction text row ∧
    result.keywordMatched = some row.keyword
  contentSnippet : result.violated →
    result.contentSnippet.map String.toList = some (snippet text)

theorem contentSnippet_toList : (contentSnippet text).toList = snippet text := by
  have ht : text.toList.take (min 100 text.length) = text.toList.take 100 := by
    rw [← String.length_toList, ← List.take_take, List.take_length]
  rw [snippet, ht, contentSnippet, contentSnippetMaxLength]
  split <;> simp

theorem covers_iff {kw : Keyword} : kw.covers direction ↔ Concerns direction kw.scope := by
  cases direction <;> simp [Keyword.covers, Concerns]

theorem mem_filter_covers (h : LoadsKeywords rows keywords) {kw : Keyword} :
    kw ∈ keywords.filter (·.covers direction) ↔
      ∃ row ∈ rows, row.isActive ∧ entry row = kw ∧ Concerns direction row.scope := by
  rw [List.mem_filter, covers_iff, h.mem_iff, activeKeywords, List.mem_map]
  constructor
  case mp =>
    rintro ⟨⟨row, hr, rfl⟩, hc⟩
    have ⟨hm, ha⟩ := List.mem_filter.mp hr
    exact ⟨row, hm, ha, rfl, hc⟩
  case mpr =>
    rintro ⟨row, hm, ha, rfl, hc⟩
    exact ⟨⟨row, List.mem_filter.mpr ⟨hm, ha⟩, rfl⟩, hc⟩

theorem check_eq (direction : Direction) (text : String) (keywords : List Keyword) :
    check lower direction (.str text) keywords =
      scanText lower (.str text) (keywords.filter (·.covers direction)) := by
  cases direction <;> rfl

-- The scan stops at the first keyword that it finds, in whatever order the query has returned them.
theorem verdict_of_loads (lower : String → String) (direction : Direction) (text : String)
    (h : LoadsKeywords rows keywords) :
    ∃ result, check lower direction (.str text) keywords = .ok result ∧
      Verdict lower rows direction text result := by
  have hb : (∃ row, Bans lower rows direction text row) ↔
      ∃ kw ∈ keywords.filter (·.covers direction), Contains (lower text) (lower kw.keyword) := by
    simp only [mem_filter_covers h]
    constructor
    case mp =>
      intro ⟨row, hr⟩
      exact ⟨entry row, ⟨row, hr.mem, hr.active, rfl, hr.scope⟩, hr.contains⟩
    case mpr =>
      rintro ⟨_, ⟨row, hm, ha, rfl, hc⟩, ht⟩
      exact ⟨row, hm, ha, hc, ht⟩
  have hp : (¬∃ row, Bans lower rows direction text row) ∨ text = "" →
      Verdict lower rows direction text .passed := by
    intro hn
    refine ⟨iff_of_false nofun fun ⟨ht, hr⟩ => ?_, nofun, nofun⟩
    cases hn
    case inl hn => exact hn hr
    case inr hn => exact ht hn
  rw [check_eq, scanText]
  split
  case isTrue he =>
    refine ⟨_, rfl, hp ?_⟩
    obtain ht | hk : text = "" ∨ keywords.filter (·.covers direction) = [] := by
      simpa [Json.truthy] using he
    · exact .inr ht
    · exact .inl <| by rw [hb, hk]; simp
  case isFalse he =>
    have ht : text ≠ "" := by rintro rfl; simp [Json.truthy] at he
    cases hf : (keywords.filter (·.covers direction)).find?
      (Contains (lower text) <| lower ·.keyword)
    case none =>
      have hn := List.find?_eq_none.mp hf
      refine ⟨_, rfl, hp (.inl <| hb.not.mpr ?_)⟩
      exact fun ⟨kw, hm, hc⟩ => hn kw hm (decide_eq_true hc)
    case some kw =>
      have hm := List.mem_of_find?_eq_some hf
      have hc : Contains (lower text) (lower kw.keyword) := by simpa using List.find?_some hf
      have ⟨row, hr, ha, he, hd⟩ := (mem_filter_covers h).mp hm
      subst he
      exact ⟨_, rfl, iff_of_true rfl ⟨ht, row, hr, ha, hd, hc⟩,
        fun _ => ⟨row, ⟨hr, ha, hd, hc⟩, rfl⟩, fun _ => congrArg some contentSnippet_toList⟩

end Guardrail
