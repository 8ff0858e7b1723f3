import AstraGate.Api.Admin.Cache
import AstraGate.Lib.Rewrite

open Python Function

namespace Admin

variable {enabled a b : Bool} {inCache : Bool} {line : String} {lines : List String} {i : Nat}

-- Whether the lines after `line` are taken for lines of the cache.
def nextInCache (inCache : Bool) (line : String) : Bool :=
  OpensCache line || inCache && !Unindented line

-- What the loop makes of a line.
def toggleLine (enabled inCache : Bool) (line : String) : String :=
  if ¬OpensCache line ∧ inCache ∧ ¬Unindented line ∧ Contains line "ttl:" then ttlLine enabled
  else line

theorem toggleLines_eq_rewrite :
    toggleLines enabled inCache lines = rewrite nextInCache (toggleLine enabled) inCache lines := by
  induction lines generalizing inCache
  case nil => rfl
  case cons line lines ih =>
    simp only [toggleLines, ih, rewrite, nextInCache, toggleLine]
    split_ifs <;> simp_all

-- The line that is written is rewritten by each toggle after it, and opens or closes no block.
theorem ttlLine_not_opensCache : ¬OpensCache (ttlLine enabled) := by
  cases enabled <;> decide

theorem ttlLine_not_unindented : ¬Unindented (ttlLine enabled) := by
  cases enabled <;> decide

theorem ttlLine_contains : Contains (ttlLine enabled) "ttl:" := by
  cases enabled <;> decide

theorem nextInCache_toggleLine :
    nextInCache inCache (toggleLine enabled inCache line) = nextInCache inCache line := by
  unfold toggleLine
  split_ifs with h
  case pos => simp [nextInCache, h, ttlLine_not_opensCache, ttlLine_not_unindented]
  case neg => rfl

theorem toggleLine_toggleLine :
    toggleLine b inCache (toggleLine a inCache line) = toggleLine b inCache line := by
  by_cases h : ¬OpensCache line ∧ inCache ∧ ¬Unindented line ∧ Contains line "ttl:"
  case pos =>
    simp [toggleLine, h, ttlLine_not_opensCache, ttlLine_not_unindented, ttlLine_contains]
  case neg => simp only [toggleLine, if_neg h]

theorem length_toggleLines : (toggleLines enabled inCache lines).length = lines.length := by
  rw [toggleLines_eq_rewrite, Rewrite.length_rewrite]

theorem toggleLines_toggleLines :
    toggleLines b inCache (toggleLines a inCache lines) = toggleLines b inCache lines := by
  simp only [toggleLines_eq_rewrite]
  exact Rewrite.rewrite_rewrite (fun _ _ => nextInCache_toggleLine)
    (fun _ _ => toggleLine_toggleLine)

-- The endpoint changes the first file that exists, and no other.
theorem toggleExactCache_cases (candidate : String) (files : Files) :
    (∀ path ∈ configPaths ++ [candidate], files path = none) ∧
      toggleExactCache candidate enabled files =
        (.error { statusCode := 500, detail := "litellm_config.yaml not found" }, files) ∨
    ∃ path ∈ configPaths ++ [candidate], ∃ lines, files path = some lines ∧
      toggleExactCache candidate enabled files =
        (.ok enabled, update files path (some (toggleLines enabled false lines))) := by
  unfold toggleExactCache
  cases hf : (configPaths ++ [candidate]).findSome? fun path => (files path).map (path, ·)
  case none =>
    have hn : ∀ path ∈ configPaths ++ [candidate], files path = none := by
      simpa only [List.findSome?_eq_none_iff, Option.map_eq_none_iff] using hf
    exact .inl ⟨hn, rfl⟩
  case some found =>
    have ⟨path, hm, hp⟩ := List.exists_of_findSome?_eq_some hf
    have ⟨lines, hl, he⟩ := Option.map_eq_some_iff.mp hp
    subst he
    exact .inr ⟨path, hm, lines, hl, rfl⟩

-- The key `cache` without indentation.
def CacheKey (line : String) : Prop :=
  "cache:".toList <+: line.toList

instance : DecidablePred CacheKey :=
  fun _ => inferInstanceAs (Decidable (_ <+: _))

def TtlKey (line : String) : Prop :=
  "ttl:".toList <+: strip line.toList

def Comment (line : String) : Prop :=
  "#".toList <+: strip line.toList

-- A line before the `i`th one opens a block, and no unindented line between them closes it.
def Opened (Opens : String → Prop) (lines : List String) (i : Nat) : Prop :=
  ∃ j < i, (∃ line ∈ lines[j]?, Opens line) ∧
    ∀ k, j < k → k < i → ∀ line ∈ lines[k]?, ¬Unindented line

def InBlock (Opens : String → Prop) (lines : List String) (i : Nat) : Prop :=
  Opened Opens lines i ∧ ∀ line ∈ lines[i]?, ¬Unindented line

theorem comment_not_ttlKey (h : Comment line) : ¬TtlKey line := by
  intro ht
  have ⟨s, hs⟩ := h
  have ⟨t, ht⟩ := ht
  rw [← hs] at ht
  simp at ht

theorem opened_succ {Opens : String → Prop} : Opened Opens lines (i + 1) ↔
    (∃ line ∈ lines[i]?, Opens line) ∨ InBlock Opens lines i := by
  constructor
  case mp =>
    rintro ⟨j, hj, ho, hc⟩
    cases Nat.lt_succ_iff_lt_or_eq.mp hj
    case inr he => exact .inl (he ▸ ho)
    case inl hl =>
      have hb : Opened Opens lines i := ⟨j, hl, ho, fun k hk hi => hc k hk (Nat.lt_succ_of_lt hi)⟩
      exact .inr ⟨hb, hc i hl i.lt_succ_self⟩
  case mpr =>
    rintro (ho | ⟨⟨j, hj, ho, hc⟩, hi⟩)
    · refine ⟨i, i.lt_succ_self, ho, fun k hk hi => ?_⟩
      exact absurd hk (Nat.not_lt_of_le <| Nat.le_of_lt_succ hi)
    · refine ⟨j, Nat.lt_succ_of_lt hj, ho, fun k hk hn => ?_⟩
      cases Nat.lt_succ_iff_lt_or_eq.mp hn
      case inl hl => exact hc k hk hl
      case inr he => exact he ▸ hi

theorem foldl_nextInCache_iff :
    (lines.take i).foldl nextInCache false ↔ Opened OpensCache lines i := by
  induction i
  case zero => simp [Opened]
  case succ i ih =>
    rw [List.take_add_one, List.foldl_append, opened_succ, InBlock, ← ih]
    cases h : lines[i]? <;> simp [nextInCache]

-- A line that a key `cache` of any indentation precedes, without an unindented line in between, and
-- that has the text `ttl:`.
structure MentionsTtl (lines : List String) (i : Nat) (line : String) : Prop where
  block   : InBlock OpensCache lines i
  inner   : ¬OpensCache line
  mention : Contains line "ttl:"

theorem mentionsTtl_iff (h : lines[i]? = some line) : MentionsTtl lines i line ↔
    ¬OpensCache line ∧ (lines.take i).foldl nextInCache false ∧ ¬Unindented line ∧
      Contains line "ttl:" := by
  have hb : InBlock OpensCache lines i ↔
      (lines.take i).foldl nextInCache false ∧ ¬Unindented line := by
    simp [InBlock, h, foldl_nextInCache_iff]
  constructor
  case mp =>
    intro hm
    have ⟨hc, hu⟩ := hb.mp hm.block
    exact ⟨hm.inner, hc, hu, hm.mention⟩
  case mpr =>
    rintro ⟨ho, hc, hu, ht⟩
    exact ⟨hb.mpr ⟨hc, hu⟩, ho, ht⟩

-- Exactly these lines are rewritten.
theorem getElem?_of_mentionsTtl (h : lines[i]? = some line) (hm : MentionsTtl lines i line) :
    (toggleLines enabled false lines)[i]? = some (ttlLine enabled) := by
  rw [toggleLines_eq_rewrite, Rewrite.getElem?_rewrite, h, Option.map_some, toggleLine,
    if_pos ((mentionsTtl_iff h).mp hm)]

theorem getElem?_of_not_mentionsTtl (h : lines[i]? = some line) (hm : ¬MentionsTtl lines i line) :
    (toggleLines enabled false lines)[i]? = some line := by
  rw [toggleLines_eq_rewrite, Rewrite.getElem?_rewrite, h, Option.map_some, toggleLine,
    if_neg (mt (mentionsTtl_iff h).mpr hm)]

-- What the toggle keeps: the number of lines, the effect of another toggle, and all lines but those
-- with a key `ttl` in the block of the cache.
structure EditsCacheOnly (lines : List String) : Prop where
  length : ∀ a, (toggleLines a false lines).length = lines.length
  again  : ∀ a b, toggleLines b false (toggleLines a false lines) = toggleLines b false lines
  frame  : ∀ a i line, lines[i]? = some line →
    ¬InBlock CacheKey lines i ∨ Comment line ∨ ¬TtlKey line →
    (toggleLines a false lines)[i]? = some line

-- Wherever a key `cache` may open a block, the text `ttl:` stands in a key `ttl` of the block that
-- the unindented one opens.
def TtlKeysOnly (lines : List String) : Prop :=
  ∀ i line, lines[i]? = some line → MentionsTtl lines i line →
    InBlock CacheKey lines i ∧ TtlKey line

theorem editsCacheOnly_iff (lines : List String) : EditsCacheOnly lines ↔ TtlKeysOnly lines := by
  constructor
  case mp =>
    intro he i line h hm
    by_contra hn
    have ho : ¬InBlock CacheKey lines i ∨ Comment line ∨ ¬TtlKey line :=
      (Classical.not_and_iff_not_or_not.mp hn).imp_right .inr
    -- Neither of the two texts that the line may be replaced by is the line itself.
    have ht : ∀ a, ttlLine a = line := by
      intro a
      exact Option.some.inj ((getElem?_of_mentionsTtl h hm).symm.trans (he.frame a i line h ho))
    exact absurd ((ht true).trans (ht false).symm) (by decide)
  case mpr =>
    intro hk
    refine ⟨fun _ => length_toggleLines, fun _ _ => toggleLines_toggleLines, ?_⟩
    intro a i line h ho
    refine getElem?_of_not_mentionsTtl h (fun hm => ?_)
    have ⟨hb, ht⟩ := hk i line h hm
    obtain ho | ho | ho := ho
    · exact ho hb
    · exact comment_not_ttlKey ho ht
    · exact ho ht

-- The settings of a cache as a key of other settings, where the time to live is one level deeper.
theorem not_editsCacheOnly_of_nested : ¬∀ lines : List String, EditsCacheOnly lines := by
  intro h
  let lines := ["litellm_settings:\n", "  cache: true\n", "  cache_params:\n", "    ttl: 600\n"]
  have hn : ∀ line ∈ lines, ¬CacheKey line := by decide
  have hb : ¬InBlock CacheKey lines 3 := by
    rintro ⟨⟨_, _, ⟨line, hl, hc⟩, _⟩, _⟩
    exact hn line (List.mem_of_getElem? hl) hc
  have hf := (h lines).frame true 3 "    ttl: 600\n" rfl (.inl hb)
  exact absurd hf (by decide +kernel)

end Admin
