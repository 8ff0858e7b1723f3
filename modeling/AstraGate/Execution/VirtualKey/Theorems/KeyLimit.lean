import AstraGate.Execution.VirtualKey.Step

open Function

namespace VirtualKeyAuth

variable {hashKey : String → String} {s s' : State} {keyHash : String} {key : VirtualKey}
  {userId : UUID}

-- No user has more active keys than a creation permits.
def State.Limited (s : State) : Prop :=
  ∀ userId, (s.activeKeys userId).encard ≤ VirtualKey.maxKeysPerUser

-- What a transaction has made of the row that it has locked: a creation adds an active key, and a
-- revocation leaves one that is not.
inductive Changes : Option VirtualKey → Option VirtualKey → Prop
  | create (key : VirtualKey) (active : key.isActive) : Changes none (some key)
  | revoke (key new : VirtualKey) (inactive : new.isActive = false) :
    Changes (some key) (some new)

abbrev State.Coherent (s : State) : Prop :=
  s.keys.Coherent fun _ _ => Changes

theorem Step.preserves_coherent (e : Step hashKey s s') (h : s.Coherent) : s'.Coherent := by
  cases e
  case insert unique   => exact h.lock (unique ▸ .create _ rfl)
  case flush committed => exact h.lock (committed ▸ .revoke _ _ rfl)
  case commit          => exact h.commit
  case rollback        => exact h.rollback
  case use             => exact h.commit
  all_goals exact h

namespace State

theorem mem_activeKeys : keyHash ∈ s.activeKeys userId ↔
    ∃ key, s.keys.rows keyHash = some key ∧ key.userId = userId ∧ key.isActive :=
  Iff.rfl

-- The rows of the other keys do not change with a commit.
theorem mem_activeKeys_commit (hn : k ≠ keyHash) :
    k ∈ (s.commit t keyHash row).activeKeys userId ↔ k ∈ s.activeKeys userId := by
  simp [mem_activeKeys, commit, hn]

theorem activeKeys_commit_create (hr : s.keys.rows keyHash = none) (ha : key.isActive) :
    (s.commit t keyHash (some key)).activeKeys userId =
      if key.userId = userId then Insert.insert keyHash (s.activeKeys userId)
      else s.activeKeys userId := by
  ext k
  by_cases hk : k = keyHash
  case neg =>
    rw [mem_activeKeys_commit hk]
    split <;> simp [hk]
  case pos =>
    subst hk
    have hm : k ∈ (s.commit t k (some key)).activeKeys userId ↔ key.userId = userId := by
      simp [mem_activeKeys, commit, ha]
    rw [hm]
    split <;> simp_all [mem_activeKeys]

theorem activeKeys_commit_revoke (ha : key.isActive = false) :
    (s.commit t keyHash (some key)).activeKeys userId ⊆ s.activeKeys userId := by
  intro k h
  by_cases hk : k = keyHash
  case neg => exact (mem_activeKeys_commit hk).mp h
  case pos =>
    subst hk
    simp [mem_activeKeys, commit, ha] at h

end State

-- The limit that a creation has checked before it inserts its row still holds at its commit.
def Step.Admitted (e : Step hashKey s s') : Prop :=
  match e with
  | commit _ keyHash (some key) _ _ =>
    s.keys.rows keyHash = none →
      (s.activeKeys key.userId).encard < VirtualKey.maxKeysPerUser
  | _ => True

theorem Step.limited_iff (e : Step hashKey s s') (hc : s.Coherent) (h : s.Limited) :
    s'.Limited ↔ e.Admitted := by
  cases e
  case commit t keyHash row task pending =>
    have hw := hc pending
    generalize hr : s.keys.rows keyHash = old at hw
    cases hw
    case create key active =>
      have hk : keyHash ∉ s.activeKeys key.userId := by simp [State.mem_activeKeys, hr]
      simp only [Admitted, hr, forall_const]
      constructor
      case mp =>
        intro hl
        have hl := hl key.userId
        rw [State.activeKeys_commit_create hr active, if_pos rfl,
          Set.encard_insert_of_notMem hk] at hl
        exact ENat.add_one_le_natCast_iff.mp hl
      case mpr =>
        intro hl userId
        rw [State.activeKeys_commit_create hr active]
        by_cases hu : key.userId = userId
        case pos =>
          subst hu
          rw [if_pos rfl, Set.encard_insert_of_notMem hk]
          exact ENat.add_one_le_natCast_iff.mpr hl
        case neg => simpa [hu] using h userId
    case revoke key new inactive =>
      refine iff_of_true (fun userId => ?_) (by simp [Admitted, hr])
      exact (Set.encard_le_encard <| State.activeKeys_commit_revoke inactive).trans (h userId)
  case use keyHash row lastUsedAt totalRequests totalTokens free committed =>
    refine iff_of_true (fun userId => ?_) trivial
    refine (Set.encard_le_encard fun k hk => ?_).trans (h userId)
    by_cases he : k = keyHash
    case neg => simpa [State.mem_activeKeys, he] using hk
    case pos => simpa [State.mem_activeKeys, he, committed] using hk
  all_goals exact iff_of_true h trivial

-- Creations count the active keys without a lock, and none of them sees what others are about to
-- insert: in every run, the limit holds in all states exactly if it is not reached when a creation
-- commits.
theorem visits_limited_iff (es : Run hashKey s s') (hi : s.Initial) (h : s.Limited) :
    es.Visits State.Limited ↔ es.All Step.Admitted := by
  refine es.all_iff_all (I := fun s => s.Coherent ∧ s.Limited) ?_ ?_ ⟨.of_quiet hi.quiet, h⟩
  case refine_1 => exact fun e h hl => ⟨e.preserves_coherent h.left, hl⟩
  case refine_2 => exact fun e h => e.limited_iff h.left h.right

-- A user with nine active keys sends two creations, and both count before one of them commits.
theorem not_visits_limited_of_two_creations :
    ¬∀ (s s' : State) (es : Run id s s'), s.Initial → s.Limited → es.Visits State.Limited := by
  intro h
  let nine : Finset String := {"1", "2", "3", "4", "5", "6", "7", "8", "9"}
  let key : VirtualKey := ⟨7, 1, "k", none, "h", "h", true, none, none, 0, 0, none⟩
  let s : State := {
    keys  := { rows := fun h => if h ∈ nine then some key else none, pending := fun _ => none }
    cache := fun _ => none
    tasks := fun _ => .fresh }
  let c₁ : VirtualKey.Creation := ⟨1, "a", none, none, 8, "a"⟩
  let c₂ : VirtualKey.Creation := ⟨1, "b", none, none, 9, "b"⟩
  have hs : ∀ userId, s.activeKeys userId ⊆ nine := by
    intro userId k hk
    obtain ⟨key, hr, -⟩ := hk
    by_contra hn
    exact absurd ((if_neg hn).symm.trans hr) nofun
  have hn : ∀ userId, (s.activeKeys userId).encard < VirtualKey.maxKeysPerUser := by
    intro userId
    refine (Set.encard_le_encard <| hs userId).trans_lt ?_
    rw [Set.encard_coe_eq_coe_finsetCard]
    exact_mod_cast (by decide : nine.card < VirtualKey.maxKeysPerUser)
  let es : (s' : State) × Run id s s' := ⟨_,
    .step (.count 1 c₁ rfl (hn 1)) <|
    .step (.count 2 c₂ rfl (hn 1)) <|
    .step (.insert 1 c₁ rfl rfl rfl) <|
    .step (.insert 2 c₂ rfl rfl rfl) <|
    .step (.commit 1 "ag-sk-a" _ rfl rfl) <|
    .step (.commit 2 "ag-sk-b" _ rfl rfl) .refl⟩
  have hv := h s es.fst es.snd ⟨fun _ => rfl, fun _ => rfl, fun _ => rfl⟩ (fun u => (hn u).le)
  have hl : (es.fst.activeKeys 1).encard ≤ VirtualKey.maxKeysPerUser :=
    hv.right.right.right.right.right.left 1
  let eleven : Finset String := {"ag-sk-a", "ag-sk-b"} ∪ nine
  have hm : (eleven : Set String) ⊆ es.fst.activeKeys 1 := by
    intro k hk
    cases Finset.mem_union.mp (Finset.mem_coe.mp hk)
    case inl hk =>
      obtain rfl | rfl : k = "ag-sk-a" ∨ k = "ag-sk-b" := by simpa using hk
      · exact ⟨_, rfl, rfl, rfl⟩
      · exact ⟨_, rfl, rfl, rfl⟩
    case inr hk =>
      have ha : k ≠ "ag-sk-a" := fun he => absurd (he ▸ hk) (by decide)
      have hb : k ≠ "ag-sk-b" := fun he => absurd (he ▸ hk) (by decide)
      exact ⟨key, (update_of_ne hb ..).trans <| (update_of_ne ha ..).trans <| if_pos hk, rfl, rfl⟩
  have hc := (Set.encard_le_encard hm).trans hl
  rw [Set.encard_coe_eq_coe_finsetCard] at hc
  exact absurd (Nat.cast_le.mp hc) (by decide)

-- A creation that is alone.
theorem visits_limited_of_one_creation :
    ∃ (s s' : State) (es : Run id s s'), (s'.activeKeys 1).Nonempty ∧ es.Visits State.Limited := by
  let s : State := ⟨⟨fun _ => none, fun _ => none⟩, fun _ => none, fun _ => .fresh⟩
  let c : VirtualKey.Creation := ⟨1, "a", none, none, 8, "a"⟩
  have he : ∀ userId, s.activeKeys userId = ∅ := fun _ => by simp [s, State.activeKeys]
  have hn : ∀ userId, (s.activeKeys userId).encard < VirtualKey.maxKeysPerUser := by
    intro userId
    rw [he, Set.encard_empty]
    exact_mod_cast (by decide : 0 < VirtualKey.maxKeysPerUser)
  let es : Run id s _ :=
    .step (.count 1 c rfl (hn 1)) <|
    .step (.insert 1 c rfl rfl rfl) <|
    .step (.commit 1 "ag-sk-a" _ rfl rfl) .refl
  refine ⟨s, _, es, ⟨"ag-sk-a", _, rfl, rfl, rfl⟩, ?_⟩
  refine (visits_limited_iff es ⟨fun _ => rfl, fun _ => rfl, fun _ => rfl⟩ ?_).mpr ?_
  case refine_1 => exact fun u => (hn u).le
  case refine_2 => exact ⟨trivial, trivial, fun _ => hn 1, trivial⟩

end VirtualKeyAuth
