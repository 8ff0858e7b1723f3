import AstraGate.Execution.Guardrail.Theorems.Refinement

open Admin

namespace Guardrail

-- No active keyword is empty, and none is there twice.
structure Sound (rows : List GuardrailKeyword) : Prop where
  nonempty : ∀ row ∈ rows, row.isActive → row.keyword ≠ ""
  distinct : (rows.filter (·.isActive) |>.map (·.keyword)).Nodup

-- The constraint of the primary key.
def Keyed (rows : List GuardrailKeyword) : Prop :=
  (rows.map (·.id)).Nodup

-- A keyword that is not empty, and that no other row has.
structure Fresh (rows : List GuardrailKeyword) (id : UUID) (keyword : String) : Prop where
  nonempty : keyword ≠ ""
  unused   : ∀ row ∈ rows, row.isActive → row.id ≠ id → row.keyword ≠ keyword

-- What a body has to see to, as the handlers do not.
def Proper (rows : List GuardrailKeyword) : KeywordRequest → Prop
  | .create body _         => stripText body.keyword ≠ ""
  | .update keywordId body =>
    (∃ row ∈ rows, row.id = keywordId ∧ row.isActive) →
      ∀ keyword ∈ body.keyword, Fresh rows keywordId (stripText keyword)
  | .delete _              => True

variable {str : UUID → String} {json : KeywordText} {s s' s₁ s₂ : State}
  {rows rows' : List GuardrailKeyword} {keyword row row' : GuardrailKeyword}

theorem Keyed.eq (h : Keyed rows) (hr : row ∈ rows) (hr' : row' ∈ rows) (hi : row.id = row'.id) :
    row = row' :=
  List.inj_on_of_nodup_map h hr hr' hi

theorem sound_iff (h : Keyed rows) :
    Sound rows ↔ ∀ row ∈ rows, row.isActive → Fresh rows row.id row.keyword := by
  have hd : (rows.filter (·.isActive)).Nodup := (List.Nodup.of_map _ h).filter _
  have hm {row : GuardrailKeyword} : row ∈ rows.filter (·.isActive) ↔ row ∈ rows ∧ row.isActive :=
    List.mem_filter
  constructor
  case mp =>
    intro hs row hr ha
    refine ⟨hs.nonempty row hr ha, fun row' hr' ha' hi hk => hi ?_⟩
    rw [List.inj_on_of_nodup_map hs.distinct (hm.mpr ⟨hr', ha'⟩) (hm.mpr ⟨hr, ha⟩) hk]
  case mpr =>
    intro hf
    refine ⟨fun row hr ha => (hf row hr ha).nonempty, (List.nodup_map_iff_inj_on hd).mpr ?_⟩
    intro row hr row' hr' hk
    have ⟨hr, ha⟩ := hm.mp hr
    have ⟨hr', ha'⟩ := hm.mp hr'
    by_contra hn
    exact (hf row hr ha).unused row' hr' ha' (fun hi => hn (h.eq hr' hr hi).symm) hk.symm

theorem Fresh.mono {id : UUID} {text : String} (h : Fresh rows id text)
    (hm : ∀ row ∈ rows', row.isActive → row.id ≠ id → row ∈ rows) : Fresh rows' id text :=
  ⟨h.nonempty, fun row hr ha hi => h.unused row (hm row hr ha hi) ha hi⟩

section SetKeyword

variable (h : Keyed rows) (hi : ∃ row ∈ rows, row.id = keyword.id)

theorem Keyed.setKeyword (h : Keyed rows) : Keyed (setKeyword keyword rows) := by
  have hm : (Admin.setKeyword keyword rows).map (·.id) = rows.map (·.id) := by
    rw [Admin.setKeyword, List.map_map]
    refine List.map_congr_left fun row _ => ?_
    by_cases hk : row.id = keyword.id <;> simp [hk]
  rwa [Keyed, hm]

include hi

theorem mem_setKeyword : row ∈ setKeyword keyword rows ↔
    row = keyword ∨ row ∈ rows ∧ row.id ≠ keyword.id := by
  rw [setKeyword, List.mem_map]
  constructor
  case mp =>
    rintro ⟨row', hr, rfl⟩
    split
    case isTrue     => exact .inl rfl
    case isFalse hn => exact .inr ⟨hr, hn⟩
  case mpr =>
    rintro (rfl | ⟨hr, hn⟩)
    · have ⟨row', hr, he⟩ := hi
      exact ⟨row', hr, if_pos he⟩
    · exact ⟨row, hr, if_neg hn⟩

include h

-- A row that is changed must be fresh, and the others stay as sound as they are.
theorem sound_setKeyword_iff (hs : Sound rows) (ha : keyword.isActive) :
    Sound (setKeyword keyword rows) ↔ Fresh rows keyword.id keyword.keyword := by
  have ho := (sound_iff h).mp hs
  rw [sound_iff h.setKeyword]
  constructor
  case mp =>
    intro hf
    refine (hf keyword ((mem_setKeyword hi).mpr (.inl rfl)) ha).mono fun row hr _ hn => ?_
    exact (mem_setKeyword hi).mpr (.inr ⟨hr, hn⟩)
  case mpr =>
    intro hf row hr ha
    cases (mem_setKeyword hi).mp hr
    case inl he =>
      subst he
      refine hf.mono fun row' hr' _ hn => ?_
      exact ((mem_setKeyword hi).mp hr').elim (fun he => absurd (he ▸ rfl) hn) And.left
    case inr hr =>
      have hr' := ho row hr.left ha
      refine ⟨hr'.nonempty, fun row' hm ha' hn => ?_⟩
      cases (mem_setKeyword hi).mp hm
      case inl he => exact he ▸ (hf.unused row hr.left ha hr.right).symm
      case inr hm => exact hr'.unused row' hm.left ha' hn

theorem sound_setKeyword_of_not_isActive (hs : Sound rows) (ha : keyword.isActive = false) :
    Sound (setKeyword keyword rows) := by
  have hm : ∀ row ∈ setKeyword keyword rows, row.isActive → row ∈ rows := by
    intro row hr hr'
    cases (mem_setKeyword hi).mp hr
    case inl he => cases (he ▸ ha).symm.trans hr'
    case inr hr => exact hr.left
  rw [sound_iff h.setKeyword]
  intro row hr hr'
  exact ((sound_iff h).mp hs row (hm row hr hr') hr').mono fun row' hr _ _ => hm row' hr ‹_›

end SetKeyword

theorem Keyed.append (h : Keyed rows) (hi : keyword.id ∉ rows.map (·.id)) :
    Keyed (rows ++ [keyword]) := by
  rw [Keyed, List.map_append]
  exact List.nodup_append_comm.mp (List.nodup_cons.mpr ⟨hi, h⟩)

theorem sound_append_iff (h : Keyed rows) (hs : Sound rows) (hi : keyword.id ∉ rows.map (·.id))
    (ha : keyword.isActive) :
    Sound (rows ++ [keyword]) ↔ Fresh rows keyword.id keyword.keyword := by
  have ho := (sound_iff h).mp hs
  rw [sound_iff (h.append hi)]
  constructor
  case mp =>
    intro hf
    exact (hf keyword (by simp) ha).mono fun row hr _ _ => List.mem_append_left _ hr
  case mpr =>
    intro hf row hr ha
    obtain hr | hr := List.mem_append.mp hr
    · have hr' := ho row hr ha
      refine ⟨hr'.nonempty, fun row' hm ha' hn => ?_⟩
      obtain hm | hm := List.mem_append.mp hm
      · exact hr'.unused row' hm ha' hn
      · cases List.mem_singleton.mp hm
        exact (hf.unused row hr ha (fun he => hi (he ▸ List.mem_map_of_mem hr))).symm
    · cases List.mem_singleton.mp hr
      refine hf.mono fun row' hr' _ hn => ?_
      exact (List.mem_append.mp hr').resolve_right fun hm => hn (List.mem_singleton.mp hm ▸ rfl)

theorem findKeyword_cases (str : UUID → String) (h : Keyed rows) (keywordId : UUID) :
    (∃ row ∈ rows, (row.id = keywordId ∧ row.isActive) ∧ findKeyword str keywordId rows = .ok row) ∨
    (∀ row ∈ rows, ¬(row.id = keywordId ∧ row.isActive)) ∧
      ∃ e, findKeyword str keywordId rows = .error (.http e) := by
  unfold findKeyword
  cases Sql.scalarOneOrNone_filter_cases (p := fun row => row.id = keywordId ∧ row.isActive)
    (List.Nodup.of_map _ h) (fun row hr row' hr' hp hp' => by
      simp only [decide_eq_true_eq] at hp hp'
      exact h.eq hr hr' (hp.left.trans hp'.left.symm))
  case inl hf =>
    have ⟨row, hr, hp, he⟩ := hf
    rw [he]
    exact .inl ⟨row, hr, by simpa using hp, rfl⟩
  case inr hf =>
    have ⟨hn, he⟩ := hf
    rw [he]
    exact .inr ⟨by simpa using hn, _, rfl⟩

-- The lookup of a keyword that is to be created.
theorem createGuardrailKeyword_cases (h : Keyed rows) (hs : Sound rows)
    (body : GuardrailKeywordCreate) (id : UUID) :
    (∃ e, createGuardrailKeyword body id rows = .error (.http e)) ∧
      (∃ row ∈ rows, row.isActive ∧ row.keyword = stripText body.keyword) ∨
    (∀ row ∈ rows, row.isActive → row.keyword ≠ stripText body.keyword) ∧
      createGuardrailKeyword body id rows =
        .ok (rows ++ [⟨id, stripText body.keyword, body.scope, true⟩]) := by
  have ho := (sound_iff h).mp hs
  unfold createGuardrailKeyword
  dsimp only
  cases Sql.scalarOneOrNone_filter_cases
    (p := fun row => row.keyword = stripText body.keyword ∧ row.isActive)
    (List.Nodup.of_map _ h) (fun row hr row' hr' hp hp' => by
      simp only [decide_eq_true_eq] at hp hp'
      by_contra hn
      exact (ho row hr hp.right).unused row' hr' hp'.right (fun hi => hn (h.eq hr' hr hi).symm)
        (hp'.left.trans hp.left.symm))
  case inl hf =>
    have ⟨row, hr, hp, he⟩ := hf
    simp only [decide_eq_true_eq] at hp
    rw [he]
    exact .inl ⟨⟨_, rfl⟩, row, hr, hp.right, hp.left⟩
  case inr hf =>
    have ⟨hn, he⟩ := hf
    simp only [decide_eq_true_eq, not_and'] at hn
    rw [he]
    exact .inr ⟨hn, rfl⟩

-- What is left of the rows by a request.
def after (str : UUID → String) (rows : List GuardrailKeyword) (request : KeywordRequest) :
    List GuardrailKeyword :=
  (request.apply str rows).toOption.getD rows

theorem State.handle_rows (s : State) (request : KeywordRequest) :
    (s.handle str request).rows = after str s.rows request := by
  unfold handle getDb KeywordRequest.endpoint after
  cases request.apply str s.rows <;> rfl

-- Rows that are keyed and sound stay so exactly by proper requests, and no lookup raises.
structure Handled (str : UUID → String) (rows : List GuardrailKeyword) (request : KeywordRequest) :
    Prop where
  keyed     : Keyed (after str rows request)
  sound_iff : Sound (after str rows request) ↔ Proper rows request
  answered  : ∀ e, request.apply str rows ≠ .error (.sql e)

theorem Handled.of_error (h : Keyed rows) (hs : Sound rows) {request : KeywordRequest}
    (he : request.apply str rows = .error (.http e)) (hp : Proper rows request) :
    Handled str rows request where
  keyed     := by rwa [after, he]
  sound_iff := by rw [after, he]; exact iff_of_true hs hp
  answered  := by rw [he]; nofun

theorem Handled.of_ok (hk : Keyed rows') {request : KeywordRequest}
    (ho : request.apply str rows = .ok rows') (hp : Sound rows' ↔ Proper rows request) :
    Handled str rows request where
  keyed     := by rwa [after, ho]
  sound_iff := by rw [after, ho]; exact hp
  answered  := by rw [ho]; nofun

theorem handled_create {id : UUID} (h : Keyed rows) (hs : Sound rows)
    (body : GuardrailKeywordCreate) (hi : id ∉ rows.map (·.id)) :
    Handled str rows (.create body id) := by
  cases createGuardrailKeyword_cases h hs body id
  case inl hc =>
    have ⟨⟨e, he⟩, row, hr, ha, hk⟩ := hc
    refine .of_error h hs he ?_
    rw [Proper, ← hk]
    exact hs.nonempty row hr ha
  case inr hc =>
    have ⟨hn, ho⟩ := hc
    refine .of_ok (h.append hi) ho ?_
    rw [sound_append_iff h hs hi rfl]
    exact ⟨Fresh.nonempty, fun hp => ⟨hp, fun row hr ha _ => hn row hr ha⟩⟩

theorem handled_update (h : Keyed rows) (hs : Sound rows) (body : GuardrailKeywordUpdate) :
    Handled str rows (.update keywordId body) := by
  cases findKeyword_cases str h keywordId
  case inr hf =>
    have ⟨hn, e, he⟩ := hf
    refine .of_error h hs (e := e) ?_ fun ⟨row, hr, hp⟩ => absurd hp (hn row hr)
    rw [KeywordRequest.apply, updateGuardrailKeyword, he]
    rfl
  case inl hf =>
    have ⟨row, hr, ⟨hi, ha⟩, he⟩ := hf
    let keyword : GuardrailKeyword := {
      row with
      keyword := body.keyword.elim row.keyword stripText
      scope   := body.scope.getD row.scope }
    have ho : (KeywordRequest.update keywordId body).apply str rows =
        .ok (setKeyword keyword rows) := by
      rw [KeywordRequest.apply, updateGuardrailKeyword, he]
      rfl
    refine .of_ok h.setKeyword ho ?_
    have hs' : Sound (setKeyword keyword rows) ↔ Fresh rows keyword.id keyword.keyword :=
      sound_setKeyword_iff h ⟨row, hr, rfl⟩ hs ha
    rw [hs', Proper]
    have hf' := (Guardrail.sound_iff h).mp hs row hr ha
    subst hi
    cases hb : body.keyword
    case none =>
      have hk : keyword.keyword = row.keyword := by simp only [keyword, hb]; rfl
      exact iff_of_true (hk ▸ hf') (by simp)
    case some text =>
      have hk : keyword.keyword = stripText text := by simp only [keyword, hb]; rfl
      have hx : ∃ row' ∈ rows, row'.id = row.id ∧ row'.isActive := ⟨row, hr, rfl, ha⟩
      rw [hk]
      simp [hx, keyword]

theorem handled_delete (h : Keyed rows) (hs : Sound rows) :
    Handled str rows (.delete keywordId) := by
  cases findKeyword_cases str h keywordId
  case inr hf =>
    have ⟨_, e, he⟩ := hf
    refine .of_error h hs (e := e) ?_ trivial
    rw [KeywordRequest.apply, deleteGuardrailKeyword, he]
    rfl
  case inl hf =>
    have ⟨row, hr, _, he⟩ := hf
    have ho : (KeywordRequest.delete keywordId).apply str rows =
        .ok (setKeyword { row with isActive := false } rows) := by
      rw [KeywordRequest.apply, deleteGuardrailKeyword, he]
      rfl
    refine .of_ok h.setKeyword ho (iff_of_true ?_ trivial)
    exact sound_setKeyword_of_not_isActive h ⟨row, hr, rfl⟩ hs rfl

theorem handled (h : Keyed rows) (hs : Sound rows) {request : KeywordRequest}
    (hn : ∀ body id, request = .create body id → id ∉ rows.map (·.id)) :
    Handled str rows request := by
  cases request
  case create body id        => exact handled_create h hs body (hn body id rfl)
  case update keywordId body => exact handled_update h hs body
  case delete keywordId      => exact handled_delete h hs

-- The rows are keyed, and the keywords are sound.
structure State.Kept (s : State) : Prop where
  keyed : Keyed s.rows
  sound : Sound s.rows

namespace Step

def Proper : Step str json s s' → Prop
  | request r _ => Guardrail.Proper s.rows r
  | _           => True

-- No lookup of a request finds two rows.
def Answered : Step str json s s' → Prop
  | request r _ => ∀ e, r.apply str s.rows ≠ .error (.sql e)
  | _           => True

theorem sound_iff_proper (e : Step str json s s') (h : s.Kept) : Sound s'.rows ↔ e.Proper := by
  cases e
  case request request new =>
    rw [s.handle_rows, (handled h.keyed h.sound new).sound_iff]
    rfl
  all_goals exact iff_of_true h.sound trivial

theorem kept_of_proper (e : Step str json s s') (h : s.Kept) (hp : e.Proper) : s'.Kept := by
  refine ⟨?_, (e.sound_iff_proper h).mpr hp⟩
  cases e
  case request request new =>
    rw [s.handle_rows]
    exact (handled h.keyed h.sound new).keyed
  all_goals exact h.keyed

theorem answered (e : Step str json s s') (h : s.Kept) : e.Answered := by
  cases e
  case request request new => exact (handled h.keyed h.sound new).answered
  all_goals trivial

end Step

-- The keywords stay sound exactly in the runs whose requests are proper, and then no lookup of a
-- request raises.
theorem visits_sound_iff (es : Run str json s₁ s₂) (hk : Keyed s₁.rows) (hs : Sound s₁.rows) :
    (es.Visits (fun s => Sound s.rows) ↔ es.All Step.Proper) ∧
    (es.All Step.Proper → es.All Step.Answered) := by
  have h : s₁.Kept := ⟨hk, hs⟩
  constructor
  case left =>
    exact Iff.symm <|
      es.all_iff_all (fun e => e.kept_of_proper) (fun e h => (e.sound_iff_proper h).symm) h
  case right =>
    exact es.all_of_invariant (fun e => e.kept_of_proper) (fun e h _ => e.answered h) h

-- A keyword of a single blank is valid, and is stripped to the empty one.
theorem not_visits_sound_of_blank :
    ¬∀ (s₁ s₂ : State) (es : Run Python.str numberedText s₁ s₂), s₁.rows = [] →
      es.Visits fun s => Sound s.rows := by
  intro h
  let s : State := { rows := [], redis := fun _ => none }
  let es : Run Python.str numberedText s _ :=
    .step (.request (.create ⟨" ", .both, by decide⟩ 1) (by simp [s])) .refl
  have hr : (s.handle Python.str (.create ⟨" ", .both, by decide⟩ 1)).rows =
      [⟨1, "", .both, true⟩] := by
    decide +kernel
  have hs : Sound [⟨1, "", .both, true⟩] := hr ▸ (h s _ es rfl).left
  exact hs.nonempty _ (List.mem_singleton_self _) rfl rfl

-- Two keywords are created, and one of them is renamed to a third.
theorem visits_sound_of_renamed :
    ∃ (s₁ s₂ : State) (es : Run Python.str numberedText s₁ s₂),
      s₂.rows = [⟨1, "bad", .both, true⟩, ⟨2, "worst", .both, true⟩] ∧
      es.Visits fun s => Sound s.rows := by
  let s₁ : State := { rows := [], redis := fun _ => none }
  let s₂ := s₁.handle Python.str (.create ⟨" bad", .both, by decide⟩ 1)
  let s₃ := s₂.handle Python.str (.create ⟨"worse", .both, by decide⟩ 2)
  have hr₂ : s₂.rows = [⟨1, "bad", .both, true⟩] := by decide +kernel
  have hr₃ : s₃.rows = [⟨1, "bad", .both, true⟩, ⟨2, "worse", .both, true⟩] := by decide +kernel
  let es : Run Python.str numberedText s₁ _ :=
    .step (.request (.create ⟨" bad", .both, by decide⟩ 1) (by simp [s₁])) <|
    .step (.request (.create ⟨"worse", .both, by decide⟩ 2) (by
      rintro body id ⟨⟩
      rw [hr₂]
      decide) : Step _ _ s₂ s₃) <|
    .step (.request (.update 2 ⟨some "worst", none, by decide⟩) nofun) .refl
  refine ⟨s₁, _, es, by decide +kernel, (visits_sound_iff es .nil ⟨by simp [s₁], .nil⟩).left.mpr ?_⟩
  have hw : stripText "worst" = "worst" := by decide +kernel
  refine ⟨(by decide +kernel : stripText " bad" ≠ ""), (by decide +kernel : stripText "worse" ≠ ""),
    fun _ keyword hk => ?_, trivial⟩
  cases hk
  rw [hw]
  refine ⟨by decide, fun row hr _ hi => ?_⟩
  rw [hr₃] at hr
  obtain rfl | rfl : row = ⟨1, "bad", .both, true⟩ ∨ row = ⟨2, "worse", .both, true⟩ := by
    simpa using hr
  · decide
  · decide

end Guardrail
