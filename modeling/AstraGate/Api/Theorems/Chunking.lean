import AstraGate.Api.Theorems.Delivery
import Mathlib.Data.List.Chain

open Python

namespace Gateway

-- The texts that are loaded from the lines of a text.
def dataStrs (text : List Char) : List String :=
  text.splitOn '\n' |>.filterMap dataStr

variable {text text' : List Char} {c : Char}

theorem dataStr_of_not_starts (h : ¬"data:".toList <+: text) : dataStr text = none :=
  if_neg fun hp => h (List.isPrefixOf_iff_prefix.mp hp)

theorem dataStr_append_space (h : isSpace c) : dataStr (text ++ [c]) = dataStr text := by
  have hc : "data:".toList ≠ text ++ [c] := by
    intro he
    have hl : "data:".toList.getLast? = some c := by simp [he]
    cases hl
    contradiction
  have hp : "data:".toList <+: text ++ [c] ↔ "data:".toList <+: text :=
    List.prefix_concat_iff.trans (or_iff_right hc)
  by_cases ht : "data:".toList <+: text
  case neg => rw [dataStr_of_not_starts ht, dataStr_of_not_starts (hp.not.mpr ht)]
  case pos =>
    have hd : (text ++ [c]).drop 5 = text.drop 5 ++ [c] :=
      List.drop_append_of_le_length ht.length_le
    simp only [dataStr, List.isPrefixOf_iff_prefix, hp, hd, strip_append_space h]

@[simp]
theorem dataStrs_nil : dataStrs [] = [] :=
  rfl

theorem dataStrs_append_lineFeed (text text' : List Char) :
    dataStrs (text ++ '\n' :: text') = dataStrs text ++ dataStrs text' := by
  rw [dataStrs, List.splitOn_append_cons_self, List.filterMap_append]
  rfl

theorem dataStrs_of_line (h : '\n' ∉ text) : dataStrs text = (dataStr text).toList := by
  rw [dataStrs, List.splitOn_eq_singleton h]
  cases hd : dataStr text <;> simp [hd]

theorem dataStrs_append_space {text : List Char} (h : isSpace c) :
    dataStrs (text ++ [c]) = dataStrs text := by
  by_cases hc : c = '\n'
  case pos => rw [hc, dataStrs_append_lineFeed, dataStrs_nil, List.append_nil]
  case neg =>
    by_cases ht : '\n' ∈ text
    case neg =>
      rw [dataStrs_of_line ht, dataStrs_of_line (by simp [ht, Ne.symm hc]), dataStr_append_space h]
    case pos =>
      have ⟨before, after, ha⟩ := List.append_of_mem ht
      rw [ha, List.append_assoc, List.cons_append, dataStrs_append_lineFeed,
        dataStrs_append_lineFeed, dataStrs_append_space h]
termination_by text.length
decreasing_by simp [ha]; omega

theorem dataStrs_of_length_le (h : text.length ≤ 1) : dataStrs text = [] := by
  have hp : ¬"data:".toList <+: text := fun hp => absurd (hp.length_le.trans h) (by decide)
  cases text
  case nil => rfl
  case cons c cs =>
    cases List.length_eq_zero_iff.mp (Nat.le_zero.mp (Nat.le_of_succ_le_succ h))
    by_cases hc : c = '\n'
    case pos => exact hc ▸ dataStrs_append_lineFeed [] []
    case neg =>
      rw [dataStrs_of_line (by simp [Ne.symm hc]), dataStr_of_not_starts hp, Option.toList]

-- White space at the end does not matter.
theorem dataStrs_dropWhile_reverse :
    dataStrs (text.reverse.dropWhile isSpace).reverse = dataStrs text := by
  induction text using List.reverseRecOn
  case nil => rfl
  case append_singleton text c ih =>
    rw [List.reverse_append, List.reverse_singleton, List.singleton_append, List.dropWhile_cons]
    split
    case isTrue hc => rw [ih, dataStrs_append_space hc]
    case isFalse   => rw [List.reverse_cons, List.reverse_reverse]

-- A line that has anything in it: a field such as `data:` or `id:`, or a comment.
structure Line where
  text    : List Char
  oneLine : '\n' ∉ text
  starts  : ∃ c cs, text = c :: cs ∧ isSpace c = false

-- What is never cut by a chunk that starts and ends between lines and their ends.
inductive Piece
  | line (l : Line)
  | carriageReturn
  | lineFeed

namespace Piece

def chars : Piece → List Char
  | line l         => l.text
  | carriageReturn => ['\r']
  | lineFeed       => ['\n']

def line? : Piece → Option Line
  | line l => some l
  | _      => none

def bytes (pieces : List Piece) : List UInt8 :=
  encode <| pieces.flatMap chars

-- No line goes on with another one, or with what is not the end of a line.
def Separated : List Piece → Prop :=
  List.IsChain fun p p' => (p.line?.isSome → p'.line? = none) ∧ (p = carriageReturn → p' = lineFeed)

end Piece

-- An event, which has lines, and ends with a blank one.
structure Sse where
  lines : List Line
  crlf  : Bool

namespace Sse

def lineEnd (e : Sse) : List Piece :=
  if e.crlf then [.carriageReturn, .lineFeed] else [.lineFeed]

def pieces (e : Sse) : List Piece :=
  e.lines.flatMap (fun l => .line l :: e.lineEnd) ++ e.lineEnd

def bytes (events : List Sse) : List UInt8 :=
  Piece.bytes <| events.flatMap pieces

end Sse

namespace Piece

variable {pieces pieces' : List Piece} {p : Piece} {l : Line}

theorem Separated.lineEnd_append (e : Sse) (h : Separated pieces) :
    Separated (e.lineEnd ++ pieces) := by
  have hl : Separated (.lineFeed :: pieces) := by
    refine List.isChain_cons.mpr ⟨fun p _ => ⟨fun hs => ?_, fun hs => ?_⟩, h⟩ <;> cases hs
  unfold Sse.lineEnd
  split
  case isFalse => exact hl
  case isTrue  =>
    refine List.isChain_cons_cons.mpr ⟨⟨fun hs => ?_, fun _ => rfl⟩, hl⟩
    cases hs

theorem Separated.line_append (e : Sse) (l : Line) (h : Separated pieces) :
    Separated (.line l :: (e.lineEnd ++ pieces)) := by
  refine List.isChain_cons.mpr ⟨fun p hp => ⟨fun _ => ?_, fun hs => ?_⟩, h.lineEnd_append e⟩
  case refine_1 =>
    unfold Sse.lineEnd at hp
    split at hp <;> cases hp <;> rfl
  case refine_2 => cases hs

theorem separated_pieces (events : List Sse) : Separated (events.flatMap Sse.pieces) := by
  induction events
  case nil => exact .nil
  case cons e events ih =>
    rw [List.flatMap_cons, Sse.pieces, List.append_assoc]
    generalize e.lines = lines
    induction lines
    case nil => exact ih.lineEnd_append e
    case cons l lines ihl =>
      rw [List.flatMap_cons, List.append_assoc]
      exact ihl.line_append e l

theorem filterMap_line?_pieces (events : List Sse) :
    (events.flatMap Sse.pieces).filterMap line? = events.flatMap Sse.lines := by
  have hn : ∀ e : Sse, e.lineEnd.filterMap line? = [] := by
    intro e
    unfold Sse.lineEnd
    split <;> rfl
  have hl : ∀ (e : Sse) (lines : List Line),
      (lines.flatMap fun l => .line l :: e.lineEnd).filterMap line? = lines := by
    intro e lines
    induction lines
    case nil => rfl
    case cons l lines ih =>
      rw [List.flatMap_cons, List.filterMap_append, ih]
      exact congrArg (l :: · ++ lines) (hn e)
  induction events
  case nil => rfl
  case cons e events ih =>
    rw [List.flatMap_cons, List.filterMap_append, ih, Sse.pieces, List.filterMap_append, hl, hn,
      List.append_nil, List.flatMap_cons]

theorem dataStrs_carriageReturn (h : Separated (.carriageReturn :: pieces)) :
    dataStrs ('\r' :: pieces.flatMap chars) = dataStrs (pieces.flatMap chars) := by
  cases pieces
  case nil => exact dataStrs_of_length_le (by decide)
  case cons p pieces =>
    cases (List.isChain_cons_cons.mp h).left.right rfl
    have hr : dataStrs ['\r'] = [] := dataStrs_of_length_le (by decide)
    exact (dataStrs_append_lineFeed ['\r'] _).trans
      (hr ▸ (dataStrs_append_lineFeed [] _).symm)

-- White space at the start is made up of ends of lines, and these do not matter either.
theorem dataStrs_dropWhile_chars (h : Separated pieces) :
    dataStrs ((pieces.flatMap chars).dropWhile isSpace) = dataStrs (pieces.flatMap chars) := by
  induction pieces
  case nil              => rfl
  case cons p pieces ih =>
    cases p
    case line l =>
      have ⟨c, cs, hl, hc⟩ := l.starts
      rw [List.flatMap_cons, chars, hl, List.cons_append, List.dropWhile_cons_of_neg (by simp [hc])]
    case carriageReturn => exact (ih h.tail).trans (dataStrs_carriageReturn h).symm
    case lineFeed       => exact (ih h.tail).trans (dataStrs_append_lineFeed [] _).symm

theorem dataStrs_strip_chars (h : Separated pieces) :
    dataStrs (strip <| pieces.flatMap chars) = dataStrs (pieces.flatMap chars) := by
  rw [strip, stripBy, dataStrs_dropWhile_reverse, dataStrs_dropWhile_chars h]

-- A line is read up to its end.
theorem dataStrs_line (h : Separated (.line l :: pieces)) :
    dataStrs (l.text ++ pieces.flatMap chars) =
      (dataStr l.text).toList ++ dataStrs (pieces.flatMap chars) := by
  have hl := dataStrs_of_line l.oneLine
  cases pieces
  case nil => simp [hl]
  case cons p pieces =>
    have ⟨hp, hs⟩ := List.isChain_cons_cons.mp h
    cases p
    case line => cases hp.left rfl
    case lineFeed =>
      exact (dataStrs_append_lineFeed l.text _).trans
        (hl ▸ congrArg _ (dataStrs_append_lineFeed [] _).symm)
    case carriageReturn =>
      have hr : dataStrs (l.text ++ ['\r']) = (dataStr l.text).toList :=
        (dataStrs_append_space (by decide)).trans hl
      rw [List.flatMap_cons, chars, List.singleton_append, dataStrs_carriageReturn hs]
      cases pieces
      case nil => simpa using hr
      case cons p pieces =>
        cases (List.isChain_cons_cons.mp hs).left.right rfl
        have ht := dataStrs_append_lineFeed (l.text ++ ['\r']) (pieces.flatMap chars)
        rw [hr, List.append_assoc] at ht
        exact ht.trans (congrArg _ (dataStrs_append_lineFeed [] _).symm)

theorem dataStrs_chars (h : Separated pieces) :
    dataStrs (pieces.flatMap chars) = (pieces.filterMap line?).filterMap (dataStr ·.text) := by
  induction pieces
  case nil => rfl
  case cons p pieces ih =>
    cases p
    case lineFeed       => exact (dataStrs_append_lineFeed [] _).trans (ih h.tail)
    case carriageReturn => exact (dataStrs_carriageReturn h).trans (ih h.tail)
    case line l =>
      rw [List.flatMap_cons, chars, dataStrs_line h, ih h.tail]
      change _ = (l :: pieces.filterMap line?).filterMap _
      cases hd : dataStr l.text <;> simp [hd]

end Piece

namespace Reconstruction

variable {loads : String → Option Json} {r : Reconstruction}

-- What becomes of a text that is loaded, and of such texts up to the first one that raises.
def readStr (loads : String → Option Json) (r : Reconstruction) (s : String) :
    Except Error Reconstruction :=
  match loads s with
  | some data => r.readData data
  | none      => .error .valueError

def readStrs (loads : String → Option Json) (r : Reconstruction) : List String → Reconstruction
  | []      => r
  | s :: ss =>
    match r.readStr loads s with
    | .ok r    => readStrs loads r ss
    | .error _ => r

theorem readLine_eq : r.readLine loads line =
    match dataStr line with
    | some s => r.readStr loads s
    | none   => .ok r := by
  simp only [readLine, dataStr]
  split_ifs <;> rfl

theorem readLines_eq_readStrs :
    r.readLines loads lines = r.readStrs loads (lines.filterMap dataStr) := by
  induction lines generalizing r
  case nil => rfl
  case cons line lines ih =>
    rw [readLines, readLine_eq]
    cases hd : dataStr line
    case none   => rw [List.filterMap_cons_none hd, ← ih]
    case some s =>
      rw [List.filterMap_cons_some hd, readStrs]
      cases hr : r.readStr loads s <;> simp only [hr, ih]

-- What a line of the stream adds if its chunk has nothing else.
def readAlone (loads : String → Option Json) (r : Reconstruction) (l : Line) : Reconstruction :=
  match r.readLine loads l.text with
  | .ok r    => r
  | .error _ => r

theorem readAlone_of_ok {l : Line} (h : r.readLine loads l.text = .ok r') :
    r.readAlone loads l = r' := by
  rw [readAlone, h]

end Reconstruction

-- The line is read without an exception.
def Line.Legible (loads : String → Option Json) (l : Line) : Prop :=
  ∀ r : Reconstruction, ∃ r', r.readLine loads l.text = .ok r'

namespace Reconstruction

variable {loads : String → Option Json} {r : Reconstruction} {lines : List Line}
  {pieces : List Piece}

-- Reading a chunk ends at a line that raises: this loses nothing if it is the last one.
theorem readStrs_lines (h : ∀ l ∈ lines.dropLast, Line.Legible loads l) :
    r.readStrs loads (lines.filterMap (dataStr ·.text)) = lines.foldl (readAlone loads) r := by
  induction lines generalizing r
  case nil => rfl
  case cons l lines ih =>
    have hn : lines = [] ∨ Line.Legible loads l ∧ ∀ l ∈ lines.dropLast, Line.Legible loads l := by
      cases lines
      case nil  => exact .inl rfl
      case cons => exact .inr (List.forall_mem_cons.mp h)
    have ht : ∀ l ∈ lines.dropLast, Line.Legible loads l := by
      cases hn
      case inl hn => simp [hn]
      case inr hn => exact hn.right
    rw [List.foldl_cons, readAlone, readLine_eq]
    cases hd : dataStr l.text
    case none => simpa only [List.filterMap_cons, hd] using ih ht
    case some s =>
      simp only [List.filterMap_cons, hd, readStrs]
      cases hr : r.readStr loads s
      case ok r' => exact ih ht
      case error =>
        cases hn
        case inl hn => simp [hn]
        case inr hn =>
          have ⟨r', hr'⟩ := hn.left r
          simp only [readLine_eq, hd, hr] at hr'
          contradiction

theorem readChunk_bytes (h : Piece.Separated pieces)
    (hl : ∀ l ∈ (pieces.filterMap Piece.line?).dropLast, Line.Legible loads l) :
    r.readChunk loads (Piece.bytes pieces) =
      (pieces.filterMap Piece.line?).foldl (readAlone loads) r := by
  have hs := Piece.dataStrs_chars h
  rw [← Piece.dataStrs_strip_chars h] at hs
  rw [readChunk, Piece.bytes, decode_encode, readLines_eq_readStrs, ← dataStrs, hs,
    readStrs_lines hl]

theorem foldl_readChunk_groups {groups : List (List Piece)}
    (h : ∀ group ∈ groups, Piece.Separated group)
    (hl : ∀ group ∈ groups, ∀ l ∈ (group.filterMap Piece.line?).dropLast, Line.Legible loads l) :
    (groups.map Piece.bytes).foldl (readChunk loads) r =
      (groups.flatten.filterMap Piece.line?).foldl (readAlone loads) r := by
  induction groups generalizing r
  case nil => rfl
  case cons group groups ih =>
    have ⟨hg, h⟩ := List.forall_mem_cons.mp h
    have ⟨hlg, hl⟩ := List.forall_mem_cons.mp hl
    rw [List.map_cons, List.foldl_cons, readChunk_bytes hg hlg, List.flatten_cons,
      List.filterMap_append, List.foldl_append, ih h hl]

-- A single byte never has the start of a line.
theorem readChunk_singleton (b : UInt8) : r.readChunk loads [b] = r := by
  have hl : (strip <| decode 0 [b]).length ≤ 1 :=
    (length_strip_le _).trans (length_decode_le 0 [b])
  have hs : dataStrs (strip <| decode 0 [b]) = [] := dataStrs_of_length_le hl
  rw [readChunk, readLines_eq_readStrs, ← dataStrs, hs, readStrs]

theorem foldl_readChunk_singletons (bytes : List UInt8) :
    (bytes.map ([·])).foldl (readChunk loads) r = r := by
  induction bytes
  case nil             => rfl
  case cons b bytes ih => rw [List.map_cons, List.foldl_cons, readChunk_singleton, ih]

end Reconstruction

-- The chunks are a way to cut the bytes of the events.
structure Splits (chunks : List (List UInt8)) (events : List Sse) : Prop where
  bytes    : chunks.flatten = Sse.bytes events
  nonempty : ∀ chunk ∈ chunks, chunk ≠ []

-- The chunks are only cut between lines and the ends of lines, and none goes on after a line that
-- raises.
def Uncut (loads : String → Option Json) (chunks : List (List UInt8)) (events : List Sse) : Prop :=
  ∃ groups : List (List Piece), chunks = groups.map Piece.bytes ∧
    groups.flatten = events.flatMap Sse.pieces ∧
    ∀ group ∈ groups, ∀ l ∈ (group.filterMap Piece.line?).dropLast, l.Legible loads

-- `full_text` and `usage_dict` after the last chunk.
def collected (loads : String → Option Json) (chunks : List (List UInt8)) : Reconstruction :=
  chunks.foldl (Reconstruction.readChunk loads) .empty

-- What the lines have that can be read.
def carried (loads : String → Option Json) (events : List Sse) : Reconstruction :=
  events.flatMap Sse.lines |>.foldl (Reconstruction.readAlone loads) .empty

section

variable {loads : String → Option Json} {events : List Sse}

theorem collected_eq_carried (h : Uncut loads chunks events) :
    collected loads chunks = carried loads events := by
  have ⟨groups, hc, hf, hl⟩ := h
  have hs : ∀ group ∈ groups, Piece.Separated group := by
    intro group hg
    have ⟨before, after, he⟩ := List.infix_of_mem_flatten hg
    have hp := Piece.separated_pieces events
    rw [← hf, ← he] at hp
    exact (List.isChain_append.mp (List.isChain_append.mp hp).left).right.left
  rw [collected, hc, Reconstruction.foldl_readChunk_groups hs hl, hf,
    Piece.filterMap_line?_pieces, carried]

theorem Piece.bytes_singleton_ne_nil (p : Piece) : Piece.bytes [p] ≠ [] := by
  cases p
  case line l =>
    have ⟨c, cs, hl, _⟩ := l.starts
    simp [bytes, chars, encode, hl, String.utf8EncodeChar_ne_nil]
  case carriageReturn => decide
  case lineFeed       => decide

-- The splitting that has each line, and what ends it, in chunks of their own.
def linewise (events : List Sse) : List (List UInt8) :=
  events.flatMap Sse.pieces |>.map fun p => Piece.bytes [p]

theorem splits_linewise (events : List Sse) : Splits (linewise events) events where
  bytes    := by
    rw [linewise, Sse.bytes]
    induction events.flatMap Sse.pieces
    case nil => rfl
    case cons p pieces ih =>
      rw [List.map_cons, List.flatten_cons, ih]
      simp [Piece.bytes, encode]
  nonempty := by
    intro chunk hc
    obtain ⟨p, _, rfl⟩ := List.mem_map.mp hc
    exact p.bytes_singleton_ne_nil

theorem uncut_linewise (loads : String → Option Json) (events : List Sse) :
    Uncut loads (linewise events) events := by
  refine ⟨(events.flatMap Sse.pieces).map ([·]), ?_, ?_, ?_⟩
  case refine_1 => rw [linewise, List.map_map]; rfl
  case refine_2 => rw [← List.flatMap_def, List.flatMap_singleton']
  case refine_3 =>
    intro group hg
    obtain ⟨p, _, rfl⟩ := List.mem_map.mp hg
    cases p <;> exact fun _ hl => absurd hl List.not_mem_nil

theorem splits_singletons (events : List Sse) : Splits ((Sse.bytes events).map ([·])) events where
  bytes    := by rw [← List.flatMap_def, List.flatMap_singleton']
  nonempty := by simp

theorem collected_singletons (events : List Sse) :
    collected loads ((Sse.bytes events).map ([·])) = .empty :=
  Reconstruction.foldl_readChunk_singletons _

end

-- If no line is cut, and none is left unread after one that raises, it does not matter how the
-- stream is cut. But no stream that has anything to read can be cut anywhere.
theorem collected_eq_of_uncut (env : Env) (events : List Sse) :
    (∀ chunks chunks', Splits chunks events → Splits chunks' events →
      Uncut env.loads chunks events → Uncut env.loads chunks' events →
      collected env.loads chunks = collected env.loads chunks' ∧
        ∀ (routed : Routed) (args args' : PostProcess.Arguments),
          .addTask args ∈ (streamGenerator env routed <| .ofChunks chunks).trace →
          .addTask args' ∈ (streamGenerator env routed <| .ofChunks chunks').trace →
          ∀ (intOf : Json.IntOf) (model : Model),
            PostProcess.bill intOf model args.markupRate args.litellmResponse =
              PostProcess.bill intOf model args'.markupRate args'.litellmResponse) ∧
      (carried env.loads events ≠ .empty → ∃ chunks chunks', Splits chunks events ∧
        Splits chunks' events ∧ collected env.loads chunks ≠ collected env.loads chunks') := by
  constructor
  case left =>
    intro chunks chunks' _ _ hu hu'
    have he : collected env.loads chunks = collected env.loads chunks' :=
      (collected_eq_carried hu).trans (collected_eq_carried hu').symm
    refine ⟨he, fun routed args args' ha ha' intOf model => ?_⟩
    rw [task_of_streamGenerator ha, task_of_streamGenerator ha', ← collected, he, collected]
  case right =>
    intro hc
    refine ⟨_, _, splits_linewise events, splits_singletons events, ?_⟩
    rw [collected_eq_carried (uncut_linewise env.loads events), collected_singletons]
    exact hc

def tokenLine : Line where
  text    := "data: ".toList ++ (tokenEvent false).toList
  oneLine := by decide
  starts  := ⟨'d', _, rfl, by decide⟩

def tokenSse : Sse where
  lines := [tokenLine]
  crlf  := false

-- The stream of an event, cut inside of its line.
def cutChunks : List (List UInt8) :=
  [(Sse.bytes [tokenSse]).take 10, (Sse.bytes [tokenSse]).drop 10]

theorem splits_tokenSse : Splits [Sse.bytes [tokenSse]] [tokenSse] :=
  ⟨by simp, by decide +kernel⟩

theorem not_collected_eq_of_cut :
    ¬∀ (env : Env) (events : List Sse) (chunks chunks' : List (List UInt8)),
      Splits chunks events → Splits chunks' events →
      collected env.loads chunks = collected env.loads chunks' := by
  intro h
  have hs : Splits cutChunks [tokenSse] := ⟨by decide +kernel, by decide +kernel⟩
  have he := h (.streaming false) _ _ _ hs splits_tokenSse
  have ht : (collected (Env.streaming false).loads cutChunks).usageDict.truthy =
      (collected (Env.streaming false).loads [Sse.bytes [tokenSse]]).usageDict.truthy :=
    congrArg (·.usageDict.truthy) he
  exact absurd ht (by decide +kernel)

-- The same stream as one chunk, and cut between its line feeds.
theorem collected_eq_of_uncut_tokenSse :
    let loads := (Env.streaming false).loads
    let chunks := [Piece.bytes [.line tokenLine, .lineFeed], Piece.bytes [.lineFeed]]
    collected loads (linewise [tokenSse]) = collected loads chunks ∧
      (collected loads chunks).usageDict.truthy ∧
      ∃ chunks chunks', Splits chunks [tokenSse] ∧ Splits chunks' [tokenSse] ∧
        collected loads chunks ≠ collected loads chunks' := by
  intro loads chunks
  have hs : Splits chunks [tokenSse] := ⟨by decide +kernel, by decide +kernel⟩
  have hu : Uncut loads chunks [tokenSse] := by
    refine ⟨[[.line tokenLine, .lineFeed], [.lineFeed]], rfl, rfl, ?_⟩
    intro group hg l hl
    simp only [List.mem_cons, List.not_mem_nil, or_false] at hg
    cases hg <;> subst group <;> exact absurd hl List.not_mem_nil
  have ht : (collected loads chunks).usageDict.truthy := by decide +kernel
  have hc : carried loads [tokenSse] ≠ .empty := by
    intro he
    rw [collected_eq_carried hu, he] at ht
    contradiction
  have h := collected_eq_of_uncut (.streaming false) [tokenSse]
  exact ⟨(h.left _ _ (splits_linewise [tokenSse]) hs (uncut_linewise loads [tokenSse]) hu).left, ht,
    h.right hc⟩

end Gateway
