import CommentMarkup.Proofs.Inline.Lexeme
import CommentMarkup.Proofs.Inline.Wording
import Mathlib.Data.List.Chain

/-!
# Paired emphasis

Pairing runs of delimiters loses nothing: written out with the delimiters that make them, the spans
are the pieces that they come from, but for underscores that became asterisks. No emphasis is empty
and no texts are neighbours: `Pairable.emphasized`. No run gives delimiters that it does not have:
`pair?_eq_some`.
-/

namespace CommentMarkup

/-! ### Written spans -/

def enclosed (mark : Char) (n : Nat) (inner : Text) : Text :=
  List.replicate n mark ++ (inner ++ List.replicate n mark)

mutual

/-- Text as it stands, and emphasis with the delimiters that make it. Other spans are left out. -/
def Inline.written : Inline → Text
  | .text t => t
  | .emphasis children => enclosed '*' 1 (written children)
  | .strong children => enclosed '*' 2 (written children)
  | .strikethrough children => enclosed '~' 2 (written children)
  | _ => []

def written : List Inline → Text
  | [] => []
  | span :: spans => span.written ++ written spans

end

def pieceWritten (pieces : List Piece) : Text := pieces.flatMap (Piece.shown Inline.written)

def starred (t : Text) : Text := t.map fun c => if c = '_' then '*' else c

theorem starred_append (a b : Text) : starred (a ++ b) = starred a ++ starred b := List.map_append

theorem written_eq_flatMap (spans : List Inline) : written spans = spans.flatMap Inline.written := by
  induction spans with
  | nil => rfl
  | cons span spans ih => rw [written, ih, List.flatMap_cons]

theorem written_flatten (pieces : List Piece) :
    written (flatten pieces) = pieceWritten pieces := by
  rw [written_eq_flatMap, flatMap_flatten fun _ => by rw [Inline.written], pieceWritten]

theorem pieceWritten_append (a b : List Piece) :
    pieceWritten (a ++ b) = pieceWritten a ++ pieceWritten b := List.flatMap_append

theorem pieceWritten_span (span : Inline) (pieces : List Piece) :
    pieceWritten (.span span :: pieces) = span.written ++ pieceWritten pieces := rfl

theorem pieceWritten_run (run : Run) (pieces : List Piece) :
    pieceWritten (.run run :: pieces) = run.wording ++ pieceWritten pieces := rfl

/-! ### Tidy spans -/

def Inline.isText : Inline → Bool
  | .text _ => true
  | _ => false

mutual

def Inline.isTidy : Inline → Bool
  | .text t => !t.isEmpty
  | .emphasis children | .strong children | .strikethrough children =>
    !children.isEmpty && isTidy children
  | _ => false

/-- Each span is tidy, and no two texts are neighbours. -/
def isTidy : List Inline → Bool
  | [] => true
  | span :: spans =>
    span.isTidy && !(span.isText && spans.head?.any Inline.isText) && isTidy spans

end

theorem isTidy_cons {span : Inline} {spans : List Inline} :
    isTidy (span :: spans) ↔
      span.isTidy ∧ (span.isText → ¬ spans.head?.any Inline.isText) ∧ isTidy spans := by
  rw [isTidy, Bool.and_eq_true, Bool.and_eq_true, Bool.not_eq_true', Bool.and_eq_false_imp,
    and_assoc]
  simp only [Bool.not_eq_true]

theorem isTidy_consText {t : Text} (filled : t ≠ []) {spans : List Inline} (tidy : isTidy spans) :
    isTidy (consText t spans) := by
  have here {u : Text} (filled : u ≠ []) : Inline.isTidy (.text u) := by
    rw [Inline.isTidy, Bool.not_eq_true', List.isEmpty_eq_false_iff]
    exact filled
  unfold consText
  split
  · obtain ⟨_, apart, rest⟩ := isTidy_cons.mp tidy
    exact isTidy_cons.mpr ⟨here (List.append_ne_nil_of_left_ne_nil filled _), fun _ => apart rfl, rest⟩
  · rename_i other
    refine isTidy_cons.mpr ⟨here filled, fun _ => ?_, tidy⟩
    cases spans with
    | nil => simp
    | cons span spans =>
      cases span with
      | text u => exact absurd rfl (other u spans)
      | _ => simp [Inline.isText]

theorem isTidy_flatten {pieces : List Piece} (tidy : ∀ span, .span span ∈ pieces → span.isTidy) :
    isTidy (flatten pieces) := by
  fun_induction flatten pieces with
  | case1 => rfl
  | case2 run pieces _ ih => exact ih fun span member => tidy span (List.mem_cons_of_mem _ member)
  | case3 run pieces some ih =>
    refine isTidy_consText ?_ (ih fun span member => tidy span (List.mem_cons_of_mem _ member))
    rwa [ne_eq, List.replicate_eq_nil_iff]
  | case4 t pieces ih =>
    refine isTidy_consText ?_ (ih fun span member => tidy span (List.mem_cons_of_mem _ member))
    simpa [Inline.isTidy] using tidy (.text t) List.mem_cons_self
  | case5 span pieces other ih =>
    refine isTidy_cons.mpr ⟨tidy span List.mem_cons_self, fun text => ?_,
      ih fun span member => tidy span (List.mem_cons_of_mem _ member)⟩
    cases span with
    | text t => exact absurd rfl (other t)
    | _ => cases text

/-! ### Traces of pieces -/

/-- What is left of a piece: nothing of a run that is used up, otherwise the mark of a run, and
`none` for a span. -/
def Piece.trace : Piece → List (Option Char)
  | .span _ => [none]
  | .run r => if r.count = 0 then [] else [some r.mark]

def trace (pieces : List Piece) : List (Option Char) := pieces.flatMap Piece.trace

def Spaced (pieces : List Piece) : Prop := (trace pieces).IsChain fun a b => a = none ∨ a ≠ b

theorem trace_append (a b : List Piece) : trace (a ++ b) = trace a ++ trace b :=
  List.flatMap_append

theorem trace_cons (piece : Piece) (pieces : List Piece) :
    trace (piece :: pieces) = piece.trace ++ trace pieces := rfl

theorem trace_run {run : Run} (left : 0 < run.count) : Piece.trace (.run run) = [some run.mark] :=
  if_neg (Nat.ne_of_gt left)

theorem trace_use_cases {run : Run} (left : 0 < run.count) (used : Nat) :
    Piece.trace (.run (run.use used)) = [] ∨
      Piece.trace (.run (run.use used)) = Piece.trace (.run run) := by
  rw [trace_run left, Piece.trace]
  split
  · exact .inl rfl
  · exact .inr rfl

theorem trace_eq_nil {pieces : List Piece} (none : flatten pieces = []) : trace pieces = [] := by
  have filled (t : Text) (spans : List Inline) : consText t spans ≠ [] := by
    unfold consText
    split <;> simp
  fun_induction flatten pieces with
  | case1 => rfl
  | case2 run pieces used ih => rw [trace_cons, ih none, Piece.trace, if_pos used, List.append_nil]
  | case3 | case4 => exact absurd none (filled _ _)
  | case5 => cases none

/-- There are spans to enclose between two runs of the same mark. -/
theorem Spaced.flatten_ne_nil {before inner rest : List Piece} {opener closer : Run}
    (spaced : Spaced (before ++ .run opener :: (inner ++ .run closer :: rest)))
    (same : opener.mark = closer.mark) (opening : 0 < opener.count) (closing : 0 < closer.count) :
    flatten inner ≠ [] := by
  intro none
  rw [Spaced, trace_append, trace_cons, trace_append, trace_cons, trace_run opening,
    trace_run closing, trace_eq_nil none, List.nil_append] at spaced
  have apart := (List.isChain_append.mp spaced).2.1
  simp [same] at apart

/-- Runs stay spaced when two of them are used for a span that takes the place of what stands between
them. -/
theorem Spaced.use {before inner rest : List Piece} {opener closer : Run}
    (spaced : Spaced (before ++ .run opener :: (inner ++ .run closer :: rest)))
    (opening : 0 < opener.count) (closing : 0 < closer.count) (used : Nat) (span : Inline) :
    Spaced (before ++ .run (opener.use used) :: .span span :: .run (closer.use used) :: rest) := by
  simp only [Spaced, trace_append, trace_cons] at spaced ⊢
  -- the parts before and after the span are parts of what was there
  have front : (trace before ++ Piece.trace (.run (opener.use used))).IsChain
      fun a b => a = none ∨ a ≠ b := by
    refine spaced.prefix (List.prefix_append_right_inj _ |>.mpr ?_)
    rcases trace_use_cases opening used with none | same
    · rw [none]
      exact List.nil_prefix
    · rw [same]
      exact List.prefix_append _ _
  have back : (Piece.trace (.run (closer.use used)) ++ trace rest).IsChain
      fun a b => a = none ∨ a ≠ b := by
    have tail := spaced.suffix ((List.suffix_append _ _).trans
      ((List.suffix_append _ _).trans (List.suffix_append _ _)))
    rcases trace_use_cases closing used with none | same
    · rw [none]
      exact tail.suffix (List.suffix_append _ _)
    · rwa [same]
  rw [← List.append_assoc]
  refine List.isChain_append.mpr ⟨front, List.isChain_cons.mpr ⟨fun _ _ => .inl rfl, back⟩, ?_⟩
  intro a _ b first
  cases first
  exact em (a = none)

/-! ### Checked subtraction -/

/-- `pair`, which fails when a run has to give more delimiters than it has. -/
def pair? (done : List Piece) : List Piece → Option (List Piece)
  | [] => some done.reverse
  | .span span :: rest => pair? (.span span :: done) rest
  | .run run :: rest =>
    if _h : run.canClose then
      match findOpener? run.mark [] done with
      | none => pair? (.run run :: done) rest
      | some (inner, opener, before) =>
        let used := usedCount run.mark opener.count run.count
        if used ≤ opener.count ∧ used ≤ run.count then
          let span := emphasisSpan run.mark used (flatten inner)
          pair? (.span span :: .run (opener.use used) :: before) (.run (run.use used) :: rest)
        else none
    else pair? (.run run :: done) rest
termination_by rest => weight rest
decreasing_by
  all_goals simp only [weight]
  · omega
  · omega
  · have := Run.canClose_pos _h
    have := usedCount_pos run.mark opener.count run.count
    simp only [Run.use]
    omega
  · omega

theorem findOpener_canOpen {mark : Char} {inner done between before : List Piece} {opener : Run}
    (h : findOpener? mark inner done = some (between, opener, before)) : opener.canOpen mark := by
  induction done generalizing inner with
  | nil => cases h
  | cons piece done ih =>
    cases piece with
    | span span => exact ih h
    | run run =>
      rw [findOpener?] at h
      split at h
      · rename_i opens
        cases h
        exact opens
      · exact ih h

/-- What an opening and a closing run have in common, and the delimiters that they use. -/
theorem usedCount_le {opener closer : Run} (opens : opener.canOpen closer.mark)
    (closes : closer.canClose) :
    opener.mark = closer.mark ∧
      usedCount closer.mark opener.count closer.count ≤ opener.count ∧
      usedCount closer.mark opener.count closer.count ≤ closer.count := by
  rw [Run.canOpen, Bool.and_eq_true, Bool.and_eq_true, beq_iff_eq, decide_eq_true_eq] at opens
  rw [Run.canClose, Bool.and_eq_true, decide_eq_true_eq] at closes
  obtain ⟨⟨same, _⟩, opening⟩ := opens
  obtain ⟨_, closing⟩ := closes
  refine ⟨same, ?_⟩
  unfold leastCount at opening closing
  unfold usedCount
  by_cases tilde : closer.mark = '~'
  · rw [if_pos (.inl tilde)]
    rw [if_pos tilde] at opening closing
    exact ⟨opening, closing⟩
  · rw [if_neg tilde] at opening closing
    split
    · rename_i both
      exact both.resolve_left tilde
    · exact ⟨opening, closing⟩

/-- No run has to give more delimiters than it has. -/
theorem pair?_eq_some (done rest : List Piece) : pair? done rest = some (pair done rest) := by
  fun_induction pair done rest with
  | case1 done => rw [pair?]
  | case2 done span rest ih => rw [pair?, ih]
  | case3 done run rest closes none ih =>
    rw [pair?, dif_pos closes, none]
    exact ih
  | case4 done run rest closes inner opener before found used span ih =>
    have enough := (usedCount_le (findOpener_canOpen found) closes).2
    rw [pair?, dif_pos closes, found]
    dsimp only
    rw [if_pos enough]
    exact ih
  | case5 done run rest closes ih =>
    rw [pair?, dif_neg closes]
    exact ih

/-! ### Pairing -/

structure Pairable (pieces : List Piece) : Prop where
  spaced : Spaced pieces
  tidy : ∀ span, .span span ∈ pieces → span.isTidy
  marks : ∀ run, .run run ∈ pieces → IsDelimiter run.mark

theorem isTidy_emphasisSpan (mark : Char) (used : Nat) {children : List Inline}
    (filled : children ≠ []) (tidy : isTidy children) :
    (emphasisSpan mark used children).isTidy := by
  have inside : (!children.isEmpty && isTidy children) = true := by
    rw [Bool.and_eq_true, Bool.not_eq_true', List.isEmpty_eq_false_iff]
    exact ⟨filled, tidy⟩
  unfold emphasisSpan
  split
  · rwa [Inline.isTidy]
  · split <;> rwa [Inline.isTidy]

theorem written_emphasisSpan {mark : Char} (delimiter : IsDelimiter mark) (opening closing : Nat)
    (children : List Inline) :
    starred (emphasisSpan mark (usedCount mark opening closing) children).written =
      starred (enclosed mark (usedCount mark opening closing) (written children)) := by
  have star (n : Nat) (inner : Text) :
      starred (enclosed '*' n inner) = starred (enclosed '_' n inner) := by
    simp [starred, enclosed]
  by_cases both : 2 ≤ opening ∧ 2 ≤ closing
  · rcases delimiter with rfl | rfl | rfl <;>
      simp [emphasisSpan, usedCount, both, Inline.written, star]
  · rcases delimiter with rfl | rfl | rfl <;>
      simp [emphasisSpan, usedCount, both, Inline.written, star]

theorem wording_use {run : Run} {used : Nat} (enough : used ≤ run.count) :
    run.wording = (run.use used).wording ++ List.replicate used run.mark ∧
      run.wording = List.replicate used run.mark ++ (run.use used).wording := by
  simp only [Run.wording, Run.use, List.replicate_append_replicate]
  rw [Nat.sub_add_cancel enough, Nat.add_sub_cancel' enough]
  exact ⟨rfl, rfl⟩

section Use

variable {before inner rest : List Piece} {opener closer : Run}
  (pairable : Pairable (before ++ .run opener :: (inner ++ .run closer :: rest)))
  (opens : opener.canOpen closer.mark) (closes : closer.canClose)

include pairable opens closes

/-- A closing run and its opener are used for a span of what stands between them. -/
theorem Pairable.use :
    let used := usedCount closer.mark opener.count closer.count
    Pairable (before ++ .run (opener.use used) ::
      .span (emphasisSpan closer.mark used (flatten inner)) :: .run (closer.use used) :: rest) := by
  intro used
  obtain ⟨same, opening, closing⟩ := usedCount_le opens closes
  have positive := usedCount_pos closer.mark opener.count closer.count
  have filled := pairable.spaced.flatten_ne_nil same (by omega) (by omega)
  refine ⟨pairable.spaced.use (by omega) (by omega) used _, fun span member => ?_,
    fun run member => ?_⟩
  · have inside : isTidy (flatten inner) :=
      isTidy_flatten fun span member => pairable.tidy span (by simp [member])
    have listed : .span span ∈ before ∨
        span = emphasisSpan closer.mark used (flatten inner) ∨ .span span ∈ rest := by
      simpa using member
    rcases listed with early | rfl | late
    · exact pairable.tidy span (by simp [early])
    · exact isTidy_emphasisSpan closer.mark used filled inside
    · exact pairable.tidy span (by simp [late])
  · have listed : .run run ∈ before ∨ run = opener.use used ∨ run = closer.use used ∨
        .run run ∈ rest := by
      simpa using member
    rcases listed with early | rfl | rfl | late
    · exact pairable.marks run (by simp [early])
    · exact pairable.marks opener (by simp)
    · exact pairable.marks closer (by simp)
    · exact pairable.marks run (by simp [late])

theorem Pairable.written_use :
    let used := usedCount closer.mark opener.count closer.count
    starred (pieceWritten (before ++ .run (opener.use used) ::
      .span (emphasisSpan closer.mark used (flatten inner)) :: .run (closer.use used) :: rest)) =
    starred (pieceWritten (before ++ .run opener :: (inner ++ .run closer :: rest))) := by
  intro used
  obtain ⟨same, opening, closing⟩ := usedCount_le opens closes
  have delimiter := pairable.marks closer (by simp)
  simp only [pieceWritten_append, pieceWritten_run, pieceWritten_span, starred_append,
    (wording_use opening).1, (wording_use closing).2, same]
  rw [written_emphasisSpan delimiter, written_flatten, enclosed]
  simp only [starred_append, List.append_assoc]
  rfl

end Use

/-- Pairing keeps pieces as they can be paired, and what they are written as. -/
theorem Pairable.paired {done rest : List Piece} (pairable : Pairable (done.reverse ++ rest)) :
    Pairable (pair done rest) ∧
      starred (pieceWritten (pair done rest)) =
        starred (pieceWritten (done.reverse ++ rest)) := by
  fun_induction pair done rest with
  | case1 done =>
    rw [List.append_nil] at pairable ⊢
    exact ⟨pairable, rfl⟩
  | case2 done span rest ih => simpa using ih (by simpa using pairable)
  | case3 done run rest _ _ ih | case5 done run rest _ ih =>
    simpa using ih (by simpa using pairable)
  | case4 done run rest closes inner opener before found used span ih =>
    have parts := findOpener_split found
    rw [List.append_nil] at parts
    rw [parts, List.append_assoc, List.cons_append] at pairable ⊢
    have opens := findOpener_canOpen found
    have step : (Piece.span span :: .run (opener.use used) :: before).reverse ++
        .run (run.use used) :: rest =
          before.reverse ++ .run (opener.use used) :: .span span :: .run (run.use used) :: rest := by
      simp
    rw [step] at ih
    obtain ⟨after, same⟩ := ih (pairable.use opens closes)
    exact ⟨after, same.trans (pairable.written_use opens closes)⟩

theorem Pairable.emphasized {pieces : List Piece} (pairable : Pairable pieces) :
    isTidy (emphasize pieces) ∧
      starred (written (emphasize pieces)) = starred (pieceWritten pieces) := by
  have start : Pairable ([].reverse ++ pieces) := pairable
  obtain ⟨after, same⟩ := start.paired
  rw [emphasize, written_flatten]
  exact ⟨isTidy_flatten after.tidy, same⟩

end CommentMarkup
