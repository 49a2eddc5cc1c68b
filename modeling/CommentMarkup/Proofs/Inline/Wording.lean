import CommentMarkup.Proofs.Inline.Inventory
import CommentMarkup.Proofs.Text.Within

/-!
# Wording of spans

What spans show, without their markup: text as it stands, and what else they hold between spaces.
Strings that come from elsewhere can be left out. Pairing emphasis and marking abbreviations adds
nothing to a measure of the wording.
-/

namespace CommentMarkup

def kept (given : Text → Bool) (t : Text) : Text := if given t then [] else t

def Run.wording (run : Run) : Text := List.replicate run.count run.mark

section Shown

variable (f : Inline → Text)

def Piece.shown : Piece → Text
  | .span s => f s
  | .run r => r.wording

variable {f} (text : ∀ t, f (.text t) = t)

include text

theorem flatMap_consText (t : Text) (spans : List Inline) :
    (consText t spans).flatMap f = t ++ spans.flatMap f := by
  unfold consText
  split
  · rw [List.flatMap_cons, List.flatMap_cons, text, text, List.append_assoc]
  · rw [List.flatMap_cons, text]

/-- Joining text and runs keeps what is shown, whatever that is for other spans. -/
theorem flatMap_flatten (pieces : List Piece) :
    (flatten pieces).flatMap f = pieces.flatMap (Piece.shown f) := by
  fun_induction flatten pieces with
  | case1 => rfl
  | case2 run pieces none ih =>
    rw [ih, List.flatMap_cons, Piece.shown, Run.wording, none, List.replicate_zero, List.nil_append]
  | case3 run pieces _ ih =>
    rw [flatMap_consText text, ih, List.flatMap_cons, Piece.shown, Run.wording]
  | case4 t pieces ih => rw [flatMap_consText text, ih, List.flatMap_cons, Piece.shown, text]
  | case5 span pieces _ ih => rw [List.flatMap_cons, ih, List.flatMap_cons, Piece.shown]

end Shown

def Target.kept (given : Text → Bool) (target : Target) : List Text :=
  [CommentMarkup.kept given target.url, CommentMarkup.kept given (target.title.getD [])]

section Wording

variable (given : Text → Bool)

mutual

/-- The text of a span, and its other strings unless they are left out. Mail addresses and the
alternative texts of images are no part of it. -/
def Inline.wording : Inline → Text
  | .text t | .charRef t | .rawHtml t => t
  | .emphasis children | .strong children | .strikethrough children => spaced [wording children]
  | .code t | .autolink t false => spaced [t]
  | .lineBreak | .footnoteRef .. | .autolink _ true => spaced []
  | .link target children => spaced (wording children :: target.kept given)
  | .image target _ => spaced (target.kept given)
  | .abbreviation term expansion => spaced [term, kept given expansion]

def wording : List Inline → Text
  | [] => []
  | span :: spans => span.wording ++ wording spans

end

def Piece.wording : Piece → Text
  | .span s => s.wording given
  | .run r => r.wording

def pieceWording (pieces : List Piece) : Text := pieces.flatMap (Piece.wording given)

variable {given}

theorem wording_append (a b : List Inline) :
    wording given (a ++ b) = wording given a ++ wording given b := by
  induction a with
  | nil => rfl
  | cons span a ih => rw [List.cons_append, wording, wording, ih, List.append_assoc]

theorem wording_singleton (span : Inline) : wording given [span] = span.wording given := by
  rw [wording, wording, List.append_nil]

theorem pieceWording_cons (piece : Piece) (pieces : List Piece) :
    pieceWording given (piece :: pieces) = piece.wording given ++ pieceWording given pieces := rfl

theorem pieceWording_append (a b : List Piece) :
    pieceWording given (a ++ b) = pieceWording given a ++ pieceWording given b :=
  List.flatMap_append

/-! ### Emphasis -/

theorem wording_eq_flatMap (spans : List Inline) :
    wording given spans = spans.flatMap (Inline.wording given) := by
  induction spans with
  | nil => rfl
  | cons span spans ih => rw [wording, ih, List.flatMap_cons]

theorem wording_flatten (pieces : List Piece) :
    wording given (flatten pieces) = pieceWording given pieces := by
  have same : Piece.shown (Inline.wording given) = Piece.wording given := by
    funext piece
    cases piece <;> rfl
  rw [wording_eq_flatMap, flatMap_flatten fun _ => by rw [Inline.wording], same, pieceWording]

theorem wording_emphasisSpan (mark : Char) (used : Nat) (children : List Inline) :
    (emphasisSpan mark used children).wording given = spaced [wording given children] := by
  unfold emphasisSpan
  split
  · rw [Inline.wording]
  · split <;> rw [Inline.wording]

section Measure

variable {μ : Text → Nat} (measure : InkMeasure μ)

include measure

/-- A span takes the place of its children and of the delimiters that it uses. -/
theorem within_used (opener closer : Run) (used : Nat) (inner : Text) :
    Within μ 0
      ((opener.use used).wording ++
        (spaced [inner] ++ (closer.use used).wording))
      (opener.wording ++ (inner ++ closer.wording)) := by
  have split (run : Run) : ∃ part,
      run.wording = (run.use used).wording ++ part ∧
      run.wording = part ++ (run.use used).wording := by
    refine ⟨List.replicate (run.count - (run.count - used)) run.mark, ?_⟩
    simp only [Run.wording, Run.use, List.replicate_append_replicate]
    constructor <;>
    · congr 1
      omega
  obtain ⟨front, opening, _⟩ := split opener
  obtain ⟨back, _, closing⟩ := split closer
  have span : Within μ 0 (spaced [inner]) (front ++ inner ++ back) := by
    refine .spaced measure ?_
    simpa [sumOver] using measure.le_of_infix (List.infix_append front inner back)
  have whole := (Within.refl ((opener.use used).wording)).append
    (span.append (Within.refl ((closer.use used).wording)))
  rw [opening, closing]
  simpa only [List.append_assoc] using whole

theorem within_pair (done rest : List Piece) :
    Within μ 0 (pieceWording given (pair done rest))
      (pieceWording given (done.reverse ++ rest)) := by
  fun_induction pair done rest with
  | case1 done =>
    rw [List.append_nil]
    exact .refl _
  | case2 done span rest ih => simpa using ih
  | case3 done run rest _ _ ih | case5 done run rest _ ih => simpa using ih
  | case4 done run rest _ inner opener before found used span ih =>
    have parts := congrArg (pieceWording given) (findOpener_split found)
    have here := (Within.refl (pieceWording given before.reverse)).append
      ((within_used measure opener run used (pieceWording given inner)).append
        (Within.refl (pieceWording given rest)))
    refine ih.trans (k := 0) ?_
    simp only [List.append_nil, pieceWording_append, pieceWording_cons] at parts
    simpa [pieceWording_append, pieceWording_cons, Piece.wording, span, wording_emphasisSpan,
      wording_flatten, parts] using here

theorem within_emphasize (given : Text → Bool) (pieces : List Piece) :
    Within μ 0 (wording given (emphasize pieces)) (pieceWording given pieces) := by
  rw [emphasize, wording_flatten]
  exact within_pair measure [] pieces

end Measure

/-! ### Abbreviations -/

def Successive (terms : List (Text × Text)) (pos : Nat) : List Occurrence → Prop
  | [] => True
  | o :: os =>
    pos ≤ o.start ∧ o.start ≤ o.stop ∧ (∃ term, (term, o.expansion) ∈ terms) ∧
      Successive terms o.stop os

theorem occurrencesFrom_successive (terms : List (Text × Text)) (prev : Option Char)
    {pos from' : Nat} (le : pos ≤ from') (t : Text) : Successive terms pos (occurrencesFrom terms prev from' t) := by
  fun_induction occurrencesFrom terms prev from' t generalizing pos with
  | case1 => trivial
  | case2 prev from' c cs _ ih => exact ih (by omega)
  | case3 prev from' c cs term expansion found =>
    rename_i ih
    have listed : (term, expansion) ∈ terms := List.mem_of_find?_eq_some found
    exact ⟨le, Nat.le_add_right _ _, ⟨term, listed⟩, ih (Nat.le_refl _)⟩
  | case4 =>
    rename_i ih
    exact ih (by omega)

theorem occurrencesFrom_nil (prev : Option Char) (pos : Nat) (t : Text) :
    occurrencesFrom [] prev pos t = [] := by
  induction t generalizing prev pos with
  | nil => rw [occurrencesFrom]
  | cons c t ih => rw [occurrencesFrom, termAt?, List.find?_nil, ih]

theorem wording_textSpan (t : Text) : wording given (textSpan t) = t := by
  unfold textSpan
  split
  · rename_i empty
    exact (List.isEmpty_iff.mp empty).symm
  · rw [wording_singleton, Inline.wording]

theorem take_drop_append (t : Text) {i j : Nat} (le : i ≤ j) :
    (t.take j).drop i ++ t.drop j = t.drop i := by
  obtain ⟨k, rfl⟩ := Nat.exists_eq_add_of_le le
  rw [List.drop_take, Nat.add_sub_cancel_left, ← List.drop_drop, List.take_append_drop]

section Terms

variable {μ : Text → Nat} (measure : InkMeasure μ) {terms : List (Text × Text)}
  (elsewhere : ∀ entry ∈ terms, given entry.2)

include measure elsewhere

theorem within_markOccurrences (t : Text) {pos : Nat} {found : List Occurrence}
    (successive : Successive terms pos found) :
    Within μ 0 (wording given (markOccurrences t pos found)) (t.drop pos) := by
  induction found generalizing pos with
  | nil =>
    rw [markOccurrences, wording_textSpan]
    exact .refl _
  | cons o found ih =>
    obtain ⟨start, stop, ⟨term, listed⟩, later⟩ := successive
    have parts : t.drop pos = (t.take o.start).drop pos ++
        ((t.take o.stop).drop o.start ++ t.drop o.stop) := by
      rw [take_drop_append t stop, take_drop_append t start]
    have term' : Within μ 0 (spaced [(t.take o.stop).drop o.start, kept given o.expansion])
        ((t.take o.stop).drop o.start) := by
      refine .spaced measure ?_
      rw [kept, if_pos (elsewhere _ listed)]
      simp [sumOver, measure.nil]
    rw [markOccurrences, wording_append, wording_textSpan, wording, Inline.wording, parts]
    exact (Within.refl _).append (term'.append (ih later))

omit measure elsewhere

mutual

theorem Inline.within_expand (measure : InkMeasure μ) (elsewhere : ∀ entry ∈ terms, given entry.2)
    (span : Inline) :
    Within μ 0 (wording given (span.expand terms)) (span.wording given) := by
  cases span with
  | text t =>
    exact within_markOccurrences measure elsewhere t
      (occurrencesFrom_successive terms none (Nat.le_refl 0) t)
  | emphasis children | strong children | strikethrough children | link target children =>
    have inner := (within_expandAbbreviations measure elsewhere children).le
    rw [Inline.expand, wording_singleton, Inline.wording, Inline.wording]
    refine .spaced measure ?_
    rw [spaced_measure measure]
    simp only [sumOver]
    omega
  | _ => exact .of_eq (wording_singleton _)

theorem within_expandAbbreviations (measure : InkMeasure μ)
    (elsewhere : ∀ entry ∈ terms, given entry.2) (spans : List Inline) :
    Within μ 0 (wording given (expandAbbreviations terms spans)) (wording given spans) := by
  cases spans with
  | nil => exact .refl _
  | cons span spans =>
    rw [expandAbbreviations, wording_append, wording]
    exact (Inline.within_expand measure elsewhere span).append
      (within_expandAbbreviations measure elsewhere spans)

end

end Terms

end Wording

end CommentMarkup
