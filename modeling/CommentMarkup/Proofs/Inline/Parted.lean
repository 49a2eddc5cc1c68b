import CommentMarkup.Proofs.Inline.Outcome
import CommentMarkup.Proofs.Inline.Paired

/-!
# Texts apart

No two texts are neighbours in what reading makes, neither among the spans nor inside one of them, so
that what a phrase spells stands in a single text: `readInline_parted`.
-/

namespace CommentMarkup

def Apart (spans : List Inline) : Prop := spans.IsChain fun a b => a.isText → ¬ b.isText

def Inline.children : Inline → List Inline
  | .emphasis children | .strong children | .strikethrough children | .link _ children => children
  | _ => []

def Inline.IsParted (span : Inline) : Prop := ∀ inner ∈ span.flow, Apart inner.children

structure Parted (spans : List Inline) : Prop where
  apart : Apart spans
  inside : ∀ inner ∈ spanFlow spans, Apart inner.children

theorem apart_nil : Apart [] := .nil

theorem isParted_of_alone {span : Inline} (alone : span.flow = [span]) (empty : span.children = []) :
    span.IsParted := by
  intro inner member
  rw [alone] at member
  rw [List.mem_singleton.mp member, empty]
  exact apart_nil

theorem isParted_enclosing {span : Inline} (flow : span.flow = span :: spanFlow span.children) :
    span.IsParted ↔ Parted span.children := by
  rw [Inline.IsParted, flow, List.forall_mem_cons]
  exact ⟨fun ⟨apart, inside⟩ => ⟨apart, inside⟩, fun ⟨apart, inside⟩ => ⟨apart, inside⟩⟩

theorem parted_iff {spans : List Inline} :
    Parted spans ↔ Apart spans ∧ ∀ span ∈ spans, span.IsParted := by
  have inside : (∀ inner ∈ spanFlow spans, Apart inner.children) ↔
      ∀ span ∈ spans, span.IsParted := by
    induction spans with
    | nil => simp [spanFlow]
    | cons span spans ih =>
      rw [spanFlow, List.forall_mem_append, ih, List.forall_mem_cons, Inline.IsParted]
  rw [← inside]
  exact ⟨fun ⟨apart, inside⟩ => ⟨apart, inside⟩, fun ⟨apart, inside⟩ => ⟨apart, inside⟩⟩

/-! ### Emphasis -/

theorem apart_consText (t : Text) {spans : List Inline} (apart : Apart spans) :
    Apart (consText t spans) := by
  unfold consText
  split
  · exact List.isChain_cons.mpr (List.isChain_cons.mp apart)
  · rename_i other
    refine List.isChain_cons.mpr ⟨fun span first text isText => ?_, apart⟩
    obtain ⟨rest, rfl⟩ := List.head?_eq_some_iff.mp first
    cases span with
    | text u => exact other u rest rfl
    | _ => cases isText

theorem flatten_apart (pieces : List Piece) : Apart (flatten pieces) := by
  fun_induction flatten pieces with
  | case1 => exact apart_nil
  | case2 run pieces _ ih => exact ih
  | case3 run pieces _ ih => exact apart_consText _ ih
  | case4 t pieces ih => exact apart_consText t ih
  | case5 span pieces other ih =>
    refine List.isChain_cons.mpr ⟨fun _ _ text => ?_, ih⟩
    cases span with
    | text t => exact absurd rfl (other t)
    | _ => cases text

theorem isParted_text (t : Text) : Inline.IsParted (.text t) := isParted_of_alone rfl rfl

theorem flatten_parted {pieces : List Piece}
    (parted : ∀ span, .span span ∈ pieces → span.IsParted) : Parted (flatten pieces) := by
  refine parted_iff.mpr ⟨flatten_apart pieces, ?_⟩
  have joined (t : Text) {spans : List Inline} (parted : ∀ span ∈ spans, span.IsParted) :
      ∀ span ∈ consText t spans, span.IsParted := by
    unfold consText
    split
    · exact List.forall_mem_cons.mpr ⟨isParted_text _, (List.forall_mem_cons.mp parted).2⟩
    · exact List.forall_mem_cons.mpr ⟨isParted_text _, parted⟩
  fun_induction flatten pieces with
  | case1 => exact List.forall_mem_nil _
  | case2 run pieces _ ih => exact ih fun span member => parted span (List.mem_cons_of_mem _ member)
  | case3 run pieces _ ih | case4 t pieces ih =>
    exact joined _ (ih fun span member => parted span (List.mem_cons_of_mem _ member))
  | case5 span pieces _ ih =>
    refine List.forall_mem_cons.mpr ⟨parted span List.mem_cons_self, ?_⟩
    exact ih fun span member => parted span (List.mem_cons_of_mem _ member)

theorem isParted_emphasisSpan (mark : Char) (used : Nat) {children : List Inline}
    (parted : Parted children) : (emphasisSpan mark used children).IsParted := by
  unfold emphasisSpan
  split
  · exact (isParted_enclosing rfl).mpr parted
  · split <;> exact (isParted_enclosing rfl).mpr parted

theorem pair_parted {done rest : List Piece}
    (parted : ∀ span, .span span ∈ done.reverse ++ rest → span.IsParted) :
    ∀ span, .span span ∈ pair done rest → span.IsParted := by
  fun_induction pair done rest with
  | case1 done => simpa using parted
  | case2 done span rest ih => exact ih (by simpa using parted)
  | case3 done run rest _ _ ih | case5 done run rest _ ih => exact ih (by simpa using parted)
  | case4 done run rest _ inner opener before found used span ih =>
    have parts := findOpener_split found
    rw [List.append_nil] at parts
    rw [parts] at parted
    have made : span.IsParted :=
      isParted_emphasisSpan _ _ (flatten_parted fun span member => parted span (by simp [member]))
    refine ih fun other member => ?_
    have listed : .span other ∈ before ∨ other = span ∨ .span other ∈ rest := by
      simpa using member
    rcases listed with early | rfl | late
    · exact parted other (by simp [early])
    · exact made
    · exact parted other (by simp [late])

theorem emphasize_parted {pieces : List Piece}
    (parted : ∀ span, .span span ∈ pieces → span.IsParted) : Parted (emphasize pieces) :=
  flatten_parted (pair_parted parted)

/-! ### Scanning -/

theorem isParted_of_isLexeme {span : Inline} (lexeme : span.IsLexeme) : span.IsParted := by
  cases lexeme <;> exact isParted_of_alone rfl rfl

theorem scan_parted {σ : Type} {mode : EmphasisMode} {attempt : Attempt σ}
    (tries : ∀ t s span n, (attempt t s).1 = some (span, n) → span.IsParted)
    (prev escaped : Option Char) (held t : Text) (s : σ) :
    ∀ span, .span span ∈ (scan mode attempt prev escaped held t s).1 → span.IsParted := by
  have behind (held : Text) {pieces : List Piece}
      (parted : ∀ span, .span span ∈ pieces → span.IsParted) :
      ∀ span, .span span ∈ heldPiece held ++ pieces → span.IsParted := by
    intro span member
    unfold heldPiece at member
    split at member
    · exact parted span member
    · rcases List.mem_append.mp member with here | later
      · cases List.mem_singleton.mp here
        exact isParted_text _
      · exact parted span later
  have with_span {made : Inline} (own : made.IsParted) {pieces : List Piece}
      (parted : ∀ span, .span span ∈ pieces → span.IsParted) :
      ∀ span, .span span ∈ Piece.span made :: pieces → span.IsParted := by
    intro span member
    rcases List.mem_cons.mp member with here | later
    · cases here
      exact own
    · exact parted span later
  fun_induction scan mode attempt prev escaped held t s with
  | case1 prev escaped held s =>
    have alone := behind held fun span (none : Piece.span span ∈ []) => absurd none List.not_mem_nil
    rwa [List.append_nil] at alone
  | case2 prev escaped held s c cs last _ span n s' found pieces s'' rest ih =>
    rw [rest] at ih
    exact behind held (with_span (tries (c :: cs) s span n (by rw [found])) ih)
  | case3 prev escaped held s c cs _ s' found ih => exact ih
  | case4 prev escaped held s c cs last _ shown more _ ih => exact ih
  | case5 prev escaped held s c cs _ e _ ih => exact ih
  | case6 prev escaped held s c cs last _ span more found pieces s' rest ih =>
    rw [rest] at ih
    exact behind held (with_span (isParted_of_isLexeme (lexeme_isLexeme found)) ih)
  | case7 prev escaped held s c cs last _ run more _ pieces s' rest ih =>
    rw [rest] at ih
    refine behind held fun span member => ih span ?_
    simpa using member
  | case8 prev escaped held s c cs _ more _ pieces s' rest ih =>
    rw [rest] at ih
    exact behind _ (with_span (isParted_of_isLexeme .lineBreak) ih)

theorem readFlat_parted (mode : EmphasisMode) (t : Text) : Parted (readFlat mode t) := by
  refine emphasize_parted (scan_parted ?_ none none [] t ())
  intro _ _ _ _ none
  cases none

theorem Outcome.parted {scope : Scope} {notes after : Notes} {span : Inline}
    (outcome : Outcome scope notes (some span) after) : span.IsParted := by
  cases outcome with
  | link image label target =>
    cases image with
    | true => exact isParted_of_alone rfl rfl
    | false => exact (isParted_enclosing rfl).mpr (readFlat_parted scope.mode label)
  | again | defined | inPlace => exact isParted_of_alone rfl rfl

/-! ### Abbreviations -/

theorem parted_textSpan (t : Text) {spans : List Inline} (parted : Parted spans)
    (other : ∀ span ∈ spans.head?, ¬ span.isText) : Parted (textSpan t ++ spans) := by
  unfold textSpan
  split
  · exact parted
  · obtain ⟨apart, inside⟩ := parted_iff.mp parted
    exact parted_iff.mpr ⟨List.isChain_cons.mpr ⟨fun span first _ => other span first, apart⟩,
      List.forall_mem_cons.mpr ⟨isParted_text t, inside⟩⟩

theorem parted_cons {span : Inline} (bare : ¬ span.isText) (own : span.IsParted)
    {spans : List Inline} (parted : Parted spans) : Parted (span :: spans) := by
  obtain ⟨apart, inside⟩ := parted_iff.mp parted
  exact parted_iff.mpr ⟨List.isChain_cons.mpr ⟨fun _ _ text => absurd text bare, apart⟩,
    List.forall_mem_cons.mpr ⟨own, inside⟩⟩

theorem parted_markOccurrences (t : Text) (pos : Nat) (found : List Occurrence)
    {spans : List Inline} (parted : Parted spans) (other : ∀ span ∈ spans.head?, ¬ span.isText) :
    Parted (markOccurrences t pos found ++ spans) := by
  induction found generalizing pos with
  | nil => exact parted_textSpan _ parted other
  | cons o found ih =>
    rw [markOccurrences, List.append_assoc]
    refine parted_textSpan _ (parted_cons (by simp [Inline.isText]) ?_ (ih o.stop)) ?_
    · exact isParted_of_alone rfl rfl
    · simp [Inline.isText]

section Expand

variable (terms : List (Text × Text))

/-- Marking the terms in a span that is no text leaves a single span that is none. -/
theorem expand_enclosing {span : Inline} (bare : ¬ span.isText) :
    ∃ marked, span.expand terms = [marked] ∧ ¬ marked.isText := by
  cases span with
  | text t => exact absurd rfl bare
  | _ => exact ⟨_, rfl, by simp [Inline.isText]⟩

theorem head_expandAbbreviations {spans : List Inline}
    (other : ∀ span ∈ spans.head?, ¬ span.isText) :
    ∀ span ∈ (expandAbbreviations terms spans).head?, ¬ span.isText := by
  cases spans with
  | nil => exact other
  | cons span spans =>
    obtain ⟨marked, eq, bare⟩ := expand_enclosing terms (other span rfl)
    rw [expandAbbreviations, eq]
    simpa using bare

mutual

theorem Inline.parted_expand {span : Inline} (own : span.IsParted) {spans : List Inline}
    (parted : Parted spans) (other : span.isText → ∀ next ∈ spans.head?, ¬ next.isText) :
    Parted (span.expand terms ++ spans) := by
  cases span with
  | text t => exact parted_markOccurrences t 0 _ parted (other rfl)
  | emphasis children | strong children | strikethrough children | link target children =>
    have inner := parted_expandAbbreviations ((isParted_enclosing rfl).mp own)
    rw [Inline.expand, List.singleton_append]
    refine parted_cons (by simp [Inline.isText]) ?_ parted
    exact (isParted_enclosing rfl).mpr inner
  | _ => exact parted_cons (by simp [Inline.isText]) own parted

theorem parted_expandAbbreviations {spans : List Inline} (parted : Parted spans) :
    Parted (expandAbbreviations terms spans) := by
  cases spans with
  | nil => exact parted
  | cons span spans =>
    obtain ⟨apart, inside⟩ := parted_iff.mp parted
    obtain ⟨first, rest⟩ := List.isChain_cons.mp apart
    obtain ⟨own, others⟩ := List.forall_mem_cons.mp inside
    refine Inline.parted_expand own (parted_expandAbbreviations (parted_iff.mpr ⟨rest, others⟩)) ?_
    exact fun text => head_expandAbbreviations terms fun next start => first next start text

end

end Expand

/-- Reading leaves no two texts next to each other. -/
theorem readInline_parted (scope : Scope) (t : Text) (notes : Notes) :
    Parted (readInline scope t notes).1 := by
  refine parted_expandAbbreviations _ (emphasize_parted (scan_parted ?_ none none [] t notes))
  intro place before span n found
  have outcome := readBracket_outcome scope place before
  rw [found] at outcome
  exact outcome.parted

end CommentMarkup
