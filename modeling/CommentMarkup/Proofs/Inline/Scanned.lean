import CommentMarkup.Proofs.Footnote.Openings
import CommentMarkup.Proofs.Inline.Fixed
import CommentMarkup.Proofs.Inline.Lexeme

/-!
# Spans that scanning finds

A span is what an attempt makes of a bracket, or else a lexeme. `scan_measured` carries whatever an
attempt does to the state over the whole text, with the fixed spans that it finds and with what the
text has of a measure, such as places where a footnote reference may open: `scan_related`.
-/

namespace CommentMarkup

/-- A span that stands for what it is written as, whatever the document defines. -/
inductive Inline.IsLexeme : Inline → Prop
  | text (t : Text) : IsLexeme (.text t)
  | charRef {t : Text} {n : Nat} (form : CharRef.length? t = some n) :
      IsLexeme (.charRef (t.take n))
  | code (t : Text) : IsLexeme (.code t)
  | lineBreak : IsLexeme .lineBreak
  | rawHtml {t : Text} {markup : Markup} {n : Nat} (found : scanTag t = some (markup, n))
      (allowed : markup.isAllowed) : IsLexeme (.rawHtml (t.take n))
  | autolink (target : Text) (email : Bool) : IsLexeme (.autolink target email)

theorem Inline.IsLexeme.fixed {span : Inline} (lexeme : span.IsLexeme) :
    ∀ other ∈ CommentMarkup.fixed [span], other = span := by
  intro other member
  cases lexeme <;> first | exact List.mem_singleton.mp member | cases member

theorem autolink_form {t : Text} {span : Inline} {n : Nat} (h : autolink? t = some (span, n)) :
    ∃ address email, span = .autolink address email := by
  unfold autolink? at h
  split at h
  · dsimp only at h
    split at h
    · cases h
    · split at h
      · cases h
        exact ⟨_, _, rfl⟩
      · split at h
        · cases h
          exact ⟨_, _, rfl⟩
        · cases h
  · cases h

theorem rawInline_isLexeme {t : Text} {span : Inline} {n : Nat}
    (h : rawInline? t = some (span, n)) : span.IsLexeme := by
  obtain ⟨⟨markup, k⟩, found, h⟩ := Option.map_eq_some_iff.mp h
  cases h
  split
  · exact .rawHtml found ‹_›
  · exact .text _

theorem lexeme_isLexeme {mode : EmphasisMode} {prev escaped : Option Char} {held cs : Text}
    {c : Char} {span : Inline} {more : Nat}
    (h : lexeme mode prev escaped held c cs = .span span more) : span.IsLexeme := by
  have starts := lexeme_starts mode prev escaped held c cs
  rw [h] at starts
  cases starts with
  | code => exact .code _
  | charRef _ form => exact .charRef form
  | autolink _ found =>
    obtain ⟨address, email, rfl⟩ := autolink_form found
    exact .autolink address email
  | raw _ found => exact rawInline_isLexeme found

theorem heldPiece_fixed (held : Text) : pieceFixed (heldPiece held) = [] := by
  unfold heldPiece
  split <;> rfl

/-! ### Attempts -/

def foundFixed : Option (Inline × Nat) → List Inline
  | none => []
  | some (span, _) => fixed [span]

def foundLength : Option (Inline × Nat) → Nat
  | none => 0
  | some (_, n) => n

theorem drop_suffix_cons {α : Type} (n : Nat) (a : α) (l : List α) : l.drop n <:+ a :: l :=
  (List.drop_suffix n l).trans (List.suffix_cons a l)

theorem InkMeasure.parts {μ : Text → Nat} (measure : InkMeasure μ) (n : Nat) (c : Char) (cs : Text) :
    μ ((c :: cs).take n) + μ (cs.drop (n - 1)) ≤ μ (c :: cs) := by
  cases n with
  | zero =>
    have rest := measure.le_of_infix (List.suffix_cons c cs).isInfix
    rw [List.take_zero, Nat.zero_sub, List.drop_zero, measure.nil]
    omega
  | succ n =>
    rw [Nat.add_sub_cancel]
    have parts := measure.append_le ((c :: cs).take (n + 1)) (cs.drop n)
    rwa [List.take_succ_cons, List.cons_append, List.take_append_drop] at parts

section Scan

variable {σ : Type} {mode : EmphasisMode} {attempt : Attempt σ}
  {R : σ → Nat → List Inline → σ → Prop}

/-- Scanning relates its states, by what the text has of a measure, in whatever way composes and
holds of each lexeme and each attempt by what the characters have that it takes. -/
theorem scan_measured {μ : Text → Nat} (measure : InkMeasure μ) (idle : ∀ s n, R s n [] s)
    (compose : ∀ {s s' s'' m n a b}, R s m a s' → R s' n b s'' → R s (m + n) (a ++ b) s'')
    (weaken : ∀ {s s' m n a}, m ≤ n → R s m a s' → R s n a s')
    (lexemes : ∀ {prev escaped held c cs span more},
      lexeme mode prev escaped held c cs = .span span more →
        ∀ s, R s (μ (c :: cs.take more)) (fixed [span]) s)
    (breaks : ∀ s, R s 0 (fixed [.lineBreak]) s)
    (tries : ∀ t s, R s (μ (t.take (foundLength (attempt t s).1))) (foundFixed (attempt t s).1)
      (attempt t s).2)
    (prev escaped : Option Char) (held t : Text) (s : σ) :
    R s (μ t) (pieceFixed (scan mode attempt prev escaped held t s).1)
      (scan mode attempt prev escaped held t s).2 := by
  have later (c : Char) (cs : Text) (more : Nat) : μ (cs.drop more) ≤ μ (c :: cs) :=
    measure.le_of_infix (drop_suffix_cons more c cs).isInfix
  fun_induction scan mode attempt prev escaped held t s with
  | case1 prev escaped held s =>
    rw [heldPiece_fixed]
    exact idle s _
  | case2 prev escaped held s c cs last _ span n s' found pieces s'' rest ih =>
    have tried := tries (c :: cs) s
    rw [found] at tried
    rw [rest] at ih
    have both := weaken (measure.parts n c cs) (compose tried ih)
    simpa [heldPiece_fixed, foundFixed] using both
  | case3 prev escaped held s c cs _ s' found ih =>
    -- a failed attempt takes no characters but may have changed the state
    have tried := tries (c :: cs) s
    rw [found] at tried
    exact weaken (measure.parts 0 c cs) (compose tried ih)
  | case4 prev escaped held s c cs last _ shown more _ ih => exact weaken (later c cs more) ih
  | case5 prev escaped held s c cs _ e _ ih => exact weaken (later c cs 1) ih
  | case6 prev escaped held s c cs last _ span more found pieces s' rest ih =>
    have here := lexemes found s
    have parts := measure.parts (more + 1) c cs
    rw [rest] at ih
    have both := weaken parts (compose here ih)
    simpa [heldPiece_fixed] using both
  | case7 prev escaped held s c cs last _ run more _ pieces s' rest ih =>
    rw [rest] at ih
    have both := weaken (later c cs more) ih
    simpa [heldPiece_fixed] using both
  | case8 prev escaped held s c cs _ more _ pieces s' rest ih =>
    rw [rest] at ih
    have both := weaken ((Nat.zero_add _).trans_le (later c cs more)) (compose (breaks s) ih)
    simpa [heldPiece_fixed] using both

/-- Scanning relates its states by whatever relation composes and holds of each lexeme and each
attempt. -/
theorem scan_related (idle : ∀ s n, R s n [] s)
    (compose : ∀ {s s' s'' m n a b}, R s m a s' → R s' n b s'' → R s (m + n) (a ++ b) s'')
    (weaken : ∀ {s s' m n a}, m ≤ n → R s m a s' → R s n a s')
    (lexemes : ∀ s {span : Inline}, span.IsLexeme → R s 0 (fixed [span]) s)
    (tries : ∀ t s, R s (openingCount (t.take (foundLength (attempt t s).1)))
      (foundFixed (attempt t s).1) (attempt t s).2)
    (prev escaped : Option Char) (held t : Text) (s : σ) :
    R s (openingCount t) (pieceFixed (scan mode attempt prev escaped held t s).1)
      (scan mode attempt prev escaped held t s).2 :=
  scan_measured openingCount_measure idle compose weaken
    (fun found s => weaken (Nat.zero_le _) (lexemes s (lexeme_isLexeme found)))
    (fun s => lexemes s .lineBreak) tries prev escaped held t s

/-- What an attempt at any place in the text keeps of the state is kept by scanning it. -/
theorem scan_keeps {P : σ → Prop} (prev escaped : Option Char) (held t : Text) {s : σ}
    (tries : ∀ place s, place <:+ t → P s → P (attempt place s).2) (start : P s) :
    P (scan mode attempt prev escaped held t s).2 := by
  have later {c : Char} {cs : Text} (more : Nat)
      (tries : ∀ place s, place <:+ c :: cs → P s → P (attempt place s).2) :
      ∀ place s, place <:+ cs.drop more → P s → P (attempt place s).2 :=
    fun place s inside => tries place s (inside.trans (drop_suffix_cons more c cs))
  fun_induction scan mode attempt prev escaped held t s with
  | case1 prev escaped held s => exact start
  | case2 prev escaped held s c cs last _ span n s' found pieces s'' rest ih =>
    have tried := tries (c :: cs) s List.suffix_rfl start
    rw [found] at tried
    rw [rest] at ih
    exact ih (later (n - 1) tries) tried
  | case3 prev escaped held s c cs _ s' found ih =>
    have tried := tries (c :: cs) s List.suffix_rfl start
    rw [found] at tried
    exact ih (later 0 tries) tried
  | case4 prev escaped held s c cs last _ shown more _ ih => exact ih (later more tries) start
  | case5 prev escaped held s c cs _ e _ ih => exact ih (later 1 tries) start
  | case6 prev escaped held s c cs last _ span more _ pieces s' rest ih
  | case7 prev escaped held s c cs last _ run more _ pieces s' rest ih
  | case8 prev escaped held s c cs _ more _ pieces s' rest ih =>
    rw [rest] at ih
    exact ih (later more tries) start

end Scan

/-- What an attempt carries along besides the state of another one changes nothing. -/
theorem scan_project {σ τ : Type} {mode : EmphasisMode} {attempt : Attempt σ} {carrying : Attempt τ}
    (π : τ → σ) (same : ∀ t s, attempt t (π s) = ((carrying t s).1, π (carrying t s).2))
    (prev escaped : Option Char) (held t : Text) (s : τ) :
    scan mode attempt prev escaped held t (π s) =
      ((scan mode carrying prev escaped held t s).1,
        π (scan mode carrying prev escaped held t s).2) := by
  fun_induction scan mode carrying prev escaped held t s with
  | case1 prev escaped held s => rw [scan]
  | case2 prev escaped held s c cs last opens span n s' found pieces s'' rest ih =>
    rw [scan, if_pos opens, same, found]
    rw [rest] at ih
    simp only [last] at ih
    simp only [ih]
  | case3 prev escaped held s c cs opens s' found ih =>
    rw [scan, if_pos opens, same, found]
    exact ih
  | case4 prev escaped held s c cs last opens shown more found ih
  | case5 prev escaped held s c cs opens e found ih =>
    rw [scan, if_neg opens, found]
    exact ih
  | case6 prev escaped held s c cs last opens span more found pieces s' rest ih
  | case7 prev escaped held s c cs last opens run more found pieces s' rest ih =>
    rw [scan, if_neg opens, found]
    rw [rest] at ih
    simp only [last] at ih
    simp only [ih]
  | case8 prev escaped held s c cs opens more found pieces s' rest ih =>
    rw [scan, if_neg opens, found]
    rw [rest] at ih
    simp only [ih]

/-- Brackets mean nothing in flat text: all that it holds is lexemes. -/
theorem readFlat_lexemes (mode : EmphasisMode) (t : Text) :
    ∀ span ∈ fixed (readFlat mode t), span.IsLexeme := by
  rw [readFlat, fixed_emphasize]
  refine scan_related (R := fun _ _ spans _ => ∀ span ∈ spans, span.IsLexeme) ?_ ?_
    (fun _ found => found) ?_ ?_ none none [] t ()
  · intro _ _ span member
    cases member
  · intro _ _ _ _ _ a b left right span member
    exact (List.mem_append.mp member).elim (left span) (right span)
  · intro _ span lexeme other member
    rwa [lexeme.fixed other member]
  · intro _ _ span member
    cases member

end CommentMarkup
