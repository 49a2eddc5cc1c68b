import CommentMarkup.Proofs.Abbreviation.Marked
import CommentMarkup.Proofs.Heading.Gist
import CommentMarkup.Proofs.Inline.Drawn
import CommentMarkup.Proofs.Inline.Paired

/-!
# What is seen of inline text

The plain text of the spans of a line without brackets is what its lexemes show, one behind the
other, but for delimiters that became emphasis. Slugs do not tell the two apart: `gist_readInline`.
-/

namespace CommentMarkup

/-! ### Lexemes -/

/-- What a reader sees of a lexeme. -/
def Lexeme.shown : Lexeme → Text
  | .text t _ => t
  | .escape c => [c]
  | .span s _ => s.plainText
  | .run r _ => r.wording
  | .lineBreak _ => [' ']

def Lexeme.more : Lexeme → Nat
  | .text _ more | .span _ more | .run _ more | .lineBreak more => more
  | .escape _ => 1

def firstLexeme (c : Char) (cs : Text) : Lexeme := lexeme .classic none none [] c cs

def readerText : Text → Text
  | [] => []
  | c :: cs => (firstLexeme c cs).shown ++ readerText (cs.drop (firstLexeme c cs).more)
termination_by t => t.length
decreasing_by simp only [List.length_cons, List.length_drop]; omega

theorem lexeme_delimiter {mode : EmphasisMode} {prev escaped : Option Char} {held cs : Text}
    {c : Char} (delimiter : IsDelimiter c) :
    (lexeme mode prev escaped held c cs).shown = List.replicate (runLength c cs + 1) c ∧
      (lexeme mode prev escaped held c cs).more = runLength c cs := by
  have other {d : Char} (plain : ¬ IsDelimiter d) : c ≠ d := by
    rintro rfl
    exact plain delimiter
  have starts := lexeme_starts mode prev escaped held c cs
  generalize lexeme mode prev escaped held c cs = found at starts ⊢
  cases starts with
  | run _ mark count =>
    rw [Lexeme.shown, Run.wording, mark, count]
    exact ⟨rfl, rfl⟩
  | leftover => exact ⟨rfl, rfl⟩
  | plain _ _ undelimited => exact absurd delimiter undelimited
  | _ same => exact absurd same (other (by simp [IsDelimiter, tick]))

/-- What stands before a lexeme decides about runs and line breaks, but not about what is seen. -/
theorem lexeme_seen (mode : EmphasisMode) (prev escaped : Option Char) (held : Text) {c : Char}
    (whole : c ≠ '\n') (cs : Text) :
    (lexeme mode prev escaped held c cs).shown = (firstLexeme c cs).shown ∧
      (lexeme mode prev escaped held c cs).more = (firstLexeme c cs).more := by
  by_cases mark : IsDelimiter c
  · obtain ⟨shown, more⟩ := lexeme_delimiter mark
    obtain ⟨shown', more'⟩ := lexeme_delimiter mark
    exact ⟨shown.trans shown'.symm, more.trans more'.symm⟩
  · have same : lexeme mode prev escaped held c cs = firstLexeme c cs := by
      rw [IsDelimiter] at mark
      simp only [firstLexeme, lexeme, if_neg mark, whole, false_and, if_false]
    rw [same]
    exact ⟨rfl, rfl⟩

theorem lexeme_lineFeed (mode : EmphasisMode) (prev escaped : Option Char) (held cs : Text) :
    (lexeme mode prev escaped held '\n' cs).more = 0 := by
  have starts := lexeme_starts mode prev escaped held '\n' cs
  generalize lexeme mode prev escaped held '\n' cs = found at starts ⊢
  cases starts with
  | lineFeed | plain => rfl
  | run delimiter | leftover delimiter => exact absurd delimiter (by simp [IsDelimiter])
  | _ same => exact absurd same (by decide)

theorem lexeme_more (mode : EmphasisMode) (prev escaped : Option Char) (held : Text) (c : Char)
    (cs : Text) :
    (lexeme mode prev escaped held c cs).more = (firstLexeme c cs).more := by
  by_cases feed : c = '\n'
  · rw [feed, lexeme_lineFeed, firstLexeme, lexeme_lineFeed]
  · exact (lexeme_seen mode prev escaped held feed cs).2

theorem readerText_cons (mode : EmphasisMode) (prev escaped : Option Char) (held : Text) {c : Char}
    (whole : c ≠ '\n') (cs : Text) :
    readerText (c :: cs) = (lexeme mode prev escaped held c cs).shown ++
      readerText (cs.drop (lexeme mode prev escaped held c cs).more) := by
  obtain ⟨shown, more⟩ := lexeme_seen mode prev escaped held whole cs
  rw [readerText, shown, more]

theorem lexeme_run {mode : EmphasisMode} {prev escaped : Option Char} {held cs : Text} {c : Char}
    {run : Run} {more : Nat} (found : lexeme mode prev escaped held c cs = .run run more) :
    IsDelimiter run.mark := by
  have starts := lexeme_starts mode prev escaped held c cs
  rw [found] at starts
  cases starts with
  | run delimiter mark => rwa [mark]

theorem lexeme_lineBreak {mode : EmphasisMode} {prev escaped : Option Char} {held cs : Text}
    {c : Char} {more : Nat} (found : lexeme mode prev escaped held c cs = .lineBreak more) :
    '\n' ∈ c :: cs := by
  have starts := lexeme_starts mode prev escaped held c cs
  rw [found] at starts
  cases starts with
  | brokenLine _ first => exact List.mem_cons_of_mem _ (List.mem_of_head? first)
  | lineFeed feed => exact feed ▸ List.mem_cons_self

/-! ### Scanning -/

/-- The pieces of a text of which `t` is seen. -/
structure Seen (t : Text) (pieces : List Piece) : Prop where
  shown : pieces.flatMap (Piece.shown Inline.plainText) = t
  marks : ∀ run, .run run ∈ pieces → IsDelimiter run.mark

namespace Seen

theorem nil : Seen [] [] := ⟨rfl, fun _ none => nomatch none⟩

variable {t : Text} {pieces : List Piece} (seen : Seen t pieces)

include seen

theorem span (span : Inline) : Seen (span.plainText ++ t) (.span span :: pieces) where
  shown := by rw [List.flatMap_cons, seen.shown, Piece.shown]
  marks run member := seen.marks run ((List.mem_cons.mp member).resolve_left nofun)

theorem run {run : Run} (delimiter : IsDelimiter run.mark) :
    Seen (run.wording ++ t) (.run run :: pieces) where
  shown := by rw [List.flatMap_cons, seen.shown, Piece.shown]
  marks other member := by
    rcases List.mem_cons.mp member with here | later
    · cases here
      exact delimiter
    · exact seen.marks other later

theorem held (held : Text) : Seen (held.reverse ++ t) (heldPiece held ++ pieces) := by
  cases held with
  | nil => exact seen
  | cons c held =>
    have text := seen.span (.text (c :: held).reverse)
    rwa [Inline.plainText] at text

end Seen

theorem notMem_behind {d c : Char} {cs : Text} (free : d ∉ c :: cs) (n : Nat) : d ∉ cs.drop n :=
  fun member => free (List.mem_cons_of_mem _ (List.mem_of_mem_drop member))

/-- Of the pieces that are scanned on one line is seen what is held back, and then the lexemes: there
are no brackets to open and no lines to break. -/
theorem scan_seen {σ : Type} (mode : EmphasisMode) (attempt : Attempt σ)
    (prev escaped : Option Char) (held t : Text) (s : σ) (unbracketed : '[' ∉ t)
    (whole : '\n' ∉ t) :
    Seen (held.reverse ++ readerText t) (scan mode attempt prev escaped held t s).1 := by
  fun_induction scan mode attempt prev escaped held t s with
  | case1 prev escaped held s => simpa [readerText] using Seen.nil.held held
  | case2 prev escaped held s c cs last opens | case3 prev escaped held s c cs opens =>
    rw [opensBracket_of_notMem unbracketed] at opens
    cases opens
  | case4 prev escaped held s c cs last _ shown more found ih =>
    rw [readerText_cons mode prev escaped held (List.ne_of_not_mem_cons whole).symm, found]
    simpa [Lexeme.shown, Lexeme.more] using
      ih (notMem_behind unbracketed more) (notMem_behind whole more)
  | case5 prev escaped held s c cs _ e found ih =>
    rw [readerText_cons mode prev escaped held (List.ne_of_not_mem_cons whole).symm, found]
    simpa [Lexeme.shown, Lexeme.more] using
      ih (notMem_behind unbracketed 1) (notMem_behind whole 1)
  | case6 prev escaped held s c cs last _ span more found pieces s' rest ih =>
    rw [readerText_cons mode prev escaped held (List.ne_of_not_mem_cons whole).symm, found]
    have after := ih (notMem_behind unbracketed more) (notMem_behind whole more)
    rw [rest] at after
    exact (after.span span).held held
  | case7 prev escaped held s c cs last _ run more found pieces s' rest ih =>
    rw [readerText_cons mode prev escaped held (List.ne_of_not_mem_cons whole).symm, found]
    have after := ih (notMem_behind unbracketed more) (notMem_behind whole more)
    rw [rest] at after
    exact (after.run (lexeme_run found)).held held
  | case8 prev escaped held s c cs _ more found =>
    exact absurd (lexeme_lineBreak found) whole

/-! ### Emphasis -/

theorem plainText_eq_flatMap (spans : List Inline) :
    plainText spans = spans.flatMap Inline.plainText := by
  induction spans with
  | nil => rfl
  | cons span spans ih => rw [plainText, ih, List.flatMap_cons]

theorem plainText_flatten (pieces : List Piece) :
    plainText (flatten pieces) = pieces.flatMap (Piece.shown Inline.plainText) := by
  rw [plainText_eq_flatMap, flatMap_flatten fun _ => by rw [Inline.plainText]]

theorem plainText_emphasisSpan (mark : Char) (used : Nat) (children : List Inline) :
    (emphasisSpan mark used children).plainText = plainText children := by
  unfold emphasisSpan
  split
  · rw [Inline.plainText]
  · split <;> rw [Inline.plainText]

theorem gist_delimiters {mark : Char} (delimiter : IsDelimiter mark) (n : Nat) :
    gist (List.replicate n mark) = [] := by
  have mute : ¬ isSpace mark ∧ ¬ isSlugChar mark := by
    rcases delimiter with rfl | rfl | rfl <;> decide
  induction n with
  | zero => rfl
  | succ n ih => rw [List.replicate_succ, gist_cons_mute mute.1 mute.2, ih]

def pieceGist (pieces : List Piece) : Text := gist (pieces.flatMap (Piece.shown Inline.plainText))

theorem pieceGist_append (a b : List Piece) :
    pieceGist (a ++ b) = pieceGist a ++ pieceGist b := by
  rw [pieceGist, List.flatMap_append, gist_append, pieceGist, pieceGist]

theorem pieceGist_span (span : Inline) (pieces : List Piece) :
    pieceGist (.span span :: pieces) = gist span.plainText ++ pieceGist pieces := gist_append _ _

theorem pieceGist_run {run : Run} (delimiter : IsDelimiter run.mark) (pieces : List Piece) :
    pieceGist (.run run :: pieces) = pieceGist pieces := by
  rw [pieceGist, List.flatMap_cons, gist_append, Piece.shown, Run.wording,
    gist_delimiters delimiter, List.nil_append, pieceGist]

theorem pieceGist_pair (done rest : List Piece)
    (marks : ∀ run, .run run ∈ done.reverse ++ rest → IsDelimiter run.mark) :
    pieceGist (pair done rest) = pieceGist (done.reverse ++ rest) := by
  fun_induction pair done rest with
  | case1 done => rw [List.append_nil]
  | case2 done span rest ih => simpa using ih (by simpa using marks)
  | case3 done run rest _ _ ih | case5 done run rest _ ih =>
    simpa using ih (by simpa using marks)
  | case4 done run rest _ inner opener before found used span ih =>
    have parts := findOpener_split found
    rw [List.append_nil] at parts
    rw [parts, List.append_assoc, List.cons_append] at marks ⊢
    have step : (Piece.span span :: .run (opener.use used) :: before).reverse ++
        .run (run.use used) :: rest =
          before.reverse ++ .run (opener.use used) :: .span span :: .run (run.use used) :: rest := by
      simp
    have opening : IsDelimiter opener.mark := marks opener (by simp)
    have closing : IsDelimiter run.mark := marks run (by simp)
    have opened : IsDelimiter (opener.use used).mark := opening
    have closed : IsDelimiter (run.use used).mark := closing
    rw [step] at ih
    rw [ih ?_]
    · -- no delimiter is in the gist, so it does not matter how many are used
      have inside : gist span.plainText = pieceGist inner := by
        rw [plainText_emphasisSpan, plainText_flatten, pieceGist]
      simp only [pieceGist_append, pieceGist_span, pieceGist_run opening, pieceGist_run closing,
        pieceGist_run opened, pieceGist_run closed, inside]
    · intro other member
      have listed : .run other ∈ before ∨ other = opener.use used ∨ other = run.use used ∨
          .run other ∈ rest := by
        simpa using member
      rcases listed with early | rfl | rfl | late
      · exact marks other (by simp [early])
      · exact opened
      · exact closed
      · exact marks other (by simp [late])

/-! ### Reading -/

/-- A line without brackets has the gist of what is seen of its lexemes, whatever the document
defines. -/
theorem gist_readInline (scope : Scope) {t : Text} (unbracketed : '[' ∉ t) (whole : '\n' ∉ t)
    (notes : Notes) : gist (plainText (readInline scope t notes).1) = gist (readerText t) := by
  have seen : Seen (readerText t) (scan scope.mode (readBracket scope) none none [] t notes).1 :=
    scan_seen scope.mode (readBracket scope) none none [] t notes unbracketed whole
  have paired := pieceGist_pair [] _ seen.marks
  rw [readInline]
  dsimp only
  rw [plainText_expandAbbreviations, emphasize, plainText_flatten]
  exact paired.trans (congrArg gist seen.shown)

end CommentMarkup
