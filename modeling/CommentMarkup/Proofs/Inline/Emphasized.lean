import CommentMarkup.Proofs.Inline.Drawn
import CommentMarkup.Proofs.Inline.Paired
import Mathlib

/-!
# Texts of emphasis

A text in which nothing but emphasis can be marked up is read without loss: its spans, written out,
are the text again, but for underscores that became asterisks: `readInline_emphasized`.
-/

namespace CommentMarkup

/-- No character of the text starts anything but emphasis. -/
def EmphasisOnly (t : Text) : Prop := ∀ c ∈ t, c ∉ ['\\', tick, '&', '<', '[', '\n']

/-! ### Lexemes -/

/-- The lexeme takes text as it stands, or a whole run of delimiters. -/
inductive Lexeme.IsPlain (c : Char) (cs : Text) : Lexeme → Prop
  | text {shown : Text} {more : Nat} (filled : shown ≠ []) (whole : shown ++ cs.drop more = c :: cs) :
      IsPlain c cs (.text shown more)
  | run {run : Run} {more : Nat} (delimiter : IsDelimiter c) (mark : run.mark = c)
      (left : 0 < run.count) (whole : run.wording ++ cs.drop more = c :: cs)
      (ends : (cs.drop more).head? ≠ some c) : IsPlain c cs (.run run more)

theorem head_drop_runLength (c : Char) (cs : Text) : (cs.drop (runLength c cs)).head? ≠ some c := by
  rw [runLength, drop_takeWhile_length]
  intro first
  have other := List.head?_dropWhile_not (· == c) cs
  rw [first] at other
  simp at other

theorem lexeme_isPlain {mode : EmphasisMode} {prev escaped : Option Char} {held cs : Text} {c : Char}
    {read : Lexeme} (found : lexeme mode prev escaped held c cs = read)
    (only : c ∉ ['\\', tick, '&', '<', '[', '\n']) : read.IsPlain c cs := by
  simp only [List.mem_cons, List.not_mem_nil, or_false, not_or] at only
  obtain ⟨unescaped, unquoted, ampersand, angle, _, feed⟩ := only
  have starts := lexeme_starts mode prev escaped held c cs
  rw [found] at starts
  cases starts with
  | backslash slash | escape slash | brokenLine slash => exact absurd slash unescaped
  | code quoted | ticks quoted => exact absurd quoted unquoted
  | charRef here => exact absurd here ampersand
  | autolink here | raw here => exact absurd here angle
  | lineFeed here => exact absurd here feed
  | run delimiter mark count =>
    refine .run delimiter mark ?_ ?_ (head_drop_runLength c cs)
    · rw [count]
      exact Nat.succ_pos _
    · rw [Run.wording, mark, count]
      exact runLength_append_drop c cs
  | leftover => exact .text (by simp) (runLength_append_drop c cs)
  | plain => exact .text (by simp) rfl

theorem opensBracket_only {escaped : Option Char} {c : Char} {cs : Text}
    (only : EmphasisOnly (c :: cs)) : opensBracket escaped c cs = false :=
  opensBracket_of_notMem fun member => absurd (only '[' member) (by decide)

/-! ### Scanning -/

/-- The pieces of a text with `held` before it, in reverse. They can be paired, and they start with a
run only if the text does. -/
structure Scanned (held t : Text) (pieces : List Piece) : Prop where
  written : pieceWritten pieces = held.reverse ++ t
  pairable : Pairable pieces
  first : ∀ mark, (trace pieces).head? = some (some mark) → held = [] ∧ t.head? = some mark

namespace Scanned

theorem done : Scanned [] [] [] where
  written := rfl
  pairable := ⟨.nil, fun _ none => (nomatch none), fun _ none => (nomatch none)⟩
  first _ none := nomatch none

theorem hold {t : Text} {pieces : List Piece} (scanned : Scanned [] t pieces) (held : Text) :
    Scanned held t (heldPiece held ++ pieces) := by
  cases held with
  | nil => exact scanned
  | cons c held =>
    have piece : heldPiece (c :: held) = [.span (.text (c :: held).reverse)] := rfl
    rw [piece, List.singleton_append]
    refine ⟨?_, ⟨?_, fun span member => ?_, fun run member => ?_⟩, fun mark first => nomatch first⟩
    · rw [pieceWritten_span, scanned.written]
      rfl
    · exact List.isChain_cons.mpr ⟨fun _ _ => .inl rfl, scanned.pairable.spaced⟩
    · rcases List.mem_cons.mp member with here | later
      · cases here
        simp [Inline.isTidy]
      · exact scanned.pairable.tidy span later
    · rcases List.mem_cons.mp member with here | later
      · cases here
      · exact scanned.pairable.marks run later

theorem text {held shown cs : Text} {c : Char} {more : Nat} {pieces : List Piece}
    (plain : Lexeme.IsPlain c cs (.text shown more))
    (scanned : Scanned (shown.reverse ++ held) (cs.drop more) pieces) :
    Scanned held (c :: cs) pieces := by
  cases plain with
  | text filled whole =>
    refine ⟨?_, scanned.pairable, fun mark first => ?_⟩
    · rw [scanned.written, ← whole, List.reverse_append, List.reverse_reverse, List.append_assoc]
    · have empty := (List.append_eq_nil_iff.mp (scanned.first mark first).1).1
      exact absurd (List.reverse_eq_nil_iff.mp empty) filled

theorem run {c : Char} {cs : Text} {run : Run} {more : Nat} {pieces : List Piece}
    (plain : Lexeme.IsPlain c cs (.run run more)) (scanned : Scanned [] (cs.drop more) pieces) :
    Scanned [] (c :: cs) (.run run :: pieces) := by
  cases plain with
  | run delimiter mark left whole ends =>
    subst mark
    have start : trace (.run run :: pieces) = some run.mark :: trace pieces := by
      rw [trace_cons, trace_run left, List.singleton_append]
    refine ⟨?_, ⟨?_, fun span member => ?_, fun other member => ?_⟩, fun mark first => ?_⟩
    · rw [pieceWritten_run, scanned.written, ← whole]
      rfl
    · rw [Spaced, start]
      refine List.isChain_cons.mpr ⟨fun next first => ?_, scanned.pairable.spaced⟩
      refine .inr fun same => ends (scanned.first run.mark ?_).2
      rwa [same]
    · rcases List.mem_cons.mp member with here | later
      · cases here
      · exact scanned.pairable.tidy span later
    · rcases List.mem_cons.mp member with here | later
      · cases here
        exact delimiter
      · exact scanned.pairable.marks other later
    · rw [start] at first
      cases first
      exact ⟨rfl, rfl⟩

end Scanned

theorem scan_scanned {σ : Type} (mode : EmphasisMode) (attempt : Attempt σ)
    (prev escaped : Option Char) (held t : Text) (s : σ) (only : EmphasisOnly t) :
    Scanned held t (scan mode attempt prev escaped held t s).1 := by
  have later {c : Char} {cs : Text} (only : EmphasisOnly (c :: cs)) (more : Nat) :
      EmphasisOnly (cs.drop more) :=
    fun d member => only d (List.mem_cons_of_mem _ (List.mem_of_mem_drop member))
  -- no character starts a bracket, an escape or a span: only text and runs are left
  fun_induction scan mode attempt prev escaped held t s with
  | case1 prev escaped held s => simpa using Scanned.done.hold held
  | case2 prev escaped held s c cs last opens | case3 prev escaped held s c cs opens =>
    rw [opensBracket_only only] at opens
    cases opens
  | case4 prev escaped held s c cs last _ shown more found ih =>
    have plain := lexeme_isPlain found (only c List.mem_cons_self)
    exact (ih (later only more)).text plain
  | case5 prev escaped held s c cs _ e found =>
    cases lexeme_isPlain found (only c List.mem_cons_self)
  | case6 prev escaped held s c cs last _ span more found =>
    cases lexeme_isPlain found (only c List.mem_cons_self)
  | case7 prev escaped held s c cs last _ run more found pieces s' rest ih =>
    have plain := lexeme_isPlain found (only c List.mem_cons_self)
    rw [rest] at ih
    exact ((ih (later only more)).run plain).hold held
  | case8 prev escaped held s c cs _ more found =>
    cases lexeme_isPlain found (only c List.mem_cons_self)

/-! ### Reading -/

mutual

theorem Inline.expand_nil {span : Inline} (tidy : span.isTidy) : span.expand [] = [span] := by
  cases span with
  | text t =>
    rw [Inline.isTidy, Bool.not_eq_true'] at tidy
    rw [Inline.expand, occurrences, occurrencesFrom_nil, markOccurrences, List.drop_zero, textSpan,
      tidy]
    rfl
  | emphasis children | strong children | strikethrough children =>
    rw [Inline.isTidy, Bool.and_eq_true] at tidy
    rw [Inline.expand, expandAbbreviations_nil tidy.2]
  | _ => cases tidy

/-- Without terms, tidy spans stay as they are. -/
theorem expandAbbreviations_nil {spans : List Inline} (tidy : isTidy spans) :
    expandAbbreviations [] spans = spans := by
  cases spans with
  | nil => rfl
  | cons span spans =>
    obtain ⟨here, _, rest⟩ := isTidy_cons.mp tidy
    rw [expandAbbreviations, Inline.expand_nil here, expandAbbreviations_nil rest]
    rfl

end

/-- Reading a text of emphasis without abbreviations is lossless: the spans are written as the text,
no emphasis is empty, no texts are neighbours, and pairing never lacks a delimiter that it takes. -/
theorem readInline_emphasized (scope : Scope) (undefined : scope.references.abbreviations = [])
    (notes : Notes) {t : Text} (only : EmphasisOnly t) :
    let pieces := (scan scope.mode (readBracket scope) none none [] t notes).1
    let spans := (readInline scope t notes).1
    starred (written spans) = starred t ∧ isTidy spans ∧
      (pair? [] pieces).map flatten = some spans := by
  intro pieces spans
  have scanned : Scanned [] t pieces :=
    scan_scanned scope.mode (readBracket scope) none none [] t notes only
  obtain ⟨tidy, same⟩ := scanned.pairable.emphasized
  have read : spans = emphasize pieces := by
    have expanded := expandAbbreviations_nil tidy
    rwa [← undefined] at expanded
  rw [read]
  refine ⟨?_, tidy, ?_⟩
  · rw [same, scanned.written]
    rfl
  · rw [pair?_eq_some, Option.map_some, emphasize]

/-- Runs that close in part, and delimiters that are left over. -/
theorem readInline_emphasized_overlapping :
    let scope : Scope := ⟨.classic, .empty, []⟩
    let t := "_**a** ~~b*~~~_c__".toList
    let pieces := (scan scope.mode (readBracket scope) none none [] t (Notes.start [])).1
    let spans := (readInline scope t (Notes.start [])).1
    scope.references.abbreviations = [] ∧ EmphasisOnly t ∧
      spans = [.emphasis [.strong [.text ['a']], .text [' '],
        .strikethrough [.text ['b', '*']], .text ['~']], .text "c__".toList] ∧
      starred (written spans) = starred t ∧ isTidy spans ∧
      (pair? [] pieces).map flatten = some spans := by
  have only : EmphasisOnly "_**a** ~~b*~~~_c__".toList := by simp [EmphasisOnly, tick]
  exact ⟨rfl, only, by cbv, readInline_emphasized ⟨.classic, .empty, []⟩ rfl (Notes.start []) only⟩

end CommentMarkup
