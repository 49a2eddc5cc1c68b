import CommentMarkup.Options
import CommentMarkup.Proofs.Block.TextLine
import CommentMarkup.Proofs.Text.Ascii
import CommentMarkup.Proofs.Text.Cut
import CommentMarkup.Proofs.Text.Foreign

/-!
# Escaped lines

A text with a backslash before every punctuation character. Each rule for a line looks for a
punctuation character at its start, or after digits, and finds a backslash there.
-/

namespace CommentMarkup

open Text

def escapeMarkupChar (c : Char) : Text := if isPunctuation c then ['\\', c] else [c]

/-- The text with a backslash before every punctuation character. -/
def escapeMarkup (t : Text) : Text := t.flatMap escapeMarkupChar

/-- The line is not empty, and white space stands at neither end. -/
def isFramed (l : Text) : Bool :=
  (l.startsWith fun c => !isSpace c) && l.endsWith fun c => !isSpace c

theorem escapeMarkup_cons (c : Char) (t : Text) :
    escapeMarkup (c :: t) = escapeMarkupChar c ++ escapeMarkup t := List.flatMap_cons

theorem escapeMarkup_append (a b : Text) :
    escapeMarkup (a ++ b) = escapeMarkup a ++ escapeMarkup b := List.flatMap_append

theorem escapeMarkupChar_mark {c : Char} (mark : isPunctuation c) :
    escapeMarkupChar c = ['\\', c] := if_pos mark

theorem escapeMarkupChar_plain {c : Char} (plain : ¬ isPunctuation c) :
    escapeMarkupChar c = [c] := if_neg plain

theorem escapeMarkup_unlines (ls : List Text) :
    escapeMarkup (unlines ls) = unlines (ls.map escapeMarkup) := by
  induction ls with
  | nil => rfl
  | cons l ls ih =>
    cases ls with
    | nil => simp [unlines]
    | cons l' ls =>
      rw [unlines_cons_cons, escapeMarkup_append, escapeMarkup_cons, ih,
        escapeMarkupChar_plain (by decide)]
      simp [unlines_cons_cons]

theorem feed_notMem_escapeMarkup {t : Text} (whole : '\n' ∉ t) : '\n' ∉ escapeMarkup t := by
  intro member
  obtain ⟨c, inside, here⟩ := List.mem_flatMap.mp member
  unfold escapeMarkupChar at here
  split at here
  · rcases List.mem_pair.mp here with same | same
    · exact absurd same (by decide)
    · exact whole (same ▸ inside)
  · exact whole (List.mem_singleton.mp here ▸ inside)

/-! ### Ends -/

def leadsEscaped (c : Char) : Bool := c == '\\' || !(isPunctuation c || isSpace c)

theorem escapeMarkup_leads {l : Text} (framed : isFramed l) :
    ∃ c u, escapeMarkup l = c :: u ∧ leadsEscaped c := by
  rw [isFramed, Bool.and_eq_true] at framed
  obtain ⟨c, u, rfl, ink⟩ := startsWith_iff.mp framed.1
  rw [escapeMarkup_cons]
  by_cases mark : isPunctuation c
  · exact ⟨'\\', c :: escapeMarkup u, by rw [escapeMarkupChar_mark mark]; rfl, by decide⟩
  · refine ⟨c, escapeMarkup u, by rw [escapeMarkupChar_plain mark]; rfl, ?_⟩
    have inked : isSpace c = false := by simpa using ink
    simp [leadsEscaped, mark, inked]

theorem isSpace_of_leadsEscaped {c : Char} (leads : leadsEscaped c) : ¬ isSpace c := by
  intro space
  have other : c ≠ '\\' := by
    rintro rfl
    exact absurd space (by decide)
  simp [leadsEscaped, space, other] at leads

theorem escapeMarkup_framed {l : Text} (framed : isFramed l) : isFramed (escapeMarkup l) := by
  obtain ⟨c, u, eq, leads⟩ := escapeMarkup_leads framed
  rw [isFramed, Bool.and_eq_true] at framed ⊢
  refine ⟨?_, ?_⟩
  · rw [eq]
    simpa [startsWith] using isSpace_of_leadsEscaped leads
  · obtain ⟨v, d, rfl, ink⟩ := endsWith_iff.mp framed.2
    rw [escapeMarkup_append]
    apply endsWith_iff.mpr
    by_cases mark : isPunctuation d
    · refine ⟨escapeMarkup v ++ ['\\'], d, ?_, ink⟩
      rw [escapeMarkup_cons, escapeMarkupChar_mark mark]
      simp [escapeMarkup]
    · refine ⟨escapeMarkup v, d, ?_, ink⟩
      rw [escapeMarkup_cons, escapeMarkupChar_plain mark]
      simp [escapeMarkup]

theorem trimStart_framed {l : Text} (framed : isFramed l) : l.trimStart = l := by
  rw [isFramed, Bool.and_eq_true] at framed
  obtain ⟨c, u, rfl, ink⟩ := startsWith_iff.mp framed.1
  rw [trimStart, List.dropWhile_cons_of_neg (by simpa using ink)]

theorem trimEnd_inked {l : Text} (inked : l.endsWith fun c => !isSpace c) : l.trimEnd = l := by
  obtain ⟨u, c, rfl, ink⟩ := endsWith_iff.mp inked
  rw [trimEnd, dropEndWhile, List.reverse_append, List.reverse_singleton, List.singleton_append,
    List.dropWhile_cons_of_neg (by simpa using ink), List.reverse_cons, List.reverse_reverse]

theorem trim_framed {l : Text} (framed : isFramed l) : l.trim = l := by
  have ends := framed
  rw [isFramed, Bool.and_eq_true] at ends
  rw [trim, trimStart_framed framed, trimEnd_inked ends.2]

/-! ### Rules -/

section Leads

variable {c : Char} {u : Text} (leads : leadsEscaped c)

include leads

theorem ne_of_leadsEscaped {d : Char} (mark : ¬ leadsEscaped d) : c ≠ d := by
  rintro rfl
  exact mark leads

theorem isCodeLine_leads : isCodeLine (c :: u) = false := by
  have tab : c ≠ '\t' := ne_of_leadsEscaped leads (by decide)
  have space : ' ' ≠ c := (ne_of_leadsEscaped leads (by decide)).symm
  simp [isCodeLine, isTabbed, startsWith, codeIndent, List.replicate_succ, List.isPrefixOf, tab,
    space]

theorem isRule_leads : isRule (c :: u) = false := by
  have hyphen : c ≠ '-' := ne_of_leadsEscaped leads (by decide)
  have low : c ≠ '_' := ne_of_leadsEscaped leads (by decide)
  have star : c ≠ '*' := ne_of_leadsEscaped leads (by decide)
  simp [isRule, isSpace_of_leadsEscaped leads, hyphen, low, star]

section TrimStart

variable (trimmed : trimStart (c :: u) = c :: u)

include trimmed

theorem openFence_leads : openFence? Options.default.fence (c :: u) = none := by
  have other : tick ≠ c := (ne_of_leadsEscaped leads (by decide)).symm
  simp [openFence?, Options.default, trimmed, dropLead?, other]

theorem rawTag_leads : rawTag? (c :: u) = none := by
  have other : c ≠ '<' := ne_of_leadsEscaped leads (by decide)
  rw [rawTag?, trimmed]
  simp [openingTag?, other]

theorem definitionLine_leads : definitionLine? (c :: u) = none := by
  have bracket : c ≠ '[' := ne_of_leadsEscaped leads (by decide)
  have star : c ≠ '*' := ne_of_leadsEscaped leads (by decide)
  rw [definitionLine?, trimmed]
  simp [bracket, star]

theorem heading_leads : heading? (c :: u) = none := by
  have other : c ≠ '#' := ne_of_leadsEscaped leads (by decide)
  simp [heading?, trimmed, other]

theorem isQuoteLine_leads : isQuoteLine (c :: u) = false := by
  have other : c ≠ '>' := ne_of_leadsEscaped leads (by decide)
  simp [isQuoteLine, trimmed, startsWith, other]

end TrimStart

section Trim

variable (trimmed : trim (c :: u) = c :: u)

include trimmed

theorem isOutlineLine_leads : isOutlineLine (c :: u) = false := by
  have bracket : c.toLower ≠ '[' := fun lower =>
    ne_of_leadsEscaped leads (by decide) (toLower_eq (by decide) lower)
  have mark : c.toLower ≠ '!' := fun lower =>
    ne_of_leadsEscaped leads (by decide) (toLower_eq (by decide) lower)
  simp [isOutlineLine, trimmed, toLower, bracket, mark]

theorem underline_leads : underline? (c :: u) = none := by
  have equals : c ≠ '=' := ne_of_leadsEscaped leads (by decide)
  have hyphen : c ≠ '-' := ne_of_leadsEscaped leads (by decide)
  simp [underline?, trimmed, equals, hyphen]

end Trim
end Leads

/-- The first character of an escaped text after its digits is no full stop. -/
theorem dropDigits_escapeMarkup (t : Text) :
    ((escapeMarkup t).dropWhile Char.isDigit).head? ≠ some '.' := by
  induction t with
  | nil => simp [escapeMarkup]
  | cons c t ih =>
    rw [escapeMarkup_cons]
    by_cases mark : isPunctuation c
    · rw [escapeMarkupChar_mark mark]
      simp
    · rw [escapeMarkupChar_plain mark, List.singleton_append, List.dropWhile_cons]
      split
      · exact ih
      · intro same
        cases same
        exact absurd mark (by decide)

theorem listMarker_escapeMarkup {l : Text} (framed : isFramed l) :
    listMarker? (escapeMarkup l) = none := by
  obtain ⟨c, u, eq, leads⟩ := escapeMarkup_leads framed
  have trimmed := trimStart_framed (escapeMarkup_framed framed)
  have digits := dropDigits_escapeMarkup l
  have hyphen : c ≠ '-' := ne_of_leadsEscaped leads (by decide)
  have plus : c ≠ '+' := ne_of_leadsEscaped leads (by decide)
  have star : c ≠ '*' := ne_of_leadsEscaped leads (by decide)
  unfold listMarker?
  dsimp only
  rw [trimmed]
  rw [eq] at digits ⊢
  simp only [hyphen, plus, star, or_self, if_false, drop_takeWhile_length]
  -- only an ordered marker is left, which needs a full stop behind its digits
  split
  · rename_i rest stop
    rw [stop] at digits
    exact absurd rfl digits
  · rfl

/-- No rule but the one for paragraphs takes an escaped line. -/
theorem isTextLine_escapeMarkup {l : Text} (framed : isFramed l) :
    isTextLine Options.default.fence .document (escapeMarkup l) := by
  have marker := listMarker_escapeMarkup framed
  have framed' := escapeMarkup_framed framed
  obtain ⟨c, u, eq, leads⟩ := escapeMarkup_leads framed
  have start := trimStart_framed framed'
  have ends := trim_framed framed'
  rw [eq] at marker start ends ⊢
  simp [isTextLine, interruptsParagraph, marker, openFence_leads leads start,
    isCodeLine_leads leads, isOutlineLine_leads leads ends, rawTag_leads leads start,
    definitionLine_leads leads start, isRule_leads leads, heading_leads leads start,
    isQuoteLine_leads leads start, underline_leads leads ends, isBlank,
    isSpace_of_leadsEscaped leads]

end CommentMarkup
