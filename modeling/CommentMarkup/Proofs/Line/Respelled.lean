import CommentMarkup.Block.Leaf
import CommentMarkup.Proofs.Block.Lookahead
import CommentMarkup.Proofs.Text.Indent
import CommentMarkup.Proofs.Text.Trim

/-!
# Indentation spelled in another way

What a line is without regard to the spaces and tabs in front of it. `SameText` relates two lines
that differ in nothing else: in an item the rules for single lines see no difference between them.
`SameColumns` relates two lines whose indentation reaches the same column as well.
-/

namespace CommentMarkup

open Text

/-- The same text behind the indentation. Empty lines are told apart from lines of white space. -/
structure SameText (k l : Text) : Prop where
  text : k.trimStart = l.trimStart
  empty : k.isEmpty = l.isEmpty

structure SameColumns (k l : Text) : Prop where
  columns : indentColumns k = indentColumns l
  text : k.dropWhile isIndent = l.dropWhile isIndent
  empty : k.isEmpty = l.isEmpty

theorem trimStart_dropWhile_isIndent (l : Text) :
    trimStart (l.dropWhile isIndent) = l.trimStart := by
  induction l with
  | nil => rfl
  | cons c l ih =>
    by_cases indent : isIndent c
    · rw [List.dropWhile_cons_of_pos indent, ih, trimStart, trimStart,
        List.dropWhile_cons_of_pos (isSpace_of_isIndent indent)]
    · rw [List.dropWhile_cons_of_neg indent]

theorem SameColumns.sameText {k l : Text} (same : SameColumns k l) : SameText k l where
  text := by rw [← trimStart_dropWhile_isIndent, same.text, trimStart_dropWhile_isIndent]
  empty := same.empty

theorem isBlank_trimStart (l : Text) : l.trimStart.isBlank = l.isBlank := by
  rw [Bool.eq_iff_iff, isBlank_iff_inkCount, isBlank_iff_inkCount, inkCount_trimStart]

theorem filter_trimStart (l : Text) :
    l.trimStart.filter (fun c => !isSpace c) = l.filter fun c => !isSpace c := by
  have blank : (l.takeWhile isSpace).filter (fun c => !isSpace c) = [] := by
    rw [List.filter_eq_nil_iff]
    intro c member
    simp [List.mem_takeWhile_imp member]
  conv_rhs =>
    rw [← List.takeWhile_append_dropWhile (p := isSpace) (l := l), List.filter_append, blank]
  rfl

/-! ### Markers -/

structure SameMarker (a b : ListMarker) : Prop where
  ordered : a.ordered = b.ordered
  number : a.number = b.number
  content : a.content = b.content

theorem before_same (i j : Nat) (ordered : Bool) (number width : Nat) (rest : Text) :
    Option.Rel SameMarker (ListMarker.before? i ordered number width rest)
      (ListMarker.before? j ordered number width rest) := by
  unfold ListMarker.before?
  split
  · exact .some ⟨rfl, rfl, rfl⟩
  · exact .none

theorem indent_before {indent number width : Nat} {ordered : Bool} {rest : Text} {m : ListMarker}
    (h : ListMarker.before? indent ordered number width rest = some m) : m.indent = indent := by
  unfold ListMarker.before? at h
  split at h
  · cases h
    rfl
  · cases h

theorem listMarker_indent {l : Text} {m : ListMarker} (marked : listMarker? l = some m) :
    m.indent = indentColumns l := by
  unfold listMarker? at marked
  dsimp only at marked
  split at marked
  · cases marked
  · split at marked
    · exact indent_before marked
    · split at marked
      · split at marked
        · cases marked
        · exact indent_before marked
      · cases marked

/-! ### Rules for one line -/

namespace SameText

variable {k l : Text} (same : SameText k l)

include same

theorem trim : k.trim = l.trim := by rw [Text.trim, Text.trim, same.text]

theorem isBlank : k.isBlank = l.isBlank := by
  rw [← isBlank_trimStart, same.text, isBlank_trimStart]

theorem openFence (fence : Text) : openFence? fence k = openFence? fence l := by
  unfold openFence?
  rw [same.text]

theorem isOutlineLine : isOutlineLine k = CommentMarkup.isOutlineLine l := by
  unfold CommentMarkup.isOutlineLine
  rw [same.trim]

theorem rawTag : rawTag? k = rawTag? l := by rw [rawTag?, rawTag?, same.text]

theorem definitionLine : definitionLine? k = definitionLine? l := by
  unfold definitionLine?
  rw [same.text]

theorem isRule : isRule k = CommentMarkup.isRule l := by
  unfold CommentMarkup.isRule
  rw [← filter_trimStart, same.text, filter_trimStart]

theorem heading : heading? k = heading? l := by
  unfold heading?
  rw [same.text]

theorem underline : underline? k = underline? l := by
  unfold underline?
  rw [same.trim]

theorem isQuoteLine : isQuoteLine k = CommentMarkup.isQuoteLine l := by
  rw [CommentMarkup.isQuoteLine, CommentMarkup.isQuoteLine, same.text]

theorem dropQuoteMark (quoted : CommentMarkup.isQuoteLine k) :
    dropQuoteMark k = CommentMarkup.dropQuoteMark l := by
  have quoted' : CommentMarkup.isQuoteLine l := by rwa [← same.isQuoteLine]
  rw [CommentMarkup.dropQuoteMark, CommentMarkup.dropQuoteMark, if_pos quoted, if_pos quoted',
    same.text]

theorem listMarker : Option.Rel SameMarker (listMarker? k) (listMarker? l) := by
  unfold listMarker?
  rw [same.text]
  dsimp only
  split
  · exact .none
  · split
    · exact before_same _ _ _ _ _ _
    · split
      · split
        · exact .none
        · exact before_same _ _ _ _ _ _
      · exact .none

/-- The marker of the one line is on the other as well. -/
theorem marked {a : ListMarker} (found : listMarker? k = some a) :
    ∃ b, listMarker? l = some b ∧ SameMarker a b := by
  have markers := same.listMarker
  rw [found] at markers
  cases other : listMarker? l with
  | none =>
    rw [other] at markers
    cases markers
  | some b =>
    rw [other] at markers
    cases markers with
    | some marker => exact ⟨b, rfl, marker⟩

theorem unmarked (found : listMarker? k = none) : listMarker? l = none := by
  have markers := same.listMarker
  rw [found] at markers
  cases other : listMarker? l with
  | none => rfl
  | some b =>
    rw [other] at markers
    cases markers

theorem interrupting (ctx : Context) : (listMarker? k).any (ListMarker.interrupts ctx) =
    (listMarker? l).any (ListMarker.interrupts ctx) := by
  cases found : listMarker? k with
  | none => rw [same.unmarked found]
  | some a =>
    obtain ⟨b, found', marker⟩ := same.marked found
    rw [found', Option.any_some, Option.any_some, ListMarker.interrupts, ListMarker.interrupts,
      marker.ordered, marker.number]

/-- Only as code in a document does indentation interrupt a paragraph. -/
theorem interruptsParagraph (fence : Text) (ctx : Context)
    (code : ctx = .document → isCodeLine k = isCodeLine l) :
    interruptsParagraph fence ctx k = CommentMarkup.interruptsParagraph fence ctx l := by
  have indented : (ctx == .document && isCodeLine k) = (ctx == .document && isCodeLine l) := by
    cases ctx with
    | document => exact congrArg _ (code rfl)
    | item => rfl
  unfold CommentMarkup.interruptsParagraph
  rw [same.openFence, indented, same.isOutlineLine, same.rawTag, same.definitionLine, same.isRule,
    same.heading, same.isQuoteLine, same.interrupting]

end SameText

/-! ### Lines with the same columns -/

/-- The line without a carriage return has the same indentation. -/
theorem dropReturn_indent (l : Text) :
    l.dropReturn.takeWhile isIndent = l.takeWhile isIndent ∧
      l.dropReturn.dropWhile isIndent = dropReturn (l.dropWhile isIndent) := by
  induction l with
  | nil => exact ⟨rfl, rfl⟩
  | cons c l ih =>
    by_cases indent : isIndent c
    · have other : c ≠ '\r' := by
        rintro rfl
        exact absurd indent (by decide)
      rw [dropReturn_cons fun _ => other, List.takeWhile_cons_of_pos indent,
        List.takeWhile_cons_of_pos indent, List.dropWhile_cons_of_pos indent,
        List.dropWhile_cons_of_pos indent, ih.1]
      exact ⟨rfl, ih.2⟩
    · have front : dropReturn (c :: l) <+: c :: l := by
        unfold dropReturn
        split
        · exact List.dropLast_prefix _
        · exact List.prefix_rfl
      rw [List.takeWhile_cons_of_neg indent, List.dropWhile_cons_of_neg indent]
      rcases List.prefix_cons_iff.mp front with none | ⟨rest, same, _⟩
      · rw [none]
        exact ⟨rfl, rfl⟩
      · rw [same, List.takeWhile_cons_of_neg indent, List.dropWhile_cons_of_neg indent]
        exact ⟨rfl, rfl⟩

namespace SameColumns

variable {k l : Text}

theorem of_text (columns : indentColumns k = indentColumns l)
    (text : k.dropWhile isIndent = l.dropWhile isIndent) : SameColumns k l where
  columns := columns
  text := text
  empty := by rw [Bool.eq_iff_iff, isEmpty_iff_columns, isEmpty_iff_columns, columns, text]

theorem listMarker (same : SameColumns k l) : listMarker? k = listMarker? l := by
  unfold listMarker?
  rw [same.columns, same.sameText.text]

theorem removeIndent (same : SameColumns k l) {columns : Nat} (kept : KeepsStops columns k)
    (kept' : KeepsStops columns l) :
    SameColumns (removeIndent columns k) (CommentMarkup.removeIndent columns l) := by
  apply of_text
  · rw [(indentColumns_removeIndent_iff columns k).mpr kept,
      (indentColumns_removeIndent_iff columns l).mpr kept', same.columns]
  · rw [dropWhile_removeIndent, dropWhile_removeIndent, same.text]

theorem dropReturn (same : SameColumns k l) : SameColumns k.dropReturn l.dropReturn := by
  apply of_text
  · rw [indentColumns_takeWhile, indentColumns_takeWhile, (dropReturn_indent k).1,
      (dropReturn_indent l).1, ← indentColumns_takeWhile, ← indentColumns_takeWhile, same.columns]
  · rw [(dropReturn_indent k).2, (dropReturn_indent l).2, same.text]

end SameColumns

end CommentMarkup
