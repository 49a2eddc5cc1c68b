import CommentMarkup.Proofs.Block.Reading

/-!
# Lines of text

A line that no rule but the one for paragraphs takes. Lines of this kind alone are one paragraph.
-/

namespace CommentMarkup

/-- The line is a line of a paragraph wherever it stands. -/
def isTextLine (fence : Text) (ctx : Context) (l : Text) : Bool :=
  !l.isBlank && !interruptsParagraph fence ctx l && (listMarker? l).isNone && (underline? l).isNone

theorem isTextLine_filled {fence l : Text} {ctx : Context} (text : isTextLine fence ctx l) :
    ¬ l.isBlank := by
  simp only [isTextLine, Bool.and_eq_true, Bool.not_eq_true'] at text
  simp [text.1.1.1]

/-- A line of text in a document is one in an item: without a marker it is interrupted by less. -/
theorem isTextLine_item {fence l : Text} (text : isTextLine fence .document l) :
    isTextLine fence .item l := by
  simp only [isTextLine, interruptsParagraph, Bool.and_eq_true, Bool.not_eq_true',
    Bool.or_eq_false_iff, Option.isNone_iff_eq_none] at text ⊢
  obtain ⟨⟨⟨filled, quiet⟩, marker⟩, bare⟩ := text
  obtain ⟨⟨⟨⟨⟨⟨⟨⟨fenced, _⟩, outline⟩, raw⟩, definition⟩, rule⟩, heading⟩, quote⟩, _⟩ := quiet
  simp [filled, fenced, outline, raw, definition, rule, heading, quote, marker, bare]

/-- A line of text without an underline below it starts a paragraph. -/
theorem blockAt_text {fence l : Text} {ctx : Context} {ls : List Text}
    (text : isTextLine fence ctx l) (bare : ls.head?.bind underline? = none) :
    blockAt fence ctx l ls = paragraphAt fence ctx l ls := by
  simp only [isTextLine, interruptsParagraph, Bool.and_eq_true, Bool.not_eq_true',
    Bool.or_eq_false_iff, Option.isNone_iff_eq_none, Option.isSome_eq_false_iff] at text
  obtain ⟨⟨⟨_, quiet⟩, marker⟩, _⟩ := text
  obtain ⟨⟨⟨⟨⟨⟨⟨⟨fenced, code⟩, outline⟩, raw⟩, definition⟩, rule⟩, heading⟩, quote⟩, _⟩ := quiet
  simp [blockAt, fencedAt, fenced, indentedAt, code, outlineAt, outline, rawAt, raw, definitionAt,
    definition, ruleAt, rule, headingAt, heading, quoteAt, quote, listAt, marker, underlinedAt,
    bare]

/-- A raw tag gives way only to code and the outline. -/
theorem blockAt_raw {fence l : Text} {ctx : Context} {ls : List Text} {step : Step}
    (fenced : openFence? fence l = none) (code : ¬ isCodeLine l) (outline : ¬ isOutlineLine l)
    (raw : rawAt l ls = some step) : blockAt fence ctx l ls = step := by
  simp [blockAt, fencedAt, fenced, indentedAt, code, outlineAt, outline, raw]

/-- A definition gives way only to code, the outline and raw tags. -/
theorem blockAt_definition {fence l : Text} {ctx : Context} {ls : List Text} {step : Step}
    (fenced : openFence? fence l = none) (code : ¬ isCodeLine l) (outline : ¬ isOutlineLine l)
    (raw : rawTag? l = none) (definition : definitionAt l ls = some step) :
    blockAt fence ctx l ls = step := by
  simp [blockAt, fencedAt, fenced, indentedAt, code, outlineAt, outline, rawAt, raw, definition]

theorem blockAt_heading {fence l text : Text} {ctx : Context} {ls : List Text} {level : Nat}
    (fenced : openFence? fence l = none) (code : ¬ isCodeLine l) (outline : ¬ isOutlineLine l)
    (raw : rawTag? l = none) (definition : definitionLine? l = none) (rule : ¬ isRule l)
    (marked : heading? l = some (level, text)) :
    blockAt fence ctx l ls = .leaf (headingBlock level text) 0 := by
  simp [blockAt, fencedAt, fenced, indentedAt, code, outlineAt, outline, rawAt, raw, definitionAt,
    definition, ruleAt, rule, headingAt, marked]

theorem blockAt_list {fence l : Text} {ctx : Context} {ls : List Text} {m : ListMarker}
    (fenced : openFence? fence l = none) (code : ¬ isCodeLine l) (outline : ¬ isOutlineLine l)
    (raw : rawTag? l = none) (definition : definitionLine? l = none) (rule : ¬ isRule l)
    (heading : heading? l = none) (quote : ¬ isQuoteLine l) (marked : listMarker? l = some m) :
    blockAt fence ctx l ls = .list m.ordered m.number (listRun m.ordered 0 (l :: ls)) := by
  simp [blockAt, fencedAt, fenced, indentedAt, code, outlineAt, outline, rawAt, raw, definitionAt,
    definition, ruleAt, rule, headingAt, heading, quoteAt, quote, listAt, marked]

theorem underline_text {fence : Text} {ctx : Context} {ls : List Text}
    (text : ∀ l ∈ ls, isTextLine fence ctx l) : ls.head?.bind underline? = none := by
  cases ls with
  | nil => rfl
  | cons l ls =>
    have first := text l List.mem_cons_self
    simp only [isTextLine, Bool.and_eq_true, Option.isNone_iff_eq_none] at first
    exact first.2

theorem paragraphExtent_text {fence : Text} {ctx : Context} {ls : List Text}
    (text : ∀ l ∈ ls, isTextLine fence ctx l) : paragraphExtent fence ctx ls = ls.length := by
  induction ls with
  | nil => rfl
  | cons l ls ih =>
    have first := text l List.mem_cons_self
    have others : ∀ line ∈ ls, isTextLine fence ctx line :=
      fun line member => text line (List.mem_cons_of_mem _ member)
    simp only [isTextLine, Bool.and_eq_true, Bool.not_eq_true'] at first
    obtain ⟨⟨⟨filled, quiet⟩, _⟩, _⟩ := first
    rw [paragraphExtent, filled, quiet, underline_text others]
    simp [ih others]

/-- A line of text that nothing goes on with is a paragraph of its own. -/
theorem readBlocks_textLine {fence l : Text} {ctx : Context} {n : Nat} {ls : List Text}
    {blocks : List Block} (text : isTextLine fence ctx l) (bare : ls.head?.bind underline? = none)
    (apart : paragraphExtent fence ctx ls = 0)
    (rest : readBlocks fence ctx (n + 1) ls = .ok blocks) :
    readBlocks fence ctx n (l :: ls) = .ok (paragraph [l] :: blocks) := by
  have step := blockAt_text text bare
  rw [paragraphAt, apart] at step
  rw [readBlocks_leaf (isTextLine_filled text) step, List.drop_zero, rest]
  rfl

/-- Lines of text are a paragraph. -/
theorem readBlocks_text {fence l : Text} {ctx : Context} {n : Nat} {ls : List Text}
    (text : ∀ line ∈ l :: ls, isTextLine fence ctx line) :
    readBlocks fence ctx n (l :: ls) = .ok [paragraph (l :: ls)] := by
  have first := text l List.mem_cons_self
  have others : ∀ line ∈ ls, isTextLine fence ctx line :=
    fun line member => text line (List.mem_cons_of_mem _ member)
  have step := blockAt_text first (underline_text others)
  rw [paragraphAt, paragraphExtent_text others, List.take_length] at step
  rw [readBlocks_leaf (isTextLine_filled first) step, List.drop_length, readBlocks_nil]
  rfl

end CommentMarkup
