import CommentMarkup.Block.ListRun

/-!
# One block

`blockAt` finds the block that starts at a line. Rules are tried in a fixed order, and the first one
that accepts the line owns it. Lists and footnotes still hold lines, to be read in their turn; the
lemmas at the end say that these lines have less ink than the ones they come from.
-/

namespace CommentMarkup

/-- What starts at a line. -/
inductive Step
  /-- A finished block that takes `more` lines after its first. -/
  | leaf (block : Block) (more : Nat)
  | list (ordered : Bool) (start : Nat) (run : ListRun)
  /-- A footnote definition that takes `more` lines after its first. -/
  | footnote (label : Text) (body : List Text) (more : Nat)
  | malformed (reason : Reason)
  deriving Repr

def fencedAt (fence l : Text) (ls : List Text) : Option Step :=
  (openFence? fence l).map fun info =>
    match ls.findIdx? (isClosingFence fence) with
    | none => .malformed .unterminatedFence
    | some n =>
      let content := (ls.take n).map (removeIndent (indentColumns l))
      .leaf (.code (.fenced info) (literalText content)) (n + 1)

/-- Indented code, which only a document has. -/
def indentedAt (ctx : Context) (l : Text) (ls : List Text) : Option Step :=
  if ctx == .document && isCodeLine l then
    let more := codeLines (isTabbed l) ls
    let kind := if isTabbed l then .tabIndented else .spaceIndented
    some (.leaf (.code kind (literalText (dropCodeIndent l :: more))) more.length)
  else none

def outlineAt (l : Text) : Option Step :=
  if isOutlineLine l then some (.leaf .outline 0) else none

def rawAt (l : Text) (ls : List Text) : Option Step :=
  (rawTag? l).map fun tag =>
    match rawExtent? tag 0 (l :: ls) with
    | none => .malformed (.unterminatedTag tag)
    | some n => .leaf (.rawHtml tag (neutralizeTags (unlines ((l :: ls).take n)))) (n - 1)

def continuesFootnote (line l : Text) : Bool :=
  !l.isBlank && decide (indentColumns line < indentColumns l) && (definitionLine? l).isNone

/-- A definition. A link definition without a proper target is none. -/
def definitionAt (l : Text) (ls : List Text) : Option Step :=
  (definitionLine? l).bind fun d =>
    match d.kind with
    | .abbreviation => some (.leaf (.abbreviationDef d.label d.rest.trim) 0)
    | .link =>
      (linkTarget? l d.rest ls.head?).map fun (target, more) =>
        .leaf (.referenceDef d.label target) more
    | .footnote =>
      let more := ls.takeWhile (continuesFootnote l)
      some (.footnote d.label (d.rest.trim :: more.map Text.trim) more.length)

/-- A rule. It comes before list markers, so that spaced asterisks are no list. -/
def ruleAt (l : Text) : Option Step :=
  if isRule l then some (.leaf .rule 0) else none

def headingBlock (level : Nat) (text : Text) : Block := .heading level (.unread text) []

def headingAt (l : Text) : Option Step :=
  (heading? l).map fun (level, text) => .leaf (headingBlock level text) 0

def quoteAt (fence l : Text) (ls : List Text) : Option Step :=
  if isQuoteLine l then
    let quoted := quoteLines fence false (l :: ls)
    some (.leaf (.quote (quoteParagraphs quoted)) (quoted.length - 1))
  else none

def listAt (l : Text) (ls : List Text) : Option Step :=
  (listMarker? l).map fun m => .list m.ordered m.number (listRun m.ordered 0 (l :: ls))

def underlinedAt (l : Text) (ls : List Text) : Option Step :=
  (ls.head?.bind underline?).map fun level => .leaf (headingBlock level l.trim) 1

/-- A paragraph, the block of any other line. -/
def paragraphAt (fence : Text) (ctx : Context) (l : Text) (ls : List Text) : Step :=
  let more := paragraphExtent fence ctx ls
  .leaf (paragraph (l :: ls.take more)) more

/-- The block that starts at line `l`, with `ls` the lines after it. -/
def blockAt (fence : Text) (ctx : Context) (l : Text) (ls : List Text) : Step :=
  (fencedAt fence l ls <|> indentedAt ctx l ls <|> outlineAt l <|> rawAt l ls <|>
    definitionAt l ls <|> ruleAt l <|> headingAt l <|> quoteAt fence l ls <|> listAt l ls <|>
    underlinedAt l ls).getD (paragraphAt fence ctx l ls)

/-! ### Ink -/

def Step.innerInk : Step → Nat
  | .list _ _ run => itemsInk run.items
  | .footnote _ body _ => totalInk body
  | _ => 0

/-- The lines that a step leaves to be read have less ink than those it started from. -/
def Step.Shrinks (bound : Nat) (step : Step) : Prop :=
  match step with
  | .list .. | .footnote .. => step.innerInk < bound
  | _ => True

theorem totalInk_map_trim (ls : List Text) : totalInk (ls.map Text.trim) = totalInk ls := by
  induction ls with
  | nil => rfl
  | cons l ls ih => simp [ih]

theorem totalInk_takeWhile_le (p : Text → Bool) (ls : List Text) :
    totalInk (ls.takeWhile p) ≤ totalInk ls := by
  have := totalInk_append (ls.takeWhile p) (ls.dropWhile p)
  rw [List.takeWhile_append_dropWhile] at this
  omega

theorem definitionAt_shrinks {l : Text} {ls : List Text} {step : Step}
    (h : definitionAt l ls = some step) : step.Shrinks (totalInk (l :: ls)) := by
  obtain ⟨d, hd, h⟩ := Option.bind_eq_some_iff.1 h
  have hrest := DefinitionLine.inkCount_rest_lt hd
  split at h
  · cases h
    trivial
  · obtain ⟨⟨target, more⟩, _, rfl⟩ := Option.map_eq_some_iff.1 h
    trivial
  · cases h
    have := totalInk_takeWhile_le (continuesFootnote l) ls
    simp only [Step.Shrinks, Step.innerInk, totalInk_cons, totalInk_map_trim, Text.inkCount_trim]
    omega

theorem listAt_shrinks {l : Text} {ls : List Text} {step : Step}
    (h : listAt l ls = some step) : step.Shrinks (totalInk (l :: ls)) := by
  obtain ⟨m, hm, rfl⟩ := Option.map_eq_some_iff.1 h
  have hink := itemsInk_listRun m.ordered 0 (l :: ls)
  have hpos := List.length_pos_iff.mpr (listRun_items_ne_nil hm 0 ls)
  simp only [Step.Shrinks, Step.innerInk]
  omega

theorem fencedAt_shrinks {fence l : Text} {ls : List Text} {step : Step} {bound : Nat}
    (h : fencedAt fence l ls = some step) : step.Shrinks bound := by
  obtain ⟨info, _, rfl⟩ := Option.map_eq_some_iff.1 h
  split <;> trivial

theorem rawAt_shrinks {l : Text} {ls : List Text} {step : Step} {bound : Nat}
    (h : rawAt l ls = some step) : step.Shrinks bound := by
  obtain ⟨tag, _, rfl⟩ := Option.map_eq_some_iff.1 h
  split <;> trivial

/-- Where the lines of a nested block come from less ink is left. -/
theorem blockAt_shrinks (fence : Text) (ctx : Context) (l : Text) (ls : List Text) :
    (blockAt fence ctx l ls).Shrinks (totalInk (l :: ls)) := by
  have either {x y : Option Step} {step : Step} (h : (x <|> y) = some step) :
      x = some step ∨ y = some step := by
    cases x with
    | none => exact .inr h
    | some a => exact .inl h
  unfold blockAt
  cases h : (fencedAt fence l ls <|> indentedAt ctx l ls <|> outlineAt l <|> rawAt l ls <|>
    definitionAt l ls <|> ruleAt l <|> headingAt l <|> quoteAt fence l ls <|> listAt l ls <|>
    underlinedAt l ls) with
  | none => trivial
  | some step =>
    rw [Option.getD_some]
    rcases either h with h | h
    · exact fencedAt_shrinks h
    rcases either h with h | h
    · unfold indentedAt at h
      split at h <;> cases h
      trivial
    rcases either h with h | h
    · unfold outlineAt at h
      split at h <;> cases h
      trivial
    rcases either h with h | h
    · exact rawAt_shrinks h
    rcases either h with h | h
    · exact definitionAt_shrinks h
    rcases either h with h | h
    · unfold ruleAt at h
      split at h <;> cases h
      trivial
    rcases either h with h | h
    · obtain ⟨⟨level, text⟩, _, rfl⟩ := Option.map_eq_some_iff.1 h
      trivial
    rcases either h with h | h
    · unfold quoteAt at h
      split at h <;> cases h
      trivial
    rcases either h with h | h
    · exact listAt_shrinks h
    · obtain ⟨level, _, rfl⟩ := Option.map_eq_some_iff.1 h
      trivial

end CommentMarkup
