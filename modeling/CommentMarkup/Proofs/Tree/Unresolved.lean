import CommentMarkup.Proofs.Block.Shape
import CommentMarkup.Proofs.Definition.Tables
import CommentMarkup.Resolution

/-!
# Blocks before resolution

Resolution puts anchors into headings and spans into the prose of a flow. `unresolved` takes both
out again, `unread` the spans alone. A walk that only fills these in leaves the rest as it was read,
and leaves definitions alone: `Fills.stripped`, `Fills.definitions`.
-/

namespace CommentMarkup

mutual

/-- The block with `clear` done to the prose in its flow and `forget` to all anchors. The body of a
footnote definition is outside of the flow and keeps its prose. -/
def Block.stripped (clear : Prose → Prose) (forget : Text → Text) : Block → Block
  | .heading level content anchor => .heading level (clear content) (forget anchor)
  | .paragraph content => .paragraph (clear content)
  | .list ordered start tight items => .list ordered start tight (strippedItems clear forget items)
  | .quote blocks => .quote (stripped clear forget blocks)
  | .footnoteDef label body => .footnoteDef label (stripped id forget body)
  | block => block

def stripped (clear : Prose → Prose) (forget : Text → Text) : List Block → List Block
  | [] => []
  | block :: blocks => block.stripped clear forget :: stripped clear forget blocks

def strippedItems (clear : Prose → Prose) (forget : Text → Text) :
    List (Item Block) → List (Item Block)
  | [] => []
  | ⟨bullet, blocks⟩ :: items =>
    ⟨bullet, stripped clear forget blocks⟩ :: strippedItems clear forget items

end

def Prose.cleared (content : Prose) : Prose := .unread content.source

/-- The blocks with no spans outside of footnote definitions. -/
def unread (blocks : List Block) : List Block := stripped Prose.cleared id blocks

def unresolved (blocks : List Block) : List Block := stripped Prose.cleared (fun _ => []) blocks

/-! ### Blocks as they are read -/

def Block.IsBare : Block → Prop
  | .heading _ content anchor => content.spans = [] ∧ anchor = []
  | .paragraph content => content.spans = []
  | _ => True

theorem Block.Shaped.bare {block : Block} (shaped : block.Shaped) : block.IsBare := by
  cases block with
  | heading => exact shaped.2.2.2
  | paragraph => exact shaped.2
  | _ => trivial

/-- There is nothing to take out of prose without spans and of an empty anchor. -/
structure KeepsBare (clear : Prose → Prose) (forget : Text → Text) : Prop where
  prose : ∀ content, content.spans = [] → clear content = content
  anchor : forget [] = []

mutual

theorem KeepsBare.block {clear : Prose → Prose} {forget : Text → Text}
    (keeps : KeepsBare clear forget) {block : Block} (bare : ∀ inner ∈ block.nested, inner.IsBare) :
    block.stripped clear forget = block := by
  cases block with
  | heading level content anchor =>
    obtain ⟨spans, rfl⟩ := bare _ (List.mem_singleton_self _)
    rw [Block.stripped, keeps.prose content spans, keeps.anchor]
  | paragraph content =>
    rw [Block.stripped, keeps.prose content (bare _ (List.mem_singleton_self _))]
  | list ordered start tight items =>
    rw [Block.stripped, keeps.items (List.forall_mem_cons.mp bare).2]
  | quote blocks => rw [Block.stripped, keeps.blocks (List.forall_mem_cons.mp bare).2]
  | footnoteDef label body =>
    -- in the body prose is kept as it is, so only the anchors there need to be bare
    have inside : KeepsBare id forget := ⟨fun _ _ => rfl, keeps.anchor⟩
    rw [Block.stripped, inside.blocks (List.forall_mem_cons.mp bare).2]
  | _ => rfl

theorem KeepsBare.blocks {clear : Prose → Prose} {forget : Text → Text}
    (keeps : KeepsBare clear forget) {blocks : List Block}
    (bare : ∀ inner ∈ nested blocks, inner.IsBare) : stripped clear forget blocks = blocks := by
  cases blocks with
  | nil => rfl
  | cons block blocks =>
    obtain ⟨here, later⟩ := List.forall_mem_append.mp bare
    rw [stripped, keeps.block here, keeps.blocks later]

theorem KeepsBare.items {clear : Prose → Prose} {forget : Text → Text}
    (keeps : KeepsBare clear forget) {items : List (Item Block)}
    (bare : ∀ inner ∈ itemsNested items, inner.IsBare) :
    strippedItems clear forget items = items := by
  cases items with
  | nil => rfl
  | cons item items =>
    obtain ⟨bullet, blocks⟩ := item
    obtain ⟨here, later⟩ := List.forall_mem_append.mp bare
    rw [strippedItems, keeps.blocks here, keeps.items later]

end

theorem cleared_keepsBare {forget : Text → Text} (anchor : forget [] = []) :
    KeepsBare Prose.cleared forget where
  prose content none := by rw [Prose.cleared, Prose.unread, ← none]
  anchor := anchor

section Read

variable {fence text : Text} {ctx : Context} {blocks body : List Block}

theorem readBlocks_bare (read : readBlocks fence ctx 1 (lines text) = .ok blocks) :
    ∀ block ∈ nested blocks, block.IsBare :=
  fun block member => (readBlocks_fit (lines_whole text) read block member).shaped.bare

theorem unread_readBlocks (read : readBlocks fence ctx 1 (lines text) = .ok blocks) :
    unread blocks = blocks :=
  (cleared_keepsBare rfl).blocks (readBlocks_bare read)

theorem unresolved_readBlocks (read : readBlocks fence ctx 1 (lines text) = .ok blocks) :
    unresolved blocks = blocks :=
  (cleared_keepsBare rfl).blocks (readBlocks_bare read)

theorem unread_body (read : readBlocks fence ctx 1 (lines text) = .ok blocks) {label : Text}
    (defines : .footnoteDef label body ∈ flow blocks) : unread body = body := by
  refine (cleared_keepsBare rfl).blocks fun inner member => readBlocks_bare read inner ?_
  exact nested_subset (flow_subset_nested blocks defines) (List.mem_cons_of_mem _ member)

end Read

/-! ### Walks that fill in -/

/-- The second block is the first with other spans, and with an anchor in which `forget` sees no
difference. -/
inductive Filled (forget : Text → Text) : Block → Block → Prop
  | same (block : Block) : Filled forget block block
  | heading (level : Nat) (source : Text) {spans spans' : List Inline} {anchor other : Text}
      (anchors : forget other = forget anchor) :
      Filled forget (.heading level ⟨source, spans⟩ anchor) (.heading level ⟨source, spans'⟩ other)
  | paragraph (source : Text) {spans spans' : List Inline} :
      Filled forget (.paragraph ⟨source, spans⟩) (.paragraph ⟨source, spans'⟩)

namespace Filled

variable {forget : Text → Text} {block block' : Block} (filled : Filled forget block block')

include filled

theorem stripped : block'.stripped Prose.cleared forget = block.stripped Prose.cleared forget := by
  cases filled with
  | same | paragraph => rfl
  | heading level source anchors => rw [Block.stripped, Block.stripped, anchors]; rfl

theorem isLeaf : block'.isLeaf = block.isLeaf := by cases filled <;> rfl

theorem definition : [block'].filter Block.isDefinition = [block].filter Block.isDefinition := by
  cases filled <;> rfl

end Filled

section Fill

variable {σ : Type} {step : σ → Block → Block × σ} {forget : Text → Text}

/-- All that the step changes is spans, and anchors in what `forget` does not see. -/
def Fills (forget : Text → Text) (step : σ → Block → Block × σ) : Prop :=
  ∀ s block, Filled forget block (step s block).1

theorem assignStep_fills : Fills (fun _ => []) HeadingIndex.assignStep := by
  intro index block
  cases block with
  | heading => exact .heading _ _ rfl
  | _ => exact .same _

theorem resolveStep_fills (forget : Text → Text) (scope : Scope) :
    Fills forget (resolveStep scope) := by
  intro notes block
  cases block with
  | heading => exact .heading _ _ rfl
  | paragraph => exact .paragraph _
  | _ => exact .same _

mutual

theorem Fills.block (fills : Fills forget step) (s : σ) (block : Block) :
    (block.rewrite step s).1.stripped Prose.cleared forget =
      block.stripped Prose.cleared forget := by
  cases block with
  | list ordered start tight items =>
    exact congrArg (Block.list ordered start tight) (fills.items s items)
  | quote blocks => exact congrArg Block.quote (fills.stripped s blocks)
  | _ => exact (fills s _).stripped

/-- What such a walk puts into blocks can be taken out again. -/
theorem Fills.stripped (fills : Fills forget step) (s : σ) (blocks : List Block) :
    stripped Prose.cleared forget (rewrite step s blocks).1 =
      stripped Prose.cleared forget blocks := by
  cases blocks with
  | nil => rfl
  | cons block blocks =>
    exact congrArg₂ List.cons (fills.block s block) (fills.stripped _ blocks)

theorem Fills.items (fills : Fills forget step) (s : σ) (items : List (Item Block)) :
    strippedItems Prose.cleared forget (rewriteItems step s items).1 =
      strippedItems Prose.cleared forget items := by
  cases items with
  | nil => rfl
  | cons item items =>
    obtain ⟨bullet, blocks⟩ := item
    exact congrArg₂ (fun blocks items => ⟨bullet, blocks⟩ :: items) (fills.stripped s blocks)
      (fills.items _ items)

end

/-- Definitions stay as they are, the bodies of footnotes included. -/
theorem Fills.definitions (fills : Fills forget step) (s : σ) (blocks : List Block) :
    definitions (rewrite step s blocks).1 = definitions blocks := by
  have walks : Walks step fun _ before after _ =>
      after.filter Block.isDefinition = before.filter Block.isDefinition :=
    { idle := fun _ => rfl
      compose := fun left right => by rw [List.filter_append, List.filter_append, left, right]
      leaf := fun s block leaf => ⟨(fills s block).isLeaf.trans leaf, (fills s block).definition⟩
      list := fun _ _ _ _ _ _ => rfl
      quote := fun _ _ _ => rfl }
  exact walks.blocks s blocks

end Fill

end CommentMarkup
