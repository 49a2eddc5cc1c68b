import CommentMarkup.Tree

/-!
# Walks over blocks

The flow of a document is its blocks in document order, those of list items and quotes included. The
bodies of footnote definitions are not part of it. `flow` lists it, `rewrite` changes its blocks one
by one, carrying a state along.
-/

namespace CommentMarkup

mutual

/-- A block and the blocks inside it, in document order. -/
def Block.flow : Block → List Block
  | .list ordered start tight items => .list ordered start tight items :: itemsFlow items
  | .quote blocks => .quote blocks :: flow blocks
  | block => [block]

/-- The blocks and those inside them, in document order. -/
def flow : List Block → List Block
  | [] => []
  | block :: blocks => block.flow ++ flow blocks

/-- The blocks of the items and those inside them, in document order. -/
def itemsFlow : List (Item Block) → List Block
  | [] => []
  | ⟨_, blocks⟩ :: items => flow blocks ++ itemsFlow items

end

section Rewrite

variable {σ : Type} (step : σ → Block → Block × σ)

mutual

/-- The block with `step` applied to it, or to what it holds if it is a list or a quote. -/
def Block.rewrite (s : σ) : Block → Block × σ
  | .list ordered start tight items =>
    let (items, s) := rewriteItems s items
    (.list ordered start tight items, s)
  | .quote blocks =>
    let (blocks, s) := rewrite s blocks
    (.quote blocks, s)
  | block => step s block

/-- The blocks with `step` applied in document order, from state `s`. -/
def rewrite (s : σ) : List Block → List Block × σ
  | [] => ([], s)
  | block :: blocks =>
    let (block, s) := block.rewrite s
    let (blocks, s) := rewrite s blocks
    (block :: blocks, s)

/-- The items with `step` applied to their blocks in document order, from state `s`. -/
def rewriteItems (s : σ) : List (Item Block) → List (Item Block) × σ
  | [] => ([], s)
  | ⟨bullet, blocks⟩ :: items =>
    let (blocks, s) := rewrite s blocks
    let (items, s) := rewriteItems s items
    (⟨bullet, blocks⟩ :: items, s)

end

end Rewrite

end CommentMarkup
