import CommentMarkup.Tree.Walk

/-!
# Flows of blocks and spans

The spans and blocks that a document shows, and the induction for what a walk over blocks does:
`Walks.blocks`.
-/

namespace CommentMarkup

mutual

def Inline.flow : Inline → List Inline
  | .emphasis children => .emphasis children :: spanFlow children
  | .strong children => .strong children :: spanFlow children
  | .strikethrough children => .strikethrough children :: spanFlow children
  | .link target children => .link target children :: spanFlow children
  | span => [span]

def spanFlow : List Inline → List Inline
  | [] => []
  | span :: spans => span.flow ++ spanFlow spans

end

/-- The spans of a heading or paragraph, without those inside them. -/
def Block.inlines : Block → List Inline
  | .heading _ content _ | .paragraph content => content.spans
  | _ => []

def Block.spans : Block → List Inline
  | .heading _ content _ | .paragraph content => spanFlow content.spans
  | _ => []

/-- The blocks that a document shows: those in its flow, then those in the flow of its footnotes. -/
def Document.flow (document : Document) : List Block :=
  CommentMarkup.flow document.blocks ++
    document.footnotes.flatMap fun note => CommentMarkup.flow note.blocks

def Document.spans (document : Document) : List Inline := document.flow.flatMap Block.spans

theorem Block.spans_eq (block : Block) : block.spans = spanFlow block.inlines := by
  cases block <;> rfl

structure Document.WithoutRawHtml (document : Document) : Prop where
  blocks : ∀ tag html, Block.rawHtml tag html ∉ document.flow
  spans : ∀ t, Inline.rawHtml t ∉ document.spans

theorem flow_sublist {a b : List Block} (h : a.Sublist b) : (flow a).Sublist (flow b) := by
  induction h with
  | slnil => exact .slnil
  | cons block _ ih => exact ih.trans (List.sublist_append_right _ _)
  | cons_cons block _ ih => exact (List.Sublist.refl _).append ih

theorem all_of_sublist {α : Type} {p : α → Bool} {a b : List α} (h : a.Sublist b) (all : b.all p) :
    a.all p :=
  List.all_eq_true.mpr fun x member => List.all_eq_true.mp all x (h.subset member)

@[simp] theorem spanFlow_append (a b : List Inline) :
    spanFlow (a ++ b) = spanFlow a ++ spanFlow b := by
  induction a with
  | nil => rfl
  | cons span a ih => rw [List.cons_append, spanFlow, spanFlow, ih, List.append_assoc]

/-! ### Walks -/

def Block.isLeaf : Block → Bool
  | .list .. | .quote _ => false
  | _ => true

theorem Block.flow_leaf {block : Block} (leaf : block.isLeaf) : block.flow = [block] := by
  cases block <;> first | rfl | cases leaf

section Walk

variable {σ : Type} {step : σ → Block → Block × σ} {R : σ → List Block → List Block → σ → Prop}

/-- What a walk does to its state and to the flow of the blocks: a relation that composes, and that
holds of each step at a leaf. -/
structure Walks (step : σ → Block → Block × σ) (R : σ → List Block → List Block → σ → Prop) :
    Prop where
  idle : ∀ s, R s [] [] s
  compose : ∀ {s s' s'' a a' b b'}, R s a a' s' → R s' b b' s'' → R s (a ++ b) (a' ++ b') s''
  leaf : ∀ s {block}, block.isLeaf →
    (step s block).1.isLeaf ∧ R s [block] [(step s block).1] (step s block).2
  list : ∀ s ordered start tight items items',
    R s [.list ordered start tight items] [.list ordered start tight items'] s
  quote : ∀ s blocks blocks', R s [.quote blocks] [.quote blocks'] s

theorem Walks.at_leaf (walks : Walks step R) (s : σ) {block : Block} (leaf : block.isLeaf) :
    R s block.flow (block.rewrite step s).1.flow (block.rewrite step s).2 := by
  have rewritten : block.rewrite step s = step s block := by
    cases block <;> first | rfl | cases leaf
  obtain ⟨leaf', here⟩ := walks.leaf s leaf
  rwa [rewritten, Block.flow_leaf leaf, Block.flow_leaf leaf']

mutual

theorem Walks.block (walks : Walks step R) (s : σ) (block : Block) :
    R s block.flow (block.rewrite step s).1.flow (block.rewrite step s).2 := by
  cases block with
  | list ordered start tight items =>
    exact walks.compose (walks.list s ..) (walks.items s items)
  | quote blocks => exact walks.compose (walks.quote s ..) (walks.blocks s blocks)
  | _ => exact walks.at_leaf s rfl

theorem Walks.blocks (walks : Walks step R) (s : σ) (blocks : List Block) :
    R s (flow blocks) (flow (rewrite step s blocks).1) (rewrite step s blocks).2 := by
  cases blocks with
  | nil => exact walks.idle s
  | cons block blocks => exact walks.compose (walks.block s block) (walks.blocks _ blocks)

theorem Walks.items (walks : Walks step R) (s : σ) (items : List (Item Block)) :
    R s (itemsFlow items) (itemsFlow (rewriteItems step s items).1)
      (rewriteItems step s items).2 := by
  cases items with
  | nil => exact walks.idle s
  | cons item items =>
    obtain ⟨bullet, blocks⟩ := item
    exact walks.compose (walks.blocks s blocks) (walks.items _ items)

end

end Walk

end CommentMarkup
