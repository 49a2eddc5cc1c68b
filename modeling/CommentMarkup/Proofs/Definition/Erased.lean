import CommentMarkup.Page
import CommentMarkup.Resolution

/-!
# Blocks without their definitions

`erase` takes the definitions out of the flow of blocks. Neither the walks that give headings their
anchors and prose its spans nor the markup of the blocks can tell the difference.
-/

namespace CommentMarkup

mutual

/-- The block without the definitions in its flow. -/
def Block.erase : Block → Block
  | .list ordered start tight items => .list ordered start tight (eraseItems items)
  | .quote blocks => .quote (erase blocks)
  | block => block

def erase : List Block → List Block
  | [] => []
  | block :: blocks => if block.isDefinition then erase blocks else block.erase :: erase blocks

def eraseItems : List (Item Block) → List (Item Block)
  | [] => []
  | ⟨bullet, blocks⟩ :: items => ⟨bullet, erase blocks⟩ :: eraseItems items

end

theorem erase_definition {block : Block} (defines : block.isDefinition) (blocks : List Block) :
    erase (block :: blocks) = erase blocks := by
  rw [erase, if_pos defines]

theorem erase_shown {block : Block} (shown : ¬ block.isDefinition) (blocks : List Block) :
    erase (block :: blocks) = block.erase :: erase blocks := by
  rw [erase, if_neg shown]

@[simp] theorem Block.isDefinition_erase (block : Block) :
    block.erase.isDefinition = block.isDefinition := by
  cases block <;> rfl

theorem all_isDefinition_erase (blocks : List Block) :
    (erase blocks).all Block.isDefinition = blocks.all Block.isDefinition := by
  induction blocks with
  | nil => rfl
  | cons block blocks ih =>
    by_cases defines : block.isDefinition
    · rw [erase_definition defines, ih, List.all_cons, defines, Bool.true_and]
    · simp [erase_shown defines, defines]

/-! ### Walks -/

section Walk

variable {σ : Type} {step : σ → Block → Block × σ}

structure Spares (step : σ → Block → Block × σ) : Prop where
  definition : ∀ s (block : Block), block.isDefinition → step s block = (block, s)
  shown : ∀ s (block : Block), ¬ block.isDefinition → block.erase = block →
    ¬ (step s block).1.isDefinition ∧ (step s block).1.erase = (step s block).1

theorem Spares.rewrite_definition (spares : Spares step) (s : σ) {block : Block}
    (defines : block.isDefinition) : block.rewrite step s = (block, s) := by
  cases block with
  | abbreviationDef | referenceDef | footnoteDef => exact spares.definition s _ rfl
  | _ => cases defines

mutual

theorem Spares.rewrite_shown (spares : Spares step) (s : σ) {block : Block}
    (shown : ¬ block.isDefinition) :
    ¬ (block.rewrite step s).1.isDefinition ∧ block.erase.rewrite step s =
      ((block.rewrite step s).1.erase, (block.rewrite step s).2) := by
  cases block with
  | list ordered start tight items =>
    refine ⟨by simp [Block.rewrite, Block.isDefinition], ?_⟩
    simp [Block.rewrite, Block.erase, spares.rewriteItems_erase s items]
  | quote blocks =>
    refine ⟨by simp [Block.rewrite, Block.isDefinition], ?_⟩
    simp [Block.rewrite, Block.erase, spares.rewrite_erase s blocks]
  | abbreviationDef | referenceDef | footnoteDef => exact absurd rfl shown
  | _ =>
    obtain ⟨other, fixed⟩ := spares.shown s _ shown rfl
    exact ⟨other, Prod.ext fixed.symm rfl⟩

theorem Spares.rewrite_erase (spares : Spares step) (s : σ) (blocks : List Block) :
    rewrite step s (erase blocks) = (erase (rewrite step s blocks).1, (rewrite step s blocks).2) := by
  cases blocks with
  | nil => rfl
  | cons block blocks =>
    by_cases defines : block.isDefinition
    · simp only [rewrite, spares.rewrite_definition s defines, erase_definition defines]
      exact spares.rewrite_erase s blocks
    · obtain ⟨other, same⟩ := spares.rewrite_shown s defines
      simp only [rewrite, erase_shown defines, erase_shown other, same,
        spares.rewrite_erase _ blocks]

theorem Spares.rewriteItems_erase (spares : Spares step) (s : σ) (items : List (Item Block)) :
    rewriteItems step s (eraseItems items) =
      (eraseItems (rewriteItems step s items).1, (rewriteItems step s items).2) := by
  cases items with
  | nil => rfl
  | cons item items =>
    obtain ⟨bullet, blocks⟩ := item
    simp only [rewriteItems, eraseItems, spares.rewrite_erase s blocks,
      spares.rewriteItems_erase _ items]

end

/-- A walk with a step that spares definitions goes alike over blocks that differ in these alone. -/
theorem Spares.rewrite_same (spares : Spares step) (s : σ) {blocks blocks' : List Block}
    (same : erase blocks = erase blocks') :
    erase (rewrite step s blocks).1 = erase (rewrite step s blocks').1 ∧
      (rewrite step s blocks).2 = (rewrite step s blocks').2 := by
  have left := spares.rewrite_erase s blocks
  rw [same, spares.rewrite_erase s blocks'] at left
  exact ⟨(congrArg Prod.fst left).symm, (congrArg Prod.snd left).symm⟩

end Walk

theorem assignStep_spares : Spares HeadingIndex.assignStep where
  definition s block defines := by cases block <;> first | rfl | cases defines
  shown s block shown fixed := by
    cases block with
    | heading => exact ⟨nofun, rfl⟩
    | _ => exact ⟨shown, fixed⟩

theorem resolveStep_spares (scope : Scope) : Spares (resolveStep scope) where
  definition s block defines := by cases block <;> first | rfl | cases defines
  shown s block shown fixed := by
    cases block with
    | heading | paragraph => exact ⟨nofun, rfl⟩
    | _ => exact ⟨shown, fixed⟩

/-! ### Entries -/

mutual

theorem Block.entries_erase (block : Block) :
    block.erase.flow.filterMap Block.entry? = block.flow.filterMap Block.entry? := by
  cases block with
  | list ordered start tight items => exact itemsEntries_erase items
  | quote blocks => exact entries_erase blocks
  | _ => rfl

theorem entries_erase (blocks : List Block) : entries (erase blocks) = entries blocks := by
  cases blocks with
  | nil => rfl
  | cons block blocks =>
    have later := entries_erase blocks
    unfold entries at later ⊢
    by_cases defines : block.isDefinition
    · have silent : block.flow.filterMap Block.entry? = [] := by
        cases block <;> first | rfl | cases defines
      rw [erase_definition defines, flow, List.filterMap_append, silent, List.nil_append, later]
    · rw [erase_shown defines, flow, flow, List.filterMap_append, List.filterMap_append,
        Block.entries_erase block, later]

theorem itemsEntries_erase (items : List (Item Block)) :
    (itemsFlow (eraseItems items)).filterMap Block.entry? =
      (itemsFlow items).filterMap Block.entry? := by
  cases items with
  | nil => rfl
  | cons item items =>
    obtain ⟨bullet, blocks⟩ := item
    have body := entries_erase blocks
    unfold entries at body
    rw [eraseItems, itemsFlow, itemsFlow, List.filterMap_append, List.filterMap_append, body,
      itemsEntries_erase items]

end

/-! ### Markup -/

namespace Page

open Html

theorem blockNodes_definition (outline : List Node) {block : Block}
    (defines : block.isDefinition) : blockNodes outline block = [] := by
  cases block with
  | abbreviationDef | referenceDef | footnoteDef => rfl
  | _ => cases defines

theorem itemBody_definition (outline : List Node) (bullet : Bullet) (tight : Bool) {block : Block}
    (defines : block.isDefinition) (blocks : List Block) :
    itemBody outline bullet tight (block :: blocks) = itemBody outline bullet tight blocks := by
  cases block with
  | abbreviationDef | referenceDef | footnoteDef => rfl
  | _ => cases defines

mutual

theorem blockNodes_erase (outline : List Node) (block : Block) :
    blockNodes outline block.erase = blockNodes outline block := by
  cases block with
  | list ordered start tight items =>
    simp only [Block.erase, blockNodes, itemsNodes_erase outline tight items]
  | quote blocks => simp only [Block.erase, blockNodes, blocksNodes_erase outline blocks]
  | _ => rfl

theorem blocksNodes_erase (outline : List Node) (blocks : List Block) :
    blocksNodes outline (erase blocks) = blocksNodes outline blocks := by
  cases blocks with
  | nil => rfl
  | cons block blocks =>
    by_cases defines : block.isDefinition
    · rw [erase_definition defines, blocksNodes, blockNodes_definition outline defines,
        List.nil_append, blocksNodes_erase outline blocks]
    · rw [erase_shown defines, blocksNodes, blocksNodes, blockNodes_erase outline block,
        blocksNodes_erase outline blocks]

theorem itemBody_erase (outline : List Node) (bullet : Bullet) (tight : Bool)
    (blocks : List Block) :
    itemBody outline bullet tight (erase blocks) = itemBody outline bullet tight blocks := by
  cases blocks with
  | nil => rfl
  | cons block blocks =>
    by_cases defines : block.isDefinition
    · rw [erase_definition defines, itemBody_definition outline bullet tight defines,
        itemBody_erase outline bullet tight blocks]
    · have here := blockNodes_erase outline block
      have later := blocksNodes_erase outline blocks
      rw [erase_shown defines]
      cases block with
      | abbreviationDef | referenceDef | footnoteDef => exact absurd rfl defines
      | paragraph content =>
        change itemBody outline bullet tight (.paragraph content :: erase blocks) = _
        rw [itemBody, itemBody, later, all_isDefinition_erase]
      | _ => simp_all only [Block.erase, itemBody]

theorem itemsNodes_erase (outline : List Node) (tight : Bool) (items : List (Item Block)) :
    itemsNodes outline tight (eraseItems items) = itemsNodes outline tight items := by
  cases items with
  | nil => rfl
  | cons item items =>
    obtain ⟨bullet, blocks⟩ := item
    rw [eraseItems, itemsNodes, itemsNodes, itemBody_erase outline bullet tight blocks,
      itemsNodes_erase outline tight items]

end

end Page
end CommentMarkup
