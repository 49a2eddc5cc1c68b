import CommentMarkup.Proofs.Tree.Flow

/-!
# Nested blocks

All blocks of a tree. Besides the flow they are the blocks in the bodies of footnote definitions, and
in the footnote definitions there.
-/

namespace CommentMarkup

mutual

def Block.nested : Block → List Block
  | .list ordered start tight items => .list ordered start tight items :: itemsNested items
  | .quote blocks => .quote blocks :: nested blocks
  | .footnoteDef label body => .footnoteDef label body :: nested body
  | block => [block]

def nested : List Block → List Block
  | [] => []
  | block :: blocks => block.nested ++ nested blocks

def itemsNested : List (Item Block) → List Block
  | [] => []
  | ⟨_, blocks⟩ :: items => nested blocks ++ itemsNested items

end

mutual

theorem Block.flow_subset_nested (block : Block) : block.flow ⊆ block.nested := by
  cases block with
  | list ordered start tight items => exact List.cons_subset_cons _ (itemsFlow_subset_nested items)
  | quote blocks => exact List.cons_subset_cons _ (flow_subset_nested blocks)
  | footnoteDef label body => exact List.cons_subset_cons _ (List.nil_subset _)
  | _ => exact List.Subset.refl _

theorem flow_subset_nested (blocks : List Block) : flow blocks ⊆ nested blocks := by
  cases blocks with
  | nil => exact List.Subset.refl _
  | cons block blocks =>
    exact List.append_subset.mpr ⟨List.subset_append_of_subset_left _ block.flow_subset_nested,
      List.subset_append_of_subset_right _ (flow_subset_nested blocks)⟩

theorem itemsFlow_subset_nested (items : List (Item Block)) :
    itemsFlow items ⊆ itemsNested items := by
  cases items with
  | nil => exact List.Subset.refl _
  | cons item items =>
    obtain ⟨bullet, blocks⟩ := item
    exact List.append_subset.mpr
      ⟨List.subset_append_of_subset_left _ (flow_subset_nested blocks),
        List.subset_append_of_subset_right _ (itemsFlow_subset_nested items)⟩

end

section Inner

variable {inner : Block}

mutual

theorem Block.nested_subset {block : Block} (member : inner ∈ block.nested) :
    inner.nested ⊆ block.nested := by
  cases block with
  | list ordered start tight items =>
    rcases List.mem_cons.mp member with rfl | inside
    · exact List.Subset.refl _
    · exact List.subset_cons_of_subset _ (itemsNested_subset inside)
  | quote blocks | footnoteDef label blocks =>
    rcases List.mem_cons.mp member with rfl | inside
    · exact List.Subset.refl _
    · exact List.subset_cons_of_subset _ (nested_subset inside)
  | _ =>
    rw [List.mem_singleton.mp member]
    exact List.Subset.refl _

/-- What a nested block holds is nested too. -/
theorem nested_subset {blocks : List Block} (member : inner ∈ nested blocks) :
    inner.nested ⊆ nested blocks := by
  cases blocks with
  | nil => cases member
  | cons block blocks =>
    rcases List.mem_append.mp member with here | later
    · exact List.subset_append_of_subset_left _ (Block.nested_subset here)
    · exact List.subset_append_of_subset_right _ (nested_subset later)

theorem itemsNested_subset {items : List (Item Block)} (member : inner ∈ itemsNested items) :
    inner.nested ⊆ itemsNested items := by
  cases items with
  | nil => cases member
  | cons item items =>
    obtain ⟨bullet, blocks⟩ := item
    rcases List.mem_append.mp member with here | later
    · exact List.subset_append_of_subset_left _ (nested_subset here)
    · exact List.subset_append_of_subset_right _ (itemsNested_subset later)

end

end Inner

def InBody (inner : Block) (blocks : List Block) : Prop :=
  ∃ label body, Block.footnoteDef label body ∈ blocks ∧ inner ∈ flow body

theorem InBody.mono {inner : Block} {a b : List Block} (inside : InBody inner a) (part : a ⊆ b) :
    InBody inner b := by
  obtain ⟨label, body, listed, inner⟩ := inside
  exact ⟨label, body, part listed, inner⟩

section Parts

variable {inner : Block}

mutual

theorem Block.flow_or_inBody {block : Block} (member : inner ∈ block.nested) :
    inner ∈ block.flow ∨ InBody inner block.nested := by
  cases block with
  | list ordered start tight items =>
    rcases List.mem_cons.mp member with rfl | inside
    · exact .inl List.mem_cons_self
    · exact (items_flow_or_inBody inside).imp (List.mem_cons_of_mem _)
        (·.mono (List.subset_cons_self _ _))
  | quote blocks =>
    rcases List.mem_cons.mp member with rfl | inside
    · exact .inl List.mem_cons_self
    · exact (flow_or_inBody inside).imp (List.mem_cons_of_mem _)
        (·.mono (List.subset_cons_self _ _))
  | footnoteDef label body =>
    rcases List.mem_cons.mp member with rfl | inside
    · exact .inl List.mem_cons_self
    · rcases flow_or_inBody inside with flows | deeper
      · exact .inr ⟨label, body, List.mem_cons_self, flows⟩
      · exact .inr (deeper.mono (List.subset_cons_self _ _))
  | _ => exact .inl member

theorem flow_or_inBody {blocks : List Block} (member : inner ∈ nested blocks) :
    inner ∈ flow blocks ∨ InBody inner (nested blocks) := by
  cases blocks with
  | nil => cases member
  | cons block blocks =>
    rcases List.mem_append.mp member with here | later
    · exact (Block.flow_or_inBody here).imp (List.mem_append_left _)
        (·.mono (List.subset_append_left _ _))
    · exact (flow_or_inBody later).imp (List.mem_append_right _)
        (·.mono (List.subset_append_right _ _))

theorem items_flow_or_inBody {items : List (Item Block)} (member : inner ∈ itemsNested items) :
    inner ∈ itemsFlow items ∨ InBody inner (itemsNested items) := by
  cases items with
  | nil => cases member
  | cons item items =>
    obtain ⟨bullet, blocks⟩ := item
    rcases List.mem_append.mp member with here | later
    · exact (flow_or_inBody here).imp (List.mem_append_left _)
        (·.mono (List.subset_append_left _ _))
    · exact (items_flow_or_inBody later).imp (List.mem_append_right _)
        (·.mono (List.subset_append_right _ _))

end

end Parts

/-- A nested block is in the flow or in the flow of the body of a nested footnote definition. -/
theorem mem_nested_iff {inner : Block} {blocks : List Block} :
    inner ∈ nested blocks ↔ inner ∈ flow blocks ∨ InBody inner (nested blocks) := by
  refine ⟨flow_or_inBody, ?_⟩
  rintro (flows | ⟨label, body, listed, inside⟩)
  · exact flow_subset_nested blocks flows
  · exact nested_subset listed (List.mem_cons_of_mem _ (flow_subset_nested body inside))

end CommentMarkup
