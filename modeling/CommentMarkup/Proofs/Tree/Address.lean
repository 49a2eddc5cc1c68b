import CommentMarkup.Proofs.Tree.Flow
import Mathlib.Data.List.Lex

/-!
# Addresses of blocks

Where each block of the flow stands in the tree. Addresses compare like words in a dictionary, which
is document order: `addressed` lists the flow with its addresses in ascending order, and no other
blocks stand anywhere.
-/

namespace CommentMarkup

/-- The address leads to the block. It ends with the index of the block among its neighbours, behind
the indices of the quotes, and of the lists and their items, around it. -/
inductive Stands : List Block → List Nat → Block → Prop
  | here {blocks : List Block} {i : Nat} {block : Block} (present : blocks[i]? = some block) :
      Stands blocks [i] block
  | quote {blocks inner : List Block} {i : Nat} {address : List Nat} {block : Block}
      (present : blocks[i]? = some (.quote inner)) (inside : Stands inner address block) :
      Stands blocks (i :: address) block
  | item {blocks : List Block} {i j start : Nat} {ordered tight : Bool} {items : List (Item Block)}
      {item : Item Block} {address : List Nat} {block : Block}
      (present : blocks[i]? = some (.list ordered start tight items))
      (among : items[j]? = some item)
      (inside : Stands item.blocks address block) : Stands blocks (i :: j :: address) block

/-- The place one level further up, where the block around it has index `i`. -/
def under (i : Nat) (place : List Nat × Block) : List Nat × Block := (i :: place.1, place.2)

mutual

def Block.addressed (i : Nat) : Block → List (List Nat × Block)
  | .list ordered start tight items =>
    ([i], .list ordered start tight items) :: (itemsAddressed 0 items).map (under i)
  | .quote blocks => ([i], .quote blocks) :: (addressed 0 blocks).map (under i)
  | block => [([i], block)]

def addressed (i : Nat) : List Block → List (List Nat × Block)
  | [] => []
  | block :: blocks => block.addressed i ++ addressed (i + 1) blocks

def itemsAddressed (j : Nat) : List (Item Block) → List (List Nat × Block)
  | [] => []
  | ⟨_, blocks⟩ :: items => (addressed 0 blocks).map (under j) ++ itemsAddressed (j + 1) items

end

theorem map_under (i : Nat) (places : List (List Nat × Block)) :
    (places.map (under i)).map Prod.snd = places.map Prod.snd := by
  rw [List.map_map]
  rfl

mutual

theorem Block.map_addressed (i : Nat) (block : Block) :
    (block.addressed i).map Prod.snd = block.flow := by
  cases block with
  | list ordered start tight items =>
    rw [Block.addressed, Block.flow, List.map_cons, map_under, map_itemsAddressed]
  | quote blocks =>
    rw [Block.addressed, Block.flow, List.map_cons, map_under, CommentMarkup.map_addressed]
  | _ => rfl

theorem map_addressed (i : Nat) (blocks : List Block) :
    (addressed i blocks).map Prod.snd = flow blocks := by
  cases blocks with
  | nil => rfl
  | cons block blocks =>
    rw [addressed, flow, List.map_append, Block.map_addressed, map_addressed]

theorem map_itemsAddressed (j : Nat) (items : List (Item Block)) :
    (itemsAddressed j items).map Prod.snd = itemsFlow items := by
  cases items with
  | nil => rfl
  | cons item items =>
    obtain ⟨bullet, blocks⟩ := item
    rw [itemsAddressed, itemsFlow, List.map_append, map_under, map_addressed, map_itemsAddressed]

end

/-! ### The blocks that stand somewhere -/

theorem Stands.of_same {a b : List Block} {i k : Nat} {address : List Nat} {block : Block}
    (same : a[i]? = b[k]?) (stands : Stands a (i :: address) block) :
    Stands b (k :: address) block := by
  cases stands with
  | here present => exact .here (same.symm.trans present)
  | quote present inside => exact .quote (same.symm.trans present) inside
  | item present among inside => exact .item (same.symm.trans present) among inside

theorem not_stands_nil {address : List Nat} {block : Block} : ¬ Stands [] address block := by
  intro stands
  cases stands with
  | here present => cases present
  | quote present _ => cases present
  | item present _ _ => cases present

theorem Stands.filled {blocks : List Block} {address : List Nat} {block : Block}
    (stands : Stands blocks address block) : ∃ k rest, address = k :: rest := by
  cases stands with
  | here _ => exact ⟨_, _, rfl⟩
  | quote _ _ => exact ⟨_, _, rfl⟩
  | item _ _ _ => exact ⟨_, _, rfl⟩

theorem mem_map_under {i : Nat} {places : List (List Nat × Block)} {address : List Nat}
    {block : Block} :
    (address, block) ∈ places.map (under i) ↔
      ∃ rest, address = i :: rest ∧ (rest, block) ∈ places := by
  constructor
  · intro member
    obtain ⟨⟨rest, inner⟩, listed, eq⟩ := List.mem_map.mp member
    cases eq
    exact ⟨rest, rfl, listed⟩
  · rintro ⟨rest, rfl, listed⟩
    exact List.mem_map.mpr ⟨(rest, block), listed, rfl⟩

mutual

theorem Block.mem_addressed {i : Nat} {block inner : Block} {address : List Nat} :
    (address, inner) ∈ block.addressed i ↔
      ∃ rest, address = i :: rest ∧ Stands [block] (0 :: rest) inner := by
  have leaf {block : Block} (leaf : block.isLeaf) :
      (address, inner) ∈ [([i], block)] ↔
        ∃ rest, address = i :: rest ∧ Stands [block] (0 :: rest) inner := by
    rw [List.mem_singleton]
    constructor
    · rintro ⟨⟩
      exact ⟨[], rfl, .here rfl⟩
    · rintro ⟨rest, rfl, stands⟩
      cases stands with
      | here present =>
        cases present
        rfl
      | quote present _ =>
        cases present
        cases leaf
      | item present _ _ =>
        cases present
        cases leaf
  cases block with
  | list ordered start tight items =>
    rw [Block.addressed, List.mem_cons, mem_map_under]
    constructor
    · rintro (⟨⟨⟩⟩ | ⟨rest, rfl, member⟩)
      · exact ⟨[], rfl, .here rfl⟩
      · rw [mem_itemsAddressed] at member
        obtain ⟨k, item, rest, rfl, among, inside⟩ := member
        rw [Nat.zero_add]
        exact ⟨_, rfl, .item rfl among inside⟩
    · rintro ⟨rest, rfl, stands⟩
      cases stands with
      | here present =>
        cases present
        exact .inl rfl
      | quote present _ => cases present
      | @item _ _ j _ _ _ _ item rest _ present among inside =>
        cases present
        refine .inr ⟨_, rfl, ?_⟩
        rw [mem_itemsAddressed]
        exact ⟨j, item, rest, by rw [Nat.zero_add], among, inside⟩
  | quote blocks =>
    rw [Block.addressed, List.mem_cons, mem_map_under]
    constructor
    · rintro (⟨⟨⟩⟩ | ⟨rest, rfl, member⟩)
      · exact ⟨[], rfl, .here rfl⟩
      · rw [CommentMarkup.mem_addressed] at member
        obtain ⟨k, rest, rfl, inside⟩ := member
        rw [Nat.zero_add]
        exact ⟨_, rfl, .quote rfl inside⟩
    · rintro ⟨rest, rfl, stands⟩
      cases stands with
      | here present =>
        cases present
        exact .inl rfl
      | quote present inside =>
        cases present
        obtain ⟨k, rest, rfl⟩ := inside.filled
        refine .inr ⟨_, rfl, ?_⟩
        rw [CommentMarkup.mem_addressed]
        exact ⟨k, rest, by rw [Nat.zero_add], inside⟩
      | item present _ _ => cases present
  | _ => exact leaf rfl

theorem mem_addressed {i : Nat} {blocks : List Block} {inner : Block} {address : List Nat} :
    (address, inner) ∈ addressed i blocks ↔
      ∃ k rest, address = (i + k) :: rest ∧ Stands blocks (k :: rest) inner := by
  cases blocks with
  | nil =>
    refine ⟨fun none => (List.not_mem_nil none).elim, ?_⟩
    rintro ⟨k, rest, -, stands⟩
    exact (not_stands_nil stands).elim
  | cons block blocks =>
    rw [addressed, List.mem_append, Block.mem_addressed, mem_addressed]
    constructor
    · rintro (⟨rest, rfl, stands⟩ | ⟨k, rest, rfl, stands⟩)
      · exact ⟨0, rest, rfl, .of_same (by rfl) stands⟩
      · refine ⟨k + 1, rest, ?_, .of_same (by rfl) stands⟩
        rw [Nat.add_right_comm, Nat.add_assoc]
    · rintro ⟨k, rest, rfl, stands⟩
      cases k with
      | zero => exact .inl ⟨rest, rfl, .of_same (by rfl) stands⟩
      | succ k =>
        refine .inr ⟨k, rest, ?_, .of_same (by rfl) stands⟩
        rw [Nat.add_right_comm, Nat.add_assoc]

theorem mem_itemsAddressed {j : Nat} {items : List (Item Block)} {inner : Block}
    {address : List Nat} :
    (address, inner) ∈ itemsAddressed j items ↔
      ∃ k item rest, address = (j + k) :: rest ∧ items[k]? = some item ∧
        Stands item.blocks rest inner := by
  cases items with
  | nil =>
    refine ⟨fun none => (List.not_mem_nil none).elim, ?_⟩
    rintro ⟨k, item, rest, -, among, -⟩
    cases among
  | cons first items =>
    obtain ⟨bullet, blocks⟩ := first
    rw [itemsAddressed, List.mem_append, mem_map_under, mem_itemsAddressed]
    constructor
    · rintro (⟨rest, rfl, member⟩ | ⟨k, item, rest, rfl, among, stands⟩)
      · rw [mem_addressed] at member
        obtain ⟨k, rest, rfl, stands⟩ := member
        rw [Nat.zero_add]
        exact ⟨0, ⟨bullet, blocks⟩, k :: rest, rfl, rfl, stands⟩
      · refine ⟨k + 1, item, rest, ?_, among, stands⟩
        rw [Nat.add_right_comm, Nat.add_assoc]
    · rintro ⟨k, item, rest, rfl, among, stands⟩
      cases k with
      | zero =>
        cases among
        obtain ⟨k, rest, rfl⟩ := stands.filled
        refine .inl ⟨_, rfl, ?_⟩
        rw [mem_addressed]
        exact ⟨k, rest, by rw [Nat.zero_add], stands⟩
      | succ k =>
        refine .inr ⟨k, item, rest, ?_, among, stands⟩
        rw [Nat.add_right_comm, Nat.add_assoc]

end

theorem mem_addressed_zero {blocks : List Block} {inner : Block} {address : List Nat} :
    (address, inner) ∈ addressed 0 blocks ↔ Stands blocks address inner := by
  rw [mem_addressed]
  constructor
  · rintro ⟨k, rest, rfl, stands⟩
    rwa [Nat.zero_add]
  · intro stands
    obtain ⟨k, rest, rfl⟩ := stands.filled
    exact ⟨k, rest, by rw [Nat.zero_add], stands⟩

/-! ### Document order -/

def Ascending (places : List (List Nat × Block)) : Prop := places.Pairwise fun a b => a.1 < b.1

theorem Ascending.under {places : List (List Nat × Block)} (ascending : Ascending places)
    (i : Nat) :
    Ascending (places.map (under i)) :=
  List.pairwise_map.mpr
    (ascending.imp fun earlier => List.cons_lt_cons_iff.mpr (.inr ⟨rfl, earlier⟩))

theorem ascending_under {places : List (List Nat × Block)} (ascending : Ascending places)
    (filled : ∀ place ∈ places, place.1 ≠ []) (i : Nat) (block : Block) :
    Ascending (([i], block) :: places.map (CommentMarkup.under i)) := by
  refine List.pairwise_cons.mpr ⟨fun place member => ?_, ascending.under i⟩
  obtain ⟨inner, listed, rfl⟩ := List.mem_map.mp member
  obtain ⟨k, rest, eq⟩ := List.exists_cons_of_ne_nil (filled inner listed)
  simp [CommentMarkup.under, eq]

theorem lt_of_heads {i k : Nat} (before : i < k) (a b : List Nat) : i :: a < k :: b :=
  List.cons_lt_cons_iff.mpr (.inl before)

mutual

theorem Block.ascending_addressed (i : Nat) (block : Block) : Ascending (block.addressed i) := by
  cases block with
  | list ordered start tight items =>
    refine ascending_under (ascending_itemsAddressed 0 items) ?_ i _
    rintro ⟨address, inner⟩ member
    obtain ⟨k, item, rest, rfl, -, -⟩ := mem_itemsAddressed.mp member
    exact List.cons_ne_nil _ _
  | quote blocks =>
    refine ascending_under (CommentMarkup.ascending_addressed 0 blocks) ?_ i _
    rintro ⟨address, inner⟩ member
    obtain ⟨k, rest, rfl, -⟩ := CommentMarkup.mem_addressed.mp member
    exact List.cons_ne_nil _ _
  | _ => exact List.pairwise_singleton _ _

/-- The flow is listed in document order. -/
theorem ascending_addressed (i : Nat) (blocks : List Block) : Ascending (addressed i blocks) := by
  cases blocks with
  | nil => exact .nil
  | cons block blocks =>
    refine List.pairwise_append.mpr
      ⟨block.ascending_addressed i, ascending_addressed (i + 1) blocks, ?_⟩
    rintro ⟨a, inner⟩ left ⟨b, outer⟩ right
    obtain ⟨rest, rfl, -⟩ := Block.mem_addressed.mp left
    obtain ⟨k, rest', rfl, -⟩ := mem_addressed.mp right
    exact lt_of_heads (by omega) _ _

theorem ascending_itemsAddressed (j : Nat) (items : List (Item Block)) :
    Ascending (itemsAddressed j items) := by
  cases items with
  | nil => exact .nil
  | cons item items =>
    obtain ⟨bullet, blocks⟩ := item
    refine List.pairwise_append.mpr
      ⟨(ascending_addressed 0 blocks).under j, ascending_itemsAddressed (j + 1) items, ?_⟩
    rintro ⟨a, inner⟩ left ⟨b, outer⟩ right
    obtain ⟨rest, rfl, -⟩ := mem_map_under.mp left
    obtain ⟨k, item, rest', rfl, -, -⟩ := mem_itemsAddressed.mp right
    exact lt_of_heads (by omega) _ _

end

end CommentMarkup
