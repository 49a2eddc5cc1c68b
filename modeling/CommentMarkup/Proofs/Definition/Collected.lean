import CommentMarkup.Block.Reader
import CommentMarkup.Options
import CommentMarkup.Proofs.Block.TextLine
import CommentMarkup.Proofs.Tree.Nested
import CommentMarkup.Reference
import Mathlib

/-!
# Collected definitions

Which keys the tables of a document have. They are those of the definitions in its flow; a definition
in the body of a footnote is looked up in vain, unless the flow defines its key as well.
-/

namespace CommentMarkup

/-- What a definition defines, and the form of its label or term in which it is looked up. -/
def Block.key? : Block → Option (LabelKind × Text)
  | .referenceDef label _ => some (.link, normalizeLabel label)
  | .footnoteDef label _ => some (.footnote, normalizeLabel label)
  | .abbreviationDef term _ => some (.abbreviation, term)
  | _ => none

namespace References

def keys (references : References) : LabelKind → List Text
  | .link => references.links.map Prod.fst
  | .footnote => references.footnotes.map Prod.fst
  | .abbreviation => references.abbreviations.map Prod.fst

theorem mem_of_lookup_isSome {α : Type} {table : List (Text × α)} {key : Text}
    (known : (table.lookup key).isSome) : key ∈ table.map Prod.fst := by
  obtain ⟨entry, listed, same⟩ := List.lookup_isSome_iff.mp known
  rw [beq_iff_eq.mp same]
  exact List.mem_map_of_mem listed

/-- A definition adds its key, if that has no entry yet, and nothing else. -/
theorem mem_keys_register {state : References × List Warning} {block : Block} {kind : LabelKind}
    {key : Text} :
    key ∈ (register state block).1.keys kind ↔
      key ∈ state.1.keys kind ∨ block.key? = some (kind, key) := by
  obtain ⟨references, warnings⟩ := state
  cases block with
  | referenceDef label _ | footnoteDef label _ | abbreviationDef label _ =>
    rw [register]
    dsimp only
    split
    · rename_i known
      refine (or_iff_left_of_imp fun defines => ?_).symm
      cases defines
      exact mem_of_lookup_isSome known
    · cases kind <;> simp [keys, Block.key?, eq_comm]
  | _ => simp [register, Block.key?]

theorem mem_keys_foldl {blocks : List Block} {state : References × List Warning}
    {kind : LabelKind} {key : Text} :
    key ∈ (blocks.foldl register state).1.keys kind ↔
      key ∈ state.1.keys kind ∨ ∃ block ∈ blocks, block.key? = some (kind, key) := by
  induction blocks generalizing state with
  | nil => simp
  | cons block blocks ih =>
    rw [List.foldl_cons, ih, mem_keys_register, or_assoc]
    simp

/-- The tables have the keys of the definitions in the flow. -/
theorem mem_keys_collect {blocks : List Block} {kind : LabelKind} {key : Text} :
    key ∈ (collect blocks).1.keys kind ↔
      ∃ block ∈ flow blocks, block.key? = some (kind, key) := by
  have none : key ∉ empty.keys kind := by cases kind <;> exact List.not_mem_nil
  have sorted : key ∈ (collect blocks).1.keys kind ↔
      key ∈ ((flow blocks).foldl register (empty, [])).1.keys kind := by
    cases kind with
    | link | footnote => rfl
    | abbreviation => exact ((List.mergeSort_perm _ _).map Prod.fst).mem_iff
  rw [sorted, mem_keys_foldl, or_iff_right none]

end References

def References.Covers (references : References) (block : Block) : Prop :=
  ∀ kind key, block.key? = some (kind, key) → key ∈ references.keys kind

theorem covers_flow {blocks : List Block} {block : Block} (shown : block ∈ flow blocks) :
    (References.collect blocks).1.Covers block :=
  fun _ _ defines => References.mem_keys_collect.mpr ⟨block, shown, defines⟩

/-- Every definition in the flow is collected. All definitions of the tree are, at any depth, exactly
when each one in the body of a footnote has its key from a definition in the flow. -/
theorem definitions_collected_iff (blocks : List Block) :
    (∀ block ∈ flow blocks, (References.collect blocks).1.Covers block) ∧
    ((∀ block ∈ nested blocks, (References.collect blocks).1.Covers block) ↔
      ∀ label body, .footnoteDef label body ∈ nested blocks → ∀ inner ∈ flow body,
        ∀ kind key, inner.key? = some (kind, key) →
          ∃ block ∈ flow blocks, block.key? = some (kind, key)) := by
  refine ⟨fun _ => covers_flow, fun all label body listed inner inside kind key defines => ?_,
    fun bodies block member => ?_⟩
  · have within : inner ∈ nested blocks := mem_nested_iff.mpr (.inr ⟨label, body, listed, inside⟩)
    exact References.mem_keys_collect.mp (all inner within kind key defines)
  · rcases mem_nested_iff.mp member with flows | ⟨label, body, listed, inside⟩
    · exact covers_flow flows
    · intro kind key defines
      exact References.mem_keys_collect.mpr (bodies label body listed block inside kind key defines)

def repeatedBlocks : List Block :=
  [.list false 1 true [⟨.plain, [.referenceDef "b".toList ⟨"/u".toList, none⟩,
    .footnoteDef "a".toList [.referenceDef " B".toList ⟨"/v".toList, none⟩]]⟩]]

theorem definitions_collected_repeated :
    (∀ block ∈ nested repeatedBlocks, (References.collect repeatedBlocks).1.Covers block) ∧
    normalizeLabel " B".toList ∈ (References.collect repeatedBlocks).1.keys .link := by
  have all : ∀ block ∈ nested repeatedBlocks, (References.collect repeatedBlocks).1.Covers block := by
    apply (definitions_collected_iff repeatedBlocks).2.mpr
    intro label body listed inner inside kind key defines
    have same : normalizeLabel " B".toList = normalizeLabel "b".toList := by decide +kernel
    obtain ⟨rfl, rfl⟩ : label = "a".toList ∧
        body = [.referenceDef " B".toList ⟨"/v".toList, none⟩] := by
      simpa [repeatedBlocks, nested, Block.nested, itemsNested] using listed
    rw [List.mem_singleton.mp inside, Block.key?, same] at defines
    exact ⟨.referenceDef "b".toList ⟨"/u".toList, none⟩,
      by simp [repeatedBlocks, flow, Block.flow, itemsFlow], defines⟩
  refine ⟨all, all (.referenceDef " B".toList ⟨"/v".toList, none⟩) ?_ _ _ rfl⟩
  simp [repeatedBlocks, nested, Block.nested, itemsNested]

def buriedSample : Text := "[b]\n\n[^a]: [b]: /u".toList

def buriedBlocks : List Block :=
  [paragraph ["[b]".toList],
    .footnoteDef "a".toList [.referenceDef "b".toList ⟨"/u".toList, none⟩]]

theorem readDocument_buriedSample :
    readDocument Options.default.fence buriedSample = .ok buriedBlocks := by
  have cut : lines buriedSample = ["[b]".toList, [], "[^a]: [b]: /u".toList] := by decide
  have text : blockAt Options.default.fence .document "[b]".toList [[], "[^a]: [b]: /u".toList] =
      .leaf (paragraph ["[b]".toList]) 0 :=
    blockAt_text (by decide +kernel) (by decide)
  have note : blockAt Options.default.fence .document "[^a]: [b]: /u".toList [] =
      .footnote "a".toList ["[b]: /u".toList] 0 :=
    blockAt_definition (by decide) (by decide) (by decide) (by decide) (by cbv)
  have body : lines (unlines ["[b]: /u".toList]) = ["[b]: /u".toList] := by decide
  have link : blockAt Options.default.fence .item "[b]: /u".toList [] =
      .leaf (.referenceDef "b".toList ⟨"/u".toList, none⟩) 0 :=
    blockAt_definition (by decide) (by decide) (by decide) (by decide) (by cbv)
  rw [readDocument, cut, readBlocks_leaf (by decide) text, List.drop_zero, readBlocks_blank rfl,
    readBlocks_footnote (by decide) note, body, readBlocks_leaf (by decide) link, List.drop_nil,
    readBlocks_nil, readBlocks_nil]
  rfl

/-- The link is defined in the tree, and its label is not in the table. -/
theorem buried_definition_missing :
    readDocument Options.default.fence buriedSample = .ok buriedBlocks ∧
    .referenceDef "b".toList ⟨"/u".toList, none⟩ ∈ nested buriedBlocks ∧
    normalizeLabel "b".toList ∉ (References.collect buriedBlocks).1.keys .link := by
  refine ⟨readDocument_buriedSample, by simp [buriedBlocks, nested, Block.nested], ?_⟩
  rw [References.mem_keys_collect]
  simp [buriedBlocks, paragraph, flow, Block.flow, Block.key?]

end CommentMarkup
