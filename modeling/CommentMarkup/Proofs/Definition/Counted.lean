import CommentMarkup.Proofs.Definition.Collected
import CommentMarkup.Proofs.Definition.First
import CommentMarkup.Proofs.Tree.Address

/-!
# Definitions that count

Of the definitions of one key the one that stands first counts, and each further one is reported:
`first_definition_counts`. What stands first is a matter of addresses in the tree.
-/

namespace CommentMarkup

/-- The block with the least address among those that define the key, if there is one. -/
inductive FirstDefinition (blocks : List Block) (key : LabelKind × Text) : Option Block → Prop
  | found {address : List Nat} {block : Block} (here : Stands blocks address block)
      (defines : block.key? = some key)
      (least : ∀ other inner, Stands blocks other inner → inner.key? = some key →
        address ≤ other) : FirstDefinition blocks key (some block)
  | missing (undefined : ∀ address block, Stands blocks address block → block.key? ≠ some key) :
      FirstDefinition blocks key none

def definitionOf? (blocks : List Block) (key : LabelKind × Text) : Option Block :=
  blocks.find? fun block => block.key? = some key

theorem definitionOf_first (blocks : List Block) (key : LabelKind × Text) :
    FirstDefinition blocks key (definitionOf? (flow blocks) key) := by
  rw [definitionOf?, ← map_addressed 0, List.find?_map]
  cases search : (addressed 0 blocks).find? _ with
  | none =>
    rw [List.find?_eq_none] at search
    refine .missing fun address block stands defines => ?_
    exact search _ (mem_addressed_zero.mpr stands) (decide_eq_true defines)
  | some place =>
    obtain ⟨address, block⟩ := place
    obtain ⟨defines, before, after, parts, passed⟩ := List.find?_eq_some_iff_append.mp search
    have ascending := ascending_addressed 0 blocks
    have listed (other : List Nat) (inner : Block) :
        Stands blocks other inner ↔ (other, inner) ∈ addressed 0 blocks := mem_addressed_zero.symm
    rw [parts] at ascending listed
    refine .found ((listed address block).mpr (by simp)) (of_decide_eq_true defines) ?_
    intro other inner stands same
    rcases List.mem_append.mp ((listed other inner).mp stands) with early | late
    · simpa [same] using passed _ early
    · rcases List.mem_cons.mp late with here | later
      · cases here
        exact le_refl _
      · have behind := (List.pairwise_append.mp ascending).2.1
        exact le_of_lt ((List.pairwise_cons.mp behind).1 _ later)

/-! ### Looking up -/

def Block.target? : Block → Option Target
  | .referenceDef _ target => some target
  | _ => none

def Block.body? : Block → Option (List Block)
  | .footnoteDef _ body => some body
  | _ => none

def Block.expansion? : Block → Option Text
  | .abbreviationDef _ expansion => some expansion
  | _ => none

/-- The blocks that define a key of the kind make the entries of a table, under their keys. -/
structure Enters {α : Type} (kind : LabelKind) (entry : Block → Option (Text × α))
    (value : Block → Option α) : Prop where
  enters : ∀ block key, block.key? = some (kind, key) →
    ∃ given, value block = some given ∧ entry block = some (key, given)
  others : ∀ block, (∀ key, block.key? ≠ some (kind, key)) → entry block = none

theorem asLink_enters : Enters .link Block.asLink? Block.target? where
  enters block key defines := by
    cases block <;> cases defines
    exact ⟨_, rfl, rfl⟩
  others block other := by
    cases block with
    | referenceDef label target => exact absurd rfl (other _)
    | _ => rfl

theorem asFootnote_enters : Enters .footnote Block.asFootnote? Block.body? where
  enters block key defines := by
    cases block <;> cases defines
    exact ⟨_, rfl, rfl⟩
  others block other := by
    cases block with
    | footnoteDef label body => exact absurd rfl (other _)
    | _ => rfl

theorem asTerm_enters : Enters .abbreviation Block.asTerm? Block.expansion? where
  enters block key defines := by
    cases block <;> cases defines
    exact ⟨_, rfl, rfl⟩
  others block other := by
    cases block with
    | abbreviationDef term expansion => exact absurd rfl (other _)
    | _ => rfl

theorem lookup_entries {α : Type} {kind : LabelKind} {entry : Block → Option (Text × α)}
    {value : Block → Option α} (enters : Enters kind entry value) (blocks : List Block)
    (key : Text) :
    (blocks.filterMap entry).lookup key = (definitionOf? blocks (kind, key)).bind value := by
  induction blocks with
  | nil => rfl
  | cons block blocks ih =>
    rw [definitionOf?, List.find?_cons]
    by_cases defines : ∃ own, block.key? = some (kind, own)
    · obtain ⟨own, defines⟩ := defines
      obtain ⟨given, holds, made⟩ := enters.enters block own defines
      rw [List.filterMap_cons_some made, List.lookup_cons, defines]
      by_cases same : key = own
      · subst same
        simp [holds]
      · rw [beq_false_of_ne same, ih, definitionOf?]
        simp [Ne.symm same]
    · have skipped := enters.others block fun own defines' => defines ⟨own, defines'⟩
      have passed : decide (block.key? = some (kind, key)) = false :=
        decide_eq_false fun defines' => defines ⟨key, defines'⟩
      rw [List.filterMap_cons_none skipped, ih, passed, definitionOf?]

theorem collect_link (blocks : List Block) (label : Text) :
    (References.collect blocks).1.link? label =
      (definitionOf? (flow blocks) (.link, normalizeLabel label)).bind Block.target? := by
  have table := congrArg References.links (foldl_register_addFirst (.empty, []) (flow blocks))
  change List.lookup _ ((flow blocks).foldl References.register (.empty, [])).1.links = _
  rw [table, lookup_foldl_addFirst, ← lookup_entries asLink_enters]
  rfl

theorem collect_footnote (blocks : List Block) (label : Text) :
    (References.collect blocks).1.footnote? label =
      (definitionOf? (flow blocks) (.footnote, normalizeLabel label)).bind Block.body? := by
  have table := congrArg References.footnotes (foldl_register_addFirst (.empty, []) (flow blocks))
  change List.lookup _ ((flow blocks).foldl References.register (.empty, [])).1.footnotes = _
  rw [table, lookup_foldl_addFirst, ← lookup_entries asFootnote_enters]
  rfl

theorem collect_expansion (blocks : List Block) (term : Text) :
    (References.collect blocks).1.abbreviations.lookup term =
      (definitionOf? (flow blocks) (.abbreviation, term)).bind Block.expansion? := by
  rw [lookup_collect_term, definedTerms, lookup_entries asTerm_enters]

/-! ### Reporting -/

/-- What is reported of a definition that does not count, with its label as written. -/
def Block.report? : Block → Option Warning
  | .referenceDef label _ => some (.duplicate .link label)
  | .footnoteDef label _ => some (.duplicate .footnote label)
  | .abbreviationDef term _ => some (.duplicate .abbreviation term)
  | _ => none

def Repeats (places : List (List Nat × Block)) (place : List Nat × Block) : Prop :=
  ∃ key, place.2.key? = some key ∧
    ∃ earlier ∈ places, earlier.1 < place.1 ∧ earlier.2.key? = some key

theorem register_known {state : References × List Warning} {block : Block} {kind : LabelKind}
    {key : Text} (defines : block.key? = some (kind, key)) (known : key ∈ state.1.keys kind) :
    ∃ warning, block.report? = some warning ∧
      (References.register state block).2 = state.2 ++ [warning] := by
  have listed {α : Type} {table : List (Text × α)} (member : key ∈ table.map Prod.fst) :
      (table.lookup key).isSome := by
    obtain ⟨entry, inside, same⟩ := List.mem_map.mp member
    exact List.lookup_isSome_iff.mpr ⟨entry, inside, beq_iff_eq.mpr same.symm⟩
  cases block <;> cases defines
  all_goals
    refine ⟨_, rfl, ?_⟩
    unfold References.register
    dsimp only
    split
    · rfl
    · rename_i new
      exact absurd (listed known) new

theorem register_new {state : References × List Warning} {block : Block}
    (new : ∀ kind key, block.key? = some (kind, key) → key ∉ state.1.keys kind) :
    (References.register state block).2 = state.2 := by
  unfold References.register
  dsimp only
  split
  · rw [if_neg]
    exact fun known => new _ _ rfl (References.mem_of_lookup_isSome known)
  · rw [if_neg]
    exact fun known => new _ _ rfl (References.mem_of_lookup_isSome known)
  · rw [if_neg]
    exact fun known => new _ _ rfl (References.mem_of_lookup_isSome known)
  · rfl

theorem repeats_concat {places : List (List Nat × Block)} {last : List Nat × Block}
    (earlier : ∀ place ∈ places, place.1 < last.1) {place : List Nat × Block}
    (member : place ∈ places ++ [last]) :
    Repeats (places ++ [last]) place ↔ Repeats places place := by
  refine exists_congr fun key => and_congr_right fun _ => ?_
  constructor
  · rintro ⟨other, listed, less, same⟩
    rcases List.mem_append.mp listed with front | behind
    · exact ⟨other, front, less, same⟩
    · -- nothing comes after the last place
      rw [List.mem_singleton.mp behind] at less
      rcases List.mem_append.mp member with inner | itself
      · exact absurd less (lt_asymm (earlier place inner))
      · rw [List.mem_singleton.mp itself] at less
        exact absurd less (lt_irrefl _)
  · rintro ⟨other, listed, less, same⟩
    exact ⟨other, List.mem_append_left _ listed, less, same⟩

/-- One after the other, a warning for each block that repeats a key. -/
theorem foldl_reports {places : List (List Nat × Block)} (ascending : Ascending places) :
    ∃ repeats : List (List Nat × Block), repeats.Sublist places ∧
      (∀ place ∈ places, place ∈ repeats ↔ Repeats places place) ∧
      List.Forall₂ (fun place warning => place.2.report? = some warning) repeats
        ((places.map Prod.snd).foldl References.register (.empty, [])).2 := by
  induction places using List.reverseRecOn with
  | nil => exact ⟨[], .slnil, fun _ none => (List.not_mem_nil none).elim, .nil⟩
  | append_singleton places last ih =>
    obtain ⟨front, -, before⟩ := List.pairwise_append.mp ascending
    have earlier : ∀ place ∈ places, place.1 < last.1 :=
      fun place member => before place member last (List.mem_singleton_self last)
    have fresh : last ∉ places := fun member => lt_irrefl _ (earlier last member)
    obtain ⟨repeats, part, complete, reported⟩ := ih front
    have known (kind : LabelKind) (key : Text) :
        key ∈ ((places.map Prod.snd).foldl References.register (.empty, [])).1.keys kind ↔
          ∃ place ∈ places, place.2.key? = some (kind, key) := by
      rw [References.mem_keys_foldl, or_iff_right (by cases kind <;> exact List.not_mem_nil)]
      constructor
      · rintro ⟨block, member, defines⟩
        obtain ⟨place, listed, rfl⟩ := List.mem_map.mp member
        exact ⟨place, listed, defines⟩
      · rintro ⟨place, listed, defines⟩
        exact ⟨place.2, List.mem_map_of_mem listed, defines⟩
    rw [List.map_append, List.map_singleton, List.foldl_concat]
    by_cases again : Repeats places last
    · obtain ⟨⟨kind, key⟩, defines, other, listed, -, same⟩ := id again
      obtain ⟨warning, report, warned⟩ :=
        register_known defines ((known kind key).mpr ⟨other, listed, same⟩)
      refine ⟨repeats ++ [last], part.append (List.Sublist.refl _), fun place member => ?_, ?_⟩
      · rw [repeats_concat earlier member]
        rcases List.mem_append.mp member with inner | itself
        · rw [← complete place inner, List.mem_append, List.mem_singleton]
          exact or_iff_left fun same => fresh (same ▸ inner)
        · rw [List.mem_singleton.mp itself]
          exact iff_of_true (by simp) again
      · rw [warned]
        exact List.rel_append reported (.cons report .nil)
    · refine ⟨repeats, part.trans (List.sublist_append_left _ _), fun place member => ?_, ?_⟩
      · rw [repeats_concat earlier member]
        rcases List.mem_append.mp member with inner | itself
        · exact complete place inner
        · rw [List.mem_singleton.mp itself]
          exact iff_of_false (fun listed => fresh (part.subset listed)) again
      · rw [register_new]
        · exact reported
        · intro kind key defines listed
          obtain ⟨other, inside, same⟩ := (known kind key).mp listed
          exact again ⟨(kind, key), defines, other, inside, earlier other inside, same⟩

/-- In each table the first definition of a key counts, and the warnings are one for each definition
that has an earlier one of the same kind and key, in document order. -/
theorem first_definition_counts (blocks : List Block) :
    (∀ label, ∃ first, FirstDefinition blocks (.link, normalizeLabel label) first ∧
      (References.collect blocks).1.link? label = first.bind Block.target?) ∧
    (∀ label, ∃ first, FirstDefinition blocks (.footnote, normalizeLabel label) first ∧
      (References.collect blocks).1.footnote? label = first.bind Block.body?) ∧
    (∀ term, ∃ first, FirstDefinition blocks (.abbreviation, term) first ∧
      (References.collect blocks).1.abbreviations.lookup term = first.bind Block.expansion?) ∧
    ∃ repeats : List (List Nat × Block), Ascending repeats ∧
      (∀ address block, (address, block) ∈ repeats ↔ Stands blocks address block ∧
        ∃ key, block.key? = some key ∧ ∃ earlier other, earlier < address ∧
          Stands blocks earlier other ∧ other.key? = some key) ∧
      List.Forall₂ (fun place warning => place.2.report? = some warning) repeats
        (References.collect blocks).2 := by
  refine ⟨fun label => ⟨_, definitionOf_first blocks _, collect_link blocks label⟩,
    fun label => ⟨_, definitionOf_first blocks _, collect_footnote blocks label⟩,
    fun term => ⟨_, definitionOf_first blocks _, collect_expansion blocks term⟩, ?_⟩
  obtain ⟨repeats, part, complete, reported⟩ := foldl_reports (ascending_addressed 0 blocks)
  rw [map_addressed] at reported
  refine ⟨repeats, (ascending_addressed 0 blocks).sublist part, fun address block => ?_, reported⟩
  have again (key : LabelKind × Text) :
      (∃ earlier ∈ addressed 0 blocks, earlier.1 < address ∧ earlier.2.key? = some key) ↔
        ∃ earlier other, earlier < address ∧ Stands blocks earlier other ∧
          other.key? = some key := by
    constructor
    · rintro ⟨⟨earlier, other⟩, listed, less, same⟩
      exact ⟨earlier, other, less, mem_addressed_zero.mp listed, same⟩
    · rintro ⟨earlier, other, less, stands, same⟩
      exact ⟨(earlier, other), mem_addressed_zero.mpr stands, less, same⟩
  constructor
  · intro listed
    have inside := part.subset listed
    obtain ⟨key, defines, others⟩ := (complete _ inside).mp listed
    exact ⟨mem_addressed_zero.mp inside, key, defines, (again key).mp others⟩
  · rintro ⟨stands, key, defines, others⟩
    have inside := mem_addressed_zero.mpr stands
    exact (complete _ inside).mpr ⟨key, defines, (again key).mpr others⟩

end CommentMarkup
