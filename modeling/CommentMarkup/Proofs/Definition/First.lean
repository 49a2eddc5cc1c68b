import CommentMarkup.Proofs.Definition.Tables

/-!
# First definitions

The first definition of a key is the one that counts: looking a key up in the collected tables finds
the first of the definitions with that key, and each table has every key once.
-/

namespace CommentMarkup

section Table

variable {α : Type}

/-- The table with a further entry, unless its key has one already. -/
def addFirst (table : List (Text × α)) (entry : Text × α) : List (Text × α) :=
  if (table.lookup entry.1).isSome then table else table ++ [entry]

theorem lookup_addFirst (table : List (Text × α)) (entry : Text × α) (key : Text) :
    (addFirst table entry).lookup key = (table.lookup key).or ([entry].lookup key) := by
  unfold addFirst
  split
  · rename_i known
    by_cases same : key = entry.1
    · obtain ⟨value, found⟩ := Option.isSome_iff_exists.mp known
      rw [same, found, Option.some_or]
    · rw [List.lookup_cons, beq_false_of_ne same, List.lookup_nil, Option.or_none]
  · exact List.lookup_append

theorem keyed_addFirst {table : List (Text × α)} (keyed : Keyed table) (entry : Text × α) :
    Keyed (addFirst table entry) := by
  unfold addFirst
  split
  · exact keyed
  · rename_i unknown
    rw [Bool.not_eq_true, Option.isSome_eq_false_iff, Option.isNone_iff_eq_none,
      List.lookup_eq_none_iff] at unknown
    rw [Keyed, List.map_append, List.nodup_append]
    refine ⟨keyed, List.nodup_singleton _, ?_⟩
    intro key listed new last same
    obtain ⟨old, member, rfl⟩ := List.mem_map.mp listed
    have apart := unknown old member
    rw [← List.mem_singleton.mp last, ← same] at apart
    simp at apart

theorem lookup_foldl_addFirst (table entries : List (Text × α)) (key : Text) :
    (entries.foldl addFirst table).lookup key = (table.lookup key).or (entries.lookup key) := by
  induction entries generalizing table with
  | nil => rw [List.foldl_nil, List.lookup_nil, Option.or_none]
  | cons entry entries ih =>
    rw [List.foldl_cons, ih, lookup_addFirst, Option.or_assoc, ← List.lookup_append,
      List.singleton_append]

theorem keyed_foldl_addFirst {table : List (Text × α)} (keyed : Keyed table)
    (entries : List (Text × α)) : Keyed (entries.foldl addFirst table) := by
  induction entries generalizing table with
  | nil => exact keyed
  | cons entry entries ih => exact ih (keyed_addFirst keyed entry)

theorem lookup_of_keyed {table : List (Text × α)} (keyed : Keyed table) {key : Text} {value : α}
    (listed : (key, value) ∈ table) : table.lookup key = some value := by
  obtain ⟨before, after, rfl⟩ := List.append_of_mem listed
  rw [List.lookup_append, lookup_append_new keyed, Option.none_or, List.lookup_cons_self]

end Table

/-! ### Collected tables -/

theorem register_addFirst (state : References × List Warning) (block : Block) :
    (References.register state block).1 =
      { links := ([block].filterMap Block.asLink?).foldl addFirst state.1.links
        footnotes := ([block].filterMap Block.asFootnote?).foldl addFirst state.1.footnotes
        abbreviations :=
          ([block].filterMap Block.asTerm?).foldl addFirst state.1.abbreviations } := by
  obtain ⟨references, warnings⟩ := state
  cases block with
  | referenceDef label target =>
    change _ = { references with
      links := addFirst references.links (normalizeLabel label, target) }
    rw [References.register, References.link?, addFirst]
    dsimp only
    split <;> rfl
  | footnoteDef label body =>
    change _ = { references with
      footnotes := addFirst references.footnotes (normalizeLabel label, body) }
    rw [References.register, References.footnote?, addFirst]
    dsimp only
    split <;> rfl
  | abbreviationDef term expansion =>
    change _ = { references with
      abbreviations := addFirst references.abbreviations (term, expansion) }
    rw [References.register, addFirst]
    dsimp only
    split <;> rfl
  | _ => rfl

theorem foldl_register_addFirst (state : References × List Warning) (blocks : List Block) :
    (blocks.foldl References.register state).1 =
      { links := (blocks.filterMap Block.asLink?).foldl addFirst state.1.links
        footnotes := (blocks.filterMap Block.asFootnote?).foldl addFirst state.1.footnotes
        abbreviations :=
          (blocks.filterMap Block.asTerm?).foldl addFirst state.1.abbreviations } := by
  induction blocks generalizing state with
  | nil => rfl
  | cons block blocks ih =>
    have cut {β : Type} (pick : Block → Option β) :
        (block :: blocks).filterMap pick = [block].filterMap pick ++ blocks.filterMap pick :=
      List.filterMap_append (l := [block])
    rw [List.foldl_cons, ih, register_addFirst, cut, cut, cut]
    simp only [List.foldl_append]

def definedTerms (blocks : List Block) : List (Text × Text) := (flow blocks).filterMap Block.asTerm?

theorem collect_terms_perm (blocks : List Block) :
    (References.collect blocks).1.abbreviations.Perm ((definedTerms blocks).foldl addFirst []) := by
  have folded := congrArg References.abbreviations
    (foldl_register_addFirst (.empty, []) (flow blocks))
  exact (List.mergeSort_perm _ _).trans (.of_eq folded)

theorem collect_terms_keyed (blocks : List Block) :
    Keyed (References.collect blocks).1.abbreviations := by
  have start : Keyed ([] : List (Text × Text)) := List.nodup_nil
  exact ((collect_terms_perm blocks).map Prod.fst).nodup_iff.mpr
    (keyed_foldl_addFirst start (definedTerms blocks))

theorem collect_footnotes_keyed (blocks : List Block) :
    Keyed (References.collect blocks).1.footnotes := by
  have start : Keyed ([] : List (Text × List Block)) := List.nodup_nil
  have folded : (References.collect blocks).1.footnotes =
      ((flow blocks).filterMap Block.asFootnote?).foldl addFirst [] :=
    congrArg References.footnotes (foldl_register_addFirst (.empty, []) (flow blocks))
  rw [folded]
  exact keyed_foldl_addFirst start _

theorem lookup_collect_term (blocks : List Block) (term : Text) :
    (References.collect blocks).1.abbreviations.lookup term =
      (definedTerms blocks).lookup term := by
  rw [lookup_perm (collect_terms_perm blocks) (collect_terms_keyed blocks), lookup_foldl_addFirst]
  rfl

/-- Terms as the search tries them: each once and none of them empty, longer ones first. -/
structure IsTermTable (terms : List (Text × Text)) : Prop where
  sorted : terms.Pairwise fun a b => b.1.length ≤ a.1.length
  keyed : Keyed terms
  filled : ∀ entry ∈ terms, entry.1 ≠ []

theorem collect_isTermTable {blocks : List Block}
    (filled : ∀ entry ∈ definedTerms blocks, entry.1 ≠ []) :
    IsTermTable (References.collect blocks).1.abbreviations where
  sorted := longestFirst_sorted _
  keyed := collect_terms_keyed blocks
  filled entry listed := by
    have known := lookup_of_keyed (collect_terms_keyed blocks) listed
    rw [lookup_collect_term] at known
    obtain ⟨before, after, parts, _⟩ := List.lookup_eq_some_iff.mp known
    refine filled entry ?_
    rw [parts]
    exact List.mem_append_right before List.mem_cons_self

end CommentMarkup
