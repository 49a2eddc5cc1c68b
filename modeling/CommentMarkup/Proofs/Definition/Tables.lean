import CommentMarkup.Abbreviation
import Mathlib

/-!
# Tables of definitions

The tables that are collected from blocks whose definitions have distinct keys. They hold exactly
these definitions, so looking anything up in them does not depend on the order of the definitions.
-/

namespace CommentMarkup

def definitions (blocks : List Block) : List Block := (flow blocks).filter Block.isDefinition

/-! ### Entries of the tables -/

def Block.asLink? : Block → Option (Text × Target)
  | .referenceDef label target => some (normalizeLabel label, target)
  | _ => none

def Block.asFootnote? : Block → Option (Text × List Block)
  | .footnoteDef label blocks => some (normalizeLabel label, blocks)
  | _ => none

def Block.asTerm? : Block → Option (Text × Text)
  | .abbreviationDef term expansion => some (term, expansion)
  | _ => none

namespace References

def add (references : References) (blocks : List Block) : References where
  links := references.links ++ blocks.filterMap Block.asLink?
  footnotes := references.footnotes ++ blocks.filterMap Block.asFootnote?
  abbreviations := references.abbreviations ++ blocks.filterMap Block.asTerm?

theorem add_nil (references : References) : references.add [] = references := by simp [add]

theorem add_append (references : References) (a b : List Block) :
    references.add (a ++ b) = (references.add a).add b := by simp [add]

theorem add_definitions (references : References) (blocks : List Block) :
    references.add (blocks.filter Block.isDefinition) = references.add blocks := by
  have pass {β : Type} (pick : Block → Option β)
      (other : ∀ block : Block, ¬ block.isDefinition → pick block = none) :
      (blocks.filter Block.isDefinition).filterMap pick = blocks.filterMap pick := by
    rw [List.filterMap_filter]
    congr 1
    funext block
    split
    · rfl
    · rename_i shown
      exact (other block shown).symm
  have silent (block : Block) (shown : ¬ block.isDefinition) :
      block.asLink? = none ∧ block.asFootnote? = none ∧ block.asTerm? = none := by
    cases block <;> first | exact ⟨rfl, rfl, rfl⟩ | exact absurd rfl shown
  rw [add, add, pass _ fun block shown => (silent block shown).1,
    pass _ fun block shown => (silent block shown).2.1,
    pass _ fun block shown => (silent block shown).2.2]

theorem add_shown (references : References) {block : Block} (shown : ¬ block.isDefinition) :
    references.add [block] = references := by
  rw [← add_definitions, List.filter_cons_of_neg shown, List.filter_nil, add_nil]

end References

/-! ### Distinct keys -/

def Keyed {α : Type} (table : List (Text × α)) : Prop := (table.map Prod.fst).Nodup

structure References.Keyed (references : References) : Prop where
  links : CommentMarkup.Keyed references.links
  footnotes : CommentMarkup.Keyed references.footnotes
  terms : CommentMarkup.Keyed references.abbreviations

theorem lookup_append_new {α : Type} {table rest : List (Text × α)} {key : Text} {value : α}
    (keyed : Keyed (table ++ (key, value) :: rest)) : table.lookup key = none := by
  rw [List.lookup_eq_none_iff]
  intro entry member
  rw [Keyed, List.map_append, List.nodup_append] at keyed
  have apart := keyed.2.2 _ (List.mem_map_of_mem member) key (by simp)
  simpa using Ne.symm apart

theorem register_keyed {references : References} {block : Block} {rest : List Block}
    (keyed : (references.add (block :: rest)).Keyed) (warnings : List Warning) :
    References.register (references, warnings) block = (references.add [block], warnings) := by
  obtain ⟨links, footnotes, terms⟩ := keyed
  cases block with
  | referenceDef label target =>
    have new : references.link? label = none := lookup_append_new links
    simp [References.register, new, References.add, Block.asLink?, Block.asFootnote?,
      Block.asTerm?]
  | footnoteDef label body =>
    have new : references.footnote? label = none := lookup_append_new footnotes
    simp [References.register, new, References.add, Block.asLink?, Block.asFootnote?,
      Block.asTerm?]
  | abbreviationDef term expansion =>
    have new : references.abbreviations.lookup term = none := lookup_append_new terms
    simp [References.register, new, References.add, Block.asLink?, Block.asFootnote?,
      Block.asTerm?]
  | _ => exact congrArg (·, warnings) (references.add_shown (by simp [Block.isDefinition])).symm

theorem foldl_register_keyed {references : References} {blocks : List Block}
    (keyed : (references.add blocks).Keyed) (warnings : List Warning) :
    blocks.foldl References.register (references, warnings) =
      (references.add blocks, warnings) := by
  induction blocks generalizing references with
  | nil => rw [References.add_nil, List.foldl_nil]
  | cons block blocks ih =>
    have step := register_keyed keyed warnings
    rw [← List.singleton_append, References.add_append] at keyed ⊢
    rw [List.singleton_append, List.foldl_cons, step, ih keyed]

def tables (blocks : List Block) : References := References.empty.add (definitions blocks)

/-- Definitions with distinct keys are all collected, and nothing is reported. -/
theorem collect_keyed {blocks : List Block} (keyed : (tables blocks).Keyed) :
    References.collect blocks =
      ({ tables blocks with
          abbreviations := References.longestFirst (tables blocks).abbreviations }, []) := by
  rw [tables, definitions, References.add_definitions] at keyed ⊢
  rw [References.collect, foldl_register_keyed keyed]

/-! ### Looking up -/

theorem lookup_perm {α : Type} {a b : List (Text × α)} (perm : a.Perm b) (keyed : Keyed a)
    (key : Text) : a.lookup key = b.lookup key := by
  induction perm with
  | nil => rfl
  | cons entry _ ih =>
    rw [List.lookup_cons, List.lookup_cons, ih (List.nodup_cons.mp keyed).2]
  | swap first second rest =>
    have apart : second.1 ≠ first.1 := by
      intro same
      simp [Keyed, same] at keyed
    rw [List.lookup_cons, List.lookup_cons, List.lookup_cons, List.lookup_cons]
    split
    · rename_i left
      split
      · rename_i right
        exact absurd ((beq_iff_eq.mp left).symm.trans (beq_iff_eq.mp right)) apart
      · rfl
    · rfl
  | trans first _ left right =>
    exact (left keyed).trans (right ((first.map Prod.fst).nodup_iff.mp keyed))

theorem longestFirst_sorted (terms : List (Text × Text)) :
    (References.longestFirst terms).Pairwise fun a b => b.1.length ≤ a.1.length := by
  have ordered : (References.longestFirst terms).Pairwise
      fun a b => decide (b.1.length ≤ a.1.length) := by
    apply List.pairwise_mergeSort
    · intro a b c first second
      rw [decide_eq_true_eq] at first second ⊢
      exact Nat.le_trans second first
    · intro a b
      rw [Bool.or_eq_true, decide_eq_true_eq, decide_eq_true_eq]
      exact Nat.le_total _ _
  simpa using ordered

/-- The first of the terms, longest first, is the longest. -/
theorem longest_of_sorted {terms : List (Text × Text)} {t : Text} {found other : Text × Text}
    (sorted : terms.Pairwise fun a b => b.1.length ≤ a.1.length)
    (first : termAt? terms t = some found) (member : other ∈ terms) (starts : other.1.isPrefixOf t) :
    other.1.length ≤ found.1.length := by
  obtain ⟨_, before, after, parts, passed⟩ := List.find?_eq_some_iff_append.mp first
  rw [parts] at sorted member
  rcases List.mem_append.mp member with early | late
  · have skipped := passed other early
    simp [starts] at skipped
  · rcases List.mem_cons.mp late with rfl | later
    · exact Nat.le_refl _
    · exact (List.pairwise_cons.mp (List.pairwise_append.mp sorted).2.1).1 other later

theorem longest_of_termAt {terms : List (Text × Text)} {t : Text} {found other : Text × Text}
    (first : termAt? (References.longestFirst terms) t = some found) (member : other ∈ terms)
    (starts : other.1.isPrefixOf t) : other.1.length ≤ found.1.length :=
  longest_of_sorted (longestFirst_sorted terms) first
    ((List.mergeSort_perm terms _).mem_iff.mpr member) starts

theorem eq_of_prefixes {a b t : Text} (left : a.isPrefixOf t) (right : b.isPrefixOf t)
    (same : a.length = b.length) : a = b := by
  rw [List.isPrefixOf_iff_prefix, List.prefix_iff_eq_take] at left right
  rw [left, right, same]

theorem termAt_some {terms : List (Text × Text)} {t : Text} {found : Text × Text}
    (first : termAt? terms t = some found) : found ∈ terms ∧ found.1.isPrefixOf t := by
  unfold termAt? at first
  have starts := List.find?_some first
  exact ⟨List.mem_of_find?_eq_some first, starts⟩

theorem termAt_mem {terms : List (Text × Text)} {t : Text} {found : Text × Text}
    (first : termAt? (References.longestFirst terms) t = some found) :
    found ∈ terms ∧ found.1.isPrefixOf t :=
  ⟨(List.mergeSort_perm terms _).mem_iff.mp (termAt_some first).1, (termAt_some first).2⟩

/-- The longest term at a place does not depend on the order of the terms. -/
theorem termAt_perm {a b : List (Text × Text)} (perm : a.Perm b) (keyed : Keyed a) (t : Text) :
    termAt? (References.longestFirst a) t = termAt? (References.longestFirst b) t := by
  cases left : termAt? (References.longestFirst a) t with
  | none =>
    symm
    rw [termAt?, List.find?_eq_none] at left ⊢
    intro entry member
    apply left entry
    have listed := (List.mergeSort_perm b _).mem_iff.mp member
    exact (List.mergeSort_perm a _).mem_iff.mpr (perm.mem_iff.mpr listed)
  | some found =>
    obtain ⟨member, starts⟩ := termAt_mem left
    cases right : termAt? (References.longestFirst b) t with
    | none =>
      rw [termAt?, List.find?_eq_none] at right
      exact absurd starts
        (right found ((List.mergeSort_perm b _).mem_iff.mpr (perm.mem_iff.mp member)))
    | some other =>
      obtain ⟨member', starts'⟩ := termAt_mem right
      have least := longest_of_termAt left (perm.mem_iff.mpr member') starts'
      have most := longest_of_termAt right (perm.mem_iff.mp member) starts
      have same := eq_of_prefixes starts starts' (Nat.le_antisymm most least)
      exact congrArg some (List.inj_on_of_nodup_map keyed member (perm.mem_iff.mpr member') same)

end CommentMarkup
