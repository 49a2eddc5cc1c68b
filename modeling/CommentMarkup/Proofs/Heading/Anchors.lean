import CommentMarkup.Heading.Index
import CommentMarkup.Proofs.Tree.Flow
import Mathlib

/-!
# Anchors of headings

No two headings of a document get the same anchor, and none gets an empty one.
-/

namespace CommentMarkup

def Block.anchor? : Block → Option Text
  | .heading _ _ anchor => some anchor
  | _ => none

def anchors (blocks : List Block) : List Text := blocks.filterMap Block.anchor?

theorem anchors_append (a b : List Block) : anchors (a ++ b) = anchors a ++ anchors b :=
  List.filterMap_append

theorem entries_anchors (blocks : List Block) :
    (entries blocks).map Entry.anchor = anchors (flow blocks) := by
  rw [entries, List.map_filterMap, anchors]
  congr 1
  funext block
  cases block <;> rfl

/-! ### Free anchors -/

theorem ofNat_injective : Function.Injective Text.ofNat := by
  intro m n same
  have back := congrArg (Nat.ofDigitChars 10 · 0) same
  simpa [Text.ofNat] using back

theorem numberedAnchor_injective (base : Text) : Function.Injective (numberedAnchor base) := by
  intro j k same
  cases j with
  | zero =>
    cases k with
    | zero => rfl
    | succ k => simp [numberedAnchor] at same
  | succ j =>
    cases k with
    | zero => simp [numberedAnchor] at same
    | succ k =>
      have numbers := ofNat_injective (List.cons.inj (List.append_cancel_left same)).2
      exact numbers

/-- One of the choices is free, since they are more than the used anchors. -/
theorem freeAnchor_free (used : List Text) (base : Text) : freeAnchor used base ∉ used := by
  unfold freeAnchor
  cases found : ((List.range (used.length + 1)).map (numberedAnchor base)).find? fun a =>
      !used.contains a with
  | some a => simpa using List.find?_some found
  | none =>
    have taken : (List.range (used.length + 1)).map (numberedAnchor base) ⊆ used := by
      intro a member
      simpa using List.find?_eq_none.mp found a member
    have distinct : ((List.range (used.length + 1)).map (numberedAnchor base)).Nodup :=
      List.nodup_range.map (numberedAnchor_injective base)
    have few := (List.subperm_of_subset distinct taken).length_le
    rw [List.length_map, List.length_range] at few
    omega

/-- The choices before the one that is taken are all in use. -/
theorem freeAnchor_least (used : List Text) (base : Text) :
    ∃ k, freeAnchor used base = numberedAnchor base k ∧
      ∀ j < k, numberedAnchor base j ∈ used := by
  unfold freeAnchor
  rw [List.find?_map]
  cases found : (List.range (used.length + 1)).find?
      ((fun a => !used.contains a) ∘ numberedAnchor base) with
  | none => exact ⟨0, rfl, fun j less => absurd less (Nat.not_lt_zero j)⟩
  | some k =>
    refine ⟨k, rfl, fun j less => ?_⟩
    have passed := (List.find?_range_eq_some.mp found).2.2 j less
    simpa using passed

theorem numberedAnchor_ne_nil {base : Text} (filled : base ≠ []) (k : Nat) :
    numberedAnchor base k ≠ [] := by
  cases k with
  | zero => exact filled
  | succ k => simp [numberedAnchor]

theorem freeAnchor_ne_nil (used : List Text) {base : Text} (filled : base ≠ []) :
    freeAnchor used base ≠ [] := by
  obtain ⟨k, eq, _⟩ := freeAnchor_least used base
  rw [eq]
  exact numberedAnchor_ne_nil filled k

theorem anchorBase_ne_nil (source : Text) : anchorBase source ≠ [] := by
  unfold anchorBase
  dsimp only
  split
  · decide
  · rename_i filled
    simpa using filled

/-! ### Assigned anchors -/

def HeadingIndex.used (index : HeadingIndex) : List Text := index.map Prod.snd

/-- The walk puts exactly the anchors of its blocks into use, which differ from those before and
from each other. -/
structure Assigns (index : HeadingIndex) (before blocks : List Block) (after : HeadingIndex) :
    Prop where
  used : ∀ a, a ∈ after.used ↔ a ∈ index.used ∨ a ∈ anchors blocks
  fresh : ∀ a ∈ anchors blocks, a ∉ index.used
  distinct : (anchors blocks).Nodup
  filled : [] ∉ anchors blocks

namespace Assigns

theorem quiet (index : HeadingIndex) (before : List Block) {blocks : List Block}
    (none : anchors blocks = []) : Assigns index before blocks index := by
  constructor <;> simp [none]

theorem compose {first second third : HeadingIndex} {a a' b b' : List Block}
    (left : Assigns first a a' second) (right : Assigns second b b' third) :
    Assigns first (a ++ b) (a' ++ b') third where
  used := by
    intro x
    rw [right.used, left.used, anchors_append, List.mem_append, or_assoc]
  fresh := by
    intro x member old
    rw [anchors_append, List.mem_append] at member
    rcases member with early | late
    · exact left.fresh x early old
    · exact right.fresh x late ((left.used x).mpr (.inl old))
  distinct := by
    rw [anchors_append, List.nodup_append]
    refine ⟨left.distinct, right.distinct, ?_⟩
    rintro x early y late rfl
    exact right.fresh x late ((left.used x).mpr (.inr early))
  filled := by
    rw [anchors_append, List.mem_append, not_or]
    exact ⟨left.filled, right.filled⟩

theorem heading (index : HeadingIndex) (level : Nat) (content : Prose) (anchor : Text) :
    Assigns index [.heading level content anchor]
      [(HeadingIndex.assignStep index (.heading level content anchor)).1]
      (HeadingIndex.assignStep index (.heading level content anchor)).2 := by
  have free := freeAnchor_free index.used (anchorBase content.source)
  have filled := freeAnchor_ne_nil index.used (anchorBase_ne_nil content.source)
  have one : anchors [(HeadingIndex.assignStep index (.heading level content anchor)).1] =
      [freeAnchor index.used (anchorBase content.source)] := rfl
  constructor
  · intro a
    rw [one]
    simp [HeadingIndex.assignStep, HeadingIndex.used]
  · rw [one]
    simpa using free
  · rw [one]
    exact List.nodup_singleton _
  · rw [one]
    simpa using filled.symm

end Assigns

theorem assign_walks : Walks HeadingIndex.assignStep Assigns where
  idle s := .quiet s [] rfl
  compose left right := left.compose right
  leaf s block leaf := by
    cases block with
    | heading level content anchor => exact ⟨rfl, .heading s level content anchor⟩
    | list | quote => cases leaf
    | _ => exact ⟨rfl, .quiet s _ rfl⟩
  list s ordered start tight items items' := .quiet s _ rfl
  quote s blocks blocks' := .quiet s _ rfl

/-- The headings of a document have distinct anchors, none of them empty. -/
theorem assign_distinct (blocks : List Block) :
    (anchors (flow (HeadingIndex.assign blocks).1)).Nodup ∧
      [] ∉ anchors (flow (HeadingIndex.assign blocks).1) := by
  have assigns := assign_walks.blocks [] blocks
  exact ⟨assigns.distinct, assigns.filled⟩

end CommentMarkup
