import CommentMarkup.Proofs.Block.Aligned
import CommentMarkup.Proofs.Block.Prose
import CommentMarkup.Proofs.Block.Shape

/-!
# Sources in their lines

The source of a heading or a paragraph is written over successive lines of the text that it is read
from, also in quotes, list items and footnotes. So are the parts of such a source.
-/

namespace CommentMarkup

open Text

/-- The line holds the text, but for white space at its ends. -/
def Holds (l t : Text) : Prop := t.trim <:+: l

namespace Holds

variable {l m t : Text}

theorem of_part (inside : t <:+: l) : Holds l t := t.trim_infix.trans inside

theorem refl (l : Text) : Holds l l := of_part List.infix_rfl

theorem trans (outer : Holds l m) (inner : Holds m t) : Holds l t := by
  have trimmed := trim_infix_trim inner
  rw [trim_trim] at trimmed
  exact List.IsInfix.trans trimmed outer

end Holds

theorem InnerLine.holds {l part : Text} (inner : InnerLine l part) : Holds l part := by
  obtain ⟨s, ending, behind, _, eq⟩ := inner.suffix
  have front : part.trim <+: s.trimStart := by
    rw [eq]
    exact (dropEndWhile_isPrefix isSpace _).trans (List.prefix_append _ behind)
  exact front.isInfix.trans ((List.dropWhile_suffix isSpace).trans ending).isInfix

theorem Aligned.compose {ls ms parts : List Text} {j k : Nat} (outer : Aligned Holds ls ms j)
    (inner : Aligned Holds ms parts k) : Aligned Holds ls parts (j + k) :=
  Aligned.trans (R := Holds) (S := Holds) Holds.trans outer inner

def WrittenAt (ls : List Text) (t : Text) (k : Nat) : Prop :=
  Aligned Holds ls (cutAt (· == '\n') t) k

/-! ### Parts of a text -/

section Parts

variable {p : Char → Bool} {part t : Text}

theorem aligned_cutAt_of_prefix (front : part <+: t) :
    Aligned Holds (cutAt p t) (cutAt p part) 0 := by
  have prefixes : Aligned (fun l piece => piece <+: l) (cutAt p t) (cutAt p part) 0 := by
    induction part generalizing t with
    | nil =>
      obtain ⟨piece, pieces, eq⟩ := List.exists_cons_of_ne_nil (cutAt_ne_nil (p := p) t)
      rw [eq]
      exact Aligned.nil.cons List.nil_prefix
    | cons c part ih =>
      obtain ⟨rest, rfl⟩ := front
      have inner := ih (List.prefix_append part rest)
      rw [List.cons_append]
      by_cases cut : p c
      · rw [cutAt_cons_pos cut, cutAt_cons_pos cut]
        exact inner.cons List.prefix_rfl
      · obtain ⟨piece, pieces, eq, whole⟩ := cutAt_cons_neg cut part
        obtain ⟨outer, others, eq', whole'⟩ := cutAt_cons_neg cut (part ++ rest)
        rw [eq, eq'] at inner
        rw [whole, whole']
        obtain ⟨here, later⟩ := inner.of_cons
        exact later.cons ((List.prefix_cons_inj c).mpr here)
  refine prefixes.imp ?_
  intro l piece inside
  exact .of_part inside.isInfix

theorem aligned_cutAt_of_suffix (ending : part <:+ t) :
    ∃ k, Aligned Holds (cutAt p t) (cutAt p part) k := by
  obtain ⟨front, rfl⟩ := ending
  induction front with
  | nil => exact ⟨0, .refl Holds.refl _⟩
  | cons c front ih =>
    obtain ⟨k, inner⟩ := ih
    rw [List.cons_append]
    by_cases cut : p c
    · rw [cutAt_cons_pos cut]
      exact ⟨1 + k, inner.tail⟩
    · obtain ⟨piece, pieces, eq, whole⟩ := cutAt_cons_neg cut (front ++ part)
      have longer : Aligned Holds ((c :: piece) :: pieces) (piece :: pieces) 0 :=
        (Aligned.refl Holds.refl pieces).cons (.of_part (List.suffix_cons c piece).isInfix)
      rw [eq] at inner
      rw [whole]
      exact ⟨0 + k, longer.compose inner⟩

theorem WrittenAt.inside {ls : List Text} {k : Nat} (written : WrittenAt ls t k)
    (inner : part <:+: t) : ∃ j, WrittenAt ls part j := by
  obtain ⟨front, rest, eq⟩ := inner
  have ending : part ++ rest <:+ t := ⟨front, by rw [← List.append_assoc, eq]⟩
  obtain ⟨i, behind⟩ := aligned_cutAt_of_suffix (p := (· == '\n')) ending
  have first := aligned_cutAt_of_prefix (p := (· == '\n')) (List.prefix_append part rest)
  exact ⟨k + (i + 0), Aligned.compose written (behind.compose first)⟩

theorem infix_of_mem_cutAt {α : Type} {p : α → Bool} {l piece : List α}
    (found : piece ∈ cutAt p l) : piece <:+: l := by
  have first (l : List α) : ∀ {piece pieces}, cutAt p l = piece :: pieces → piece <+: l := by
    induction l with
    | nil =>
      intro piece pieces eq
      cases eq
      exact List.prefix_rfl
    | cons a l ih =>
      intro piece pieces eq
      by_cases cut : p a
      · rw [cutAt_cons_pos cut] at eq
        cases eq
        exact List.nil_prefix
      · obtain ⟨inner, others, start, whole⟩ := cutAt_cons_neg cut l
        rw [whole] at eq
        cases eq
        exact (List.prefix_cons_inj a).mpr (ih start)
  induction l with
  | nil =>
    rw [List.mem_singleton.mp found]
  | cons a l ih =>
    by_cases cut : p a
    · rw [cutAt_cons_pos cut] at found
      rcases List.mem_cons.mp found with rfl | later
      · exact List.nil_infix
      · exact (ih later).trans (List.suffix_cons a l).isInfix
    · obtain ⟨inner, others, eq, whole⟩ := cutAt_cons_neg cut l
      rw [whole] at found
      rcases List.mem_cons.mp found with rfl | later
      · exact (first (a :: l) whole).isInfix
      · rw [eq] at ih
        exact (ih (List.mem_cons_of_mem _ later)).trans (List.suffix_cons a l).isInfix

end Parts

/-! ### Single blocks -/

def Written (ls : List Text) (t : Text) : Prop := ∃ k, WrittenAt ls t k

namespace Written

variable {l t : Text} {ls parts : List Text} {j : Nat}

theorem outer (aligned : Aligned Holds ls parts j) (written : Written parts t) : Written ls t := by
  obtain ⟨k, inner⟩ := written
  exact ⟨j + k, aligned.compose inner⟩

theorem behind (n : Nat) (written : Written (ls.drop n) t) : Written (l :: ls) t := by
  obtain ⟨k, inner⟩ := written
  exact ⟨1 + (n + k), Aligned.tail (Aligned.behind inner)⟩

theorem nil : Written (l :: ls) [] := ⟨0, Aligned.nil.cons List.nil_infix⟩

theorem single (whole : '\n' ∉ t) (inside : t <:+: l) : Written (l :: ls) t := by
  refine ⟨0, ?_⟩
  rw [WrittenAt, cutAt_lineFeed whole]
  exact Aligned.nil.cons (.of_part inside)

theorem paragraph {group : List Text} (filled : group ≠ []) (whole : ∀ l ∈ group, '\n' ∉ l)
    (aligned : Aligned Holds ls group j) : Written ls (paragraphText group) := by
  have cut : cutAt (· == '\n') (unlines (group.map trimStart)) = group.map trimStart := by
    refine cutAt_unlines (by simpa using filled) fun l member => ?_
    obtain ⟨m, inside, rfl⟩ := List.mem_map.mp member
    exact fun feed => whole m inside ((List.dropWhile_suffix isSpace).subset feed)
  have ended := aligned_cutAt_of_prefix (p := (· == '\n'))
    (dropEndWhile_isPrefix isSpace (unlines (group.map trimStart)))
  rw [cut] at ended
  have started : Aligned Holds group (group.map trimStart) 0 :=
    .map (fun l => .of_part (List.dropWhile_suffix isSpace).isInfix) group
  exact ⟨_, aligned.compose (started.compose ended)⟩

end Written

theorem aligned_quoteLines (fence : Text) (inText : Bool) (ls : List Text) :
    Aligned Holds ls (quoteLines fence inText ls) 0 := by
  fun_induction quoteLines fence inText ls with
  | case1 | case3 => exact .nil
  | case2 inText l ls _ rest ih => exact ih.cons (.of_part (strips_dropQuoteMark l).isInfix)
  | case4 inText l ls _ _ ih => exact ih.cons (.refl l)

section Inside

variable {fence : Text} {ctx : Context} {l : Text} {ls : List Text}
  (whole : ∀ k ∈ l :: ls, '\n' ∉ k)

include whole

theorem leaf_written {block : Block} {more : Nat}
    (step : blockAt fence ctx l ls = .leaf block more) :
    ∀ inner ∈ block.nested, Written (l :: ls) inner.source := by
  have within {text : Text} (inside : text <:+: l) : Written (l :: ls) text :=
    .single (fun feed => whole l List.mem_cons_self (inside.subset feed)) inside
  cases stepAt step with
  | fenced | indented | outline | raw | abbreviation | link | rule =>
    exact List.forall_mem_singleton.mpr .nil
  | heading marked => exact List.forall_mem_singleton.mpr (within (strips_heading marked).isInfix)
  | underlined => exact List.forall_mem_singleton.mpr (within l.trim_infix)
  | quote marked =>
    have lines : ∀ k ∈ quoteLines fence false (l :: ls), '\n' ∉ k :=
      hereditary_whole.cuttings (cuttings_quote fence marked ls) (forall_mem_taken whole _)
    have quoted := aligned_quoteLines fence false (l :: ls)
    refine List.forall_mem_cons.mpr ⟨.nil, fun inner member => ?_⟩
    rw [quoteParagraphs, nested_paragraphs] at member
    obtain ⟨group, found, rfl⟩ := List.mem_map.mp member
    obtain ⟨piece, filled⟩ := List.mem_filter.mp found
    obtain ⟨j, aligned⟩ := quoted.inside (infix_of_mem_cutAt piece)
    refine .paragraph (by simpa using filled) (fun k listed => ?_) aligned
    exact lines k (of_mem_cutAt piece listed).1
  | paragraph =>
    have front : l :: ls.take (paragraphExtent fence ctx ls) <+: l :: ls :=
      (List.prefix_cons_inj l).mpr (List.take_prefix _ ls)
    obtain ⟨j, aligned⟩ := (Aligned.refl Holds.refl (l :: ls)).inside front.isInfix
    exact List.forall_mem_singleton.mpr
      (.paragraph (List.cons_ne_nil _ _) (forall_mem_taken whole _) aligned)

end Inside

/-! ### Whole texts -/

theorem items_written {ls : List Text} {raws : List RawItem} {items : List (Item Block)}
    (aligned : ∀ raw ∈ raws, ∃ j, Aligned InnerLine ls (lines (unlines raw.body)) j)
    (whole : ∀ raw ∈ raws, ∀ l ∈ lines (unlines raw.body), '\n' ∉ l)
    (read : ItemsRead (fun _ ls blocks => (∀ l ∈ ls, '\n' ∉ l) →
      ∀ block ∈ nested blocks, Written ls block.source) raws items) :
    ∀ inner ∈ itemsNested items, Written ls inner.source := by
  induction read with
  | nil => nofun
  | @cons raw item raws items inner _ ih =>
    rw [List.forall_mem_cons] at aligned whole
    obtain ⟨j, here⟩ := aligned.1
    rw [itemsNested]
    refine List.forall_mem_append.mpr ⟨fun block member => ?_, ih aligned.2 whole.2⟩
    exact .outer (here.imp InnerLine.holds) (inner.2 whole.1 block member)

/-- The source of every block is written over successive lines of those that are read. -/
theorem readBlocks_written {fence : Text} {ctx : Context} {n : Nat} {ls : List Text}
    {blocks : List Block} (whole : ∀ l ∈ ls, '\n' ∉ l)
    (read : readBlocks fence ctx n ls = .ok blocks) :
    ∀ block ∈ nested blocks, Written ls block.source := by
  refine readBlocks_induction (motive := fun _ ls blocks => (∀ l ∈ ls, '\n' ∉ l) →
    ∀ block ∈ nested blocks, Written ls block.source) ?_ ?_ ?_ ?_ ?_ read whole
  · nofun
  · intro _ l ls blocks _ ih whole block member
    exact .behind 0 (ih (List.forall_mem_cons.mp whole).2 block member)
  · intro ctx l ls block more blocks _ step ih whole
    refine List.forall_mem_append.mpr ⟨leaf_written whole step, fun block member => ?_⟩
    exact .behind more (ih (forall_mem_behind whole more) block member)
  · intro ctx l ls ordered start run items blocks _ step inner ih whole
    have inside := items_written (fun raw member => ⟨_, aligned_item whole step member⟩)
      (hereditary_whole.list whole step) inner
    refine List.forall_mem_append.mpr ⟨List.forall_mem_cons.mpr ⟨.nil, inside⟩, ?_⟩
    exact fun block member => .behind _ (ih (forall_mem_behind whole _) block member)
  · intro ctx l ls label body more inner blocks _ step ihInner ih whole
    have aligned := (aligned_footnote whole step).imp InnerLine.holds
    have inside := ihInner (hereditary_whole.footnote whole step)
    refine List.forall_mem_append.mpr ⟨List.forall_mem_cons.mpr ⟨.nil, ?_⟩, ?_⟩
    · exact fun block member => .outer aligned (inside block member)
    · exact fun block member => .behind more (ih (forall_mem_behind whole more) block member)

end CommentMarkup
