import CommentMarkup.Proofs.Block.Cuttings
import CommentMarkup.Proofs.Line.Definition
import CommentMarkup.Tree.Walk

/-!
# Prose of blocks

The sources of headings and paragraphs are cut out of the lines that are read. `prose_le` says that
they have no more of any measure of ink than these lines.
-/

namespace CommentMarkup

open Text

def Block.source : Block → Text
  | .heading _ content _ | .paragraph content => content.source
  | _ => []

def prose (blocks : List Block) : List Text := (flow blocks).map Block.source

theorem flow_cons (block : Block) (blocks : List Block) :
    flow (block :: blocks) = block.flow ++ flow blocks := rfl

theorem flow_paragraphs (groups : List (List Text)) :
    flow (groups.map paragraph) = groups.map paragraph := by
  induction groups with
  | nil => rfl
  | cons group groups ih =>
    rw [List.map_cons, flow_cons, ih]
    rfl

theorem flow_singleton (block : Block) : flow [block] = block.flow := List.append_nil _

/-! ### Sums -/

theorem sumOver_map {α β : Type} (f : β → Nat) (g : α → β) (l : List α) :
    sumOver f (l.map g) = sumOver (fun a => f (g a)) l := by
  induction l with
  | nil => rfl
  | cons a l ih => rw [List.map_cons, sumOver, sumOver, ih]

theorem sumOver_cons {α : Type} (f : α → Nat) (a : α) (l : List α) :
    sumOver f (a :: l) = f a + sumOver f l := rfl

theorem le_sumOver {α : Type} (f : α → Nat) {a : α} {l : List α} (member : a ∈ l) :
    f a ≤ sumOver f l := by
  induction l with
  | nil => cases member
  | cons b l ih =>
    rw [sumOver_cons]
    rcases List.mem_cons.mp member with rfl | later
    · exact Nat.le_add_right _ _
    · exact (ih later).trans (Nat.le_add_left _ _)

theorem sumOver_take_drop {α : Type} (f : α → Nat) (n : Nat) (l : List α) :
    sumOver f (l.take n) + sumOver f (l.drop n) = sumOver f l := by
  rw [← sumOver_append, List.take_append_drop]

theorem sumOver_drop_le {α : Type} (f : α → Nat) (n : Nat) (l : List α) :
    sumOver f (l.drop n) ≤ sumOver f l := by
  have := sumOver_take_drop f n l
  omega

theorem sumOver_map_le {α β : Type} {f : β → Nat} {g : α → Nat} {h : α → β}
    (le : ∀ a, f (h a) ≤ g a) (l : List α) : sumOver f (l.map h) ≤ sumOver g l := by
  induction l with
  | nil => exact Nat.le_refl _
  | cons a l ih => exact Nat.add_le_add (le a) ih

theorem sumOver_filter_le {α : Type} (f : α → Nat) (p : α → Bool) (l : List α) :
    sumOver f (l.filter p) ≤ sumOver f l := by
  induction l with
  | nil => exact Nat.le_refl _
  | cons a l ih =>
    rw [sumOver_cons]
    by_cases h : p a
    · rw [List.filter_cons_of_pos h, sumOver_cons]
      omega
    · rw [List.filter_cons_of_neg h]
      omega

theorem sumOver_perm {α : Type} (f : α → Nat) {a b : List α} (perm : a.Perm b) :
    sumOver f a = sumOver f b := by
  induction perm with
  | nil => rfl
  | cons x _ ih => exact congrArg (f x + ·) ih
  | swap x y l => exact Nat.add_left_comm (f y) (f x) (sumOver f l)
  | trans _ _ left right => exact left.trans right

theorem sumOver_cutAt_le {α : Type} (f : α → Nat) (p : α → Bool) (l : List α) :
    sumOver (sumOver f) (cutAt p l) ≤ sumOver f l := by
  induction l with
  | nil => exact Nat.le_refl _
  | cons a l ih =>
    unfold cutAt
    split
    · simp only [sumOver]
      omega
    · split
      · simp only [sumOver]
        omega
      · rename_i piece pieces cut
        rw [cut] at ih
        simp only [sumOver_cons] at ih ⊢
        omega

/-! ### Leaves -/

section Leaves

variable {μ : Text → Nat} (measure : InkMeasure μ)

include measure

theorem paragraphText_le (ls : List Text) : μ (paragraphText ls) ≤ sumOver μ ls := by
  have joined : μ (unlines (ls.map Text.trimStart)) ≤ sumOver μ ls := by
    rw [measure.unlines_eq]
    exact sumOver_map_le measure.trimStart_le ls
  exact Nat.le_trans (measure.le_of_infix (strips_trimEnd _).isInfix) joined

theorem quote_prose_le (ls : List Text) :
    sumOver μ (prose [.quote (quoteParagraphs ls)]) ≤ sumOver μ ls := by
  have groups := sumOver_cutAt_le μ Text.isBlank ls
  have filled := sumOver_filter_le (sumOver μ) (fun group => !group.isEmpty)
    (cutAt Text.isBlank ls)
  have texts := sumOver_map_le (h := paragraphText) (paragraphText_le measure)
    ((cutAt Text.isBlank ls).filter fun group => !group.isEmpty)
  have shown : prose [.quote (quoteParagraphs ls)] =
      [] :: ((cutAt Text.isBlank ls).filter fun group => !group.isEmpty).map paragraphText := by
    simp only [prose, Block.flow, flow, quoteParagraphs, flow_paragraphs, List.append_nil,
      List.map_cons, List.map_map]
    rfl
  rw [shown, sumOver_cons, measure.nil]
  omega

theorem bare_prose_le {block : Block} (bare : prose [block] = [[]]) {more : Nat} {l : Text}
    {ls : List Text} :
    sumOver μ (prose [block]) + sumOver μ (ls.drop more) ≤ sumOver μ (l :: ls) := by
  have rest := sumOver_drop_le μ more ls
  have empty := measure.nil
  rw [bare]
  simp only [sumOver]
  omega

/-- A finished block shows no more than the lines that it takes hold. -/
theorem leaf_prose_le {fence : Text} {ctx : Context} {l : Text} {ls : List Text} {block : Block}
    {more : Nat} (step : blockAt fence ctx l ls = .leaf block more) :
    sumOver μ (prose [block]) + sumOver μ (ls.drop more) ≤ sumOver μ (l :: ls) := by
  cases stepAt step with
  | fenced | indented | outline | raw | abbreviation | link | rule =>
    exact bare_prose_le measure rfl
  | @heading level text marked =>
    have part : μ text ≤ μ l := measure.le_of_infix (strips_heading marked).isInfix
    have shown : sumOver μ (prose [headingBlock level text]) = μ text := rfl
    rw [shown, sumOver_cons]
    exact Nat.add_le_add_right part _
  | quote marked =>
    have shown := quote_prose_le measure (quoteLines fence false (l :: ls))
    have held := (cuttings_quote fence marked ls).le_drop measure
    omega
  | @underlined level =>
    have part := measure.trim_le l
    have rest := sumOver_drop_le μ 1 ls
    have shown : sumOver μ (prose [headingBlock level l.trim]) = μ l.trim := rfl
    rw [shown, sumOver_cons]
    omega
  | paragraph =>
    have part := paragraphText_le measure (l :: ls.take (paragraphExtent fence ctx ls))
    have parts := sumOver_take_drop μ (paragraphExtent fence ctx ls) ls
    have shown (lines : List Text) :
        sumOver μ (prose [paragraph lines]) = μ (paragraphText lines) := rfl
    rw [shown, sumOver_cons]
    rw [sumOver_cons] at part
    omega

end Leaves

/-! ### Blocks -/

section Values

variable {μ : Text → Nat} (measure : InkMeasure μ) {fence : Text} {value : Block → Nat}

include measure

theorem footnote_body_le {ctx : Context} {l label : Text} {ls body : List Text} {more : Nat}
    (step : blockAt fence ctx l ls = .footnote label body more) :
    sumOver μ body + sumOver μ (ls.drop more) ≤ sumOver μ (l :: ls) := by
  cases stepAt step with
  | @footnote d defines =>
    have first : μ d.rest.trim ≤ μ l :=
      Nat.le_trans (measure.trim_le _) (measure.le_of_infix (rest_suffix defines).isInfix)
    have others := sumOver_map_le measure.trim_le (ls.takeWhile (continuesFootnote l))
    have parts := sumOver_append μ (ls.takeWhile (continuesFootnote l))
      (ls.dropWhile (continuesFootnote l))
    rw [List.takeWhile_append_dropWhile] at parts
    rw [drop_takeWhile_length, sumOver_cons, sumOver_cons]
    omega

theorem items_value_le {raws : List RawItem} {items : List (Item Block)}
    (read : ItemsRead (fun _ ls blocks => sumOver value (flow blocks) ≤ sumOver μ ls) raws items) :
    sumOver value (itemsFlow items) ≤ sumOver μ (raws.flatMap RawItem.body) := by
  induction read with
  | nil => exact Nat.le_refl _
  | @cons raw item raws items inner _ ih =>
    have body := Nat.le_trans inner.2 (measure.relines_le raw.body)
    rw [itemsFlow, sumOver_append, List.flatMap_cons, sumOver_append]
    exact Nat.add_le_add body ih

/-- A value of blocks that every finished block draws from its lines, and a footnote from its body,
is drawn from the lines by all blocks together. -/
theorem values_le
    (leaf : ∀ {ctx l ls block more}, blockAt fence ctx l ls = .leaf block more →
      sumOver value block.flow + sumOver μ (ls.drop more) ≤ sumOver μ (l :: ls))
    (list : ∀ ordered start tight items, value (.list ordered start tight items) = 0)
    (footnote : ∀ label inner, value (.footnoteDef label inner) ≤ sumOver value (flow inner))
    {ctx : Context} {n : Nat} {ls : List Text} {blocks : List Block}
    (h : readBlocks fence ctx n ls = .ok blocks) :
    sumOver value (flow blocks) ≤ sumOver μ ls := by
  refine readBlocks_induction
    (motive := fun _ ls blocks => sumOver value (flow blocks) ≤ sumOver μ ls) ?_ ?_ ?_ ?_ ?_ h
  · intro _
    exact Nat.le_refl _
  · intro _ l ls blocks _ ih
    rw [sumOver_cons]
    omega
  · intro _ l ls block more blocks _ step ih
    have here := leaf step
    rw [flow_cons, sumOver_append]
    omega
  · intro _ l ls ordered start run items blocks _ step read ih
    have held := (cuttings_list step).le_drop measure
    have inner := items_value_le measure read
    have none := list ordered start run.tight items
    rw [flow_cons, sumOver_append, Block.flow, sumOver_cons]
    omega
  · intro _ l ls label body more inner blocks _ step read ih
    have held := footnote_body_le measure step
    have drawn := Nat.le_trans (footnote label inner)
      (Nat.le_trans read (measure.relines_le body))
    have shown : (Block.footnoteDef label inner).flow = [.footnoteDef label inner] := rfl
    rw [flow_cons, sumOver_append, shown, sumOver_cons, sumOver]
    omega

end Values

/-- The sources of headings and paragraphs have no more of a measure than the lines read. -/
theorem prose_le {μ : Text → Nat} (measure : InkMeasure μ) {fence : Text} {ctx : Context} {n : Nat}
    {ls : List Text} {blocks : List Block} (h : readBlocks fence ctx n ls = .ok blocks) :
    sumOver μ (prose blocks) ≤ sumOver μ ls := by
  rw [prose, sumOver_map]
  refine values_le measure (fun step => ?_) (fun _ _ _ _ => measure.nil) (fun _ _ => ?_) h
  · have shown := leaf_prose_le measure step
    rwa [prose, flow_singleton, sumOver_map] at shown
  · exact (Nat.le_of_eq measure.nil).trans (Nat.zero_le _)

theorem fragment_prose_le {μ : Text → Nat} (measure : InkMeasure μ) {fence text : Text}
    {blocks : List Block} (h : readFragment fence text = .ok blocks) :
    sumOver μ (prose blocks) ≤ μ text :=
  Nat.le_trans (prose_le measure h) (measure.lines_le text)

end CommentMarkup
