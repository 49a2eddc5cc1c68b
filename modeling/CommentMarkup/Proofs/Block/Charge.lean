import CommentMarkup.Proofs.Block.Prose
import CommentMarkup.Proofs.Text.Within

/-!
# What blocks draw from their lines

The strings that blocks show or define are cut out of the lines that are read, each string out of
other characters: together they have no more of a measure than these lines.
-/

namespace CommentMarkup

open Text

def Target.cost (μ : Text → Nat) (target : Target) : Nat := μ target.url + μ (target.title.getD [])

def Block.cost (μ : Text → Nat) : Block → Nat
  | .heading _ content _ | .paragraph content => μ content.source
  | .code _ literal => μ literal
  | .rawHtml _ html => μ html
  | _ => 0

/-- What a block has of a measure, with what it defines. -/
def Block.charge (μ : Text → Nat) : Block → Nat
  | .abbreviationDef _ expansion => μ expansion
  | .referenceDef _ target => target.cost μ
  | .footnoteDef _ body => sumOver (Block.cost μ) (CommentMarkup.flow body)
  | block => block.cost μ

theorem Block.cost_le_charge (μ : Text → Nat) (block : Block) : block.cost μ ≤ block.charge μ := by
  cases block <;> first | exact Nat.le_refl _ | exact Nat.zero_le _

theorem sumOver_le {α : Type} {f g : α → Nat} (le : ∀ a, f a ≤ g a) (l : List α) :
    sumOver f l ≤ sumOver g l := by
  have mapped := sumOver_map_le (h := id) le l
  rwa [List.map_id] at mapped

section Measure

variable {μ : Text → Nat} (measure : InkMeasure μ)

include measure

theorem literalText_eq (ls : List Text) : μ (literalText ls) = sumOver μ ls := by
  induction ls with
  | nil => exact measure.nil
  | cons l ls ih =>
    have cut := measure.cut l (literalText ls) (c := '\n') (by decide)
    have shape : literalText (l :: ls) = l ++ '\n' :: literalText ls := by
      simp [literalText]
    rw [shape, cut, ih, sumOver_cons]

theorem title_le {t title : Text} (h : title? t = some title) : μ title ≤ μ t := by
  cases t with
  | nil => cases h
  | cons mark rest =>
    obtain ⟨_, eq⟩ := Option.ite_none_right_eq_some.mp h
    cases eq
    have part : rest.dropLast <:+: mark :: rest :=
      (List.dropLast_prefix rest).isInfix.trans (List.suffix_cons mark rest).isInfix
    exact measure.le_of_infix part

theorem splitTarget_le {rest url after : Text} (h : splitTarget? rest = some (url, after)) :
    μ url + μ after ≤ μ rest := by
  have whole := measure.trim_le rest
  have two {front back : Text} (inside : front ++ back <:+: rest.trim) :
      μ front + μ back.trim ≤ μ rest := by
    have parts := measure.append_le front back
    have part := measure.trim_le back
    have outer := measure.le_of_infix inside
    omega
  unfold splitTarget? at h
  split at h
  · rename_i inner eq
    split at h
    · cases h
    · cases h
    · rename_i n _ found
      cases h
      have split := find_split found
      rw [List.length_singleton] at split
      have last := measure.append_le (inner.take n) (['>'] ++ inner.drop (n + 1))
      have skipped := measure.append_le ['>'] (inner.drop (n + 1))
      have part := measure.trim_le (inner.drop (n + 1))
      have outer : μ inner ≤ μ rest.trim :=
        measure.le_of_infix (by rw [eq]; exact (List.suffix_cons _ _).isInfix)
      rw [← List.append_assoc, split] at last
      omega
  · dsimp only at h
    split at h
    · cases h
    · cases h
      refine two ?_
      simp only [drop_takeWhile_length, List.takeWhile_append_dropWhile, List.infix_rfl]

theorem linkTarget_le {line rest : Text} {ls : List Text} {target : Target} {more : Nat}
    (h : linkTarget? line rest ls.head? = some (target, more)) :
    target.cost μ + sumOver μ (ls.drop more) ≤ μ rest + sumOver μ ls := by
  unfold linkTarget? at h
  obtain ⟨⟨url, after⟩, split, h⟩ := Option.bind_eq_some_iff.mp h
  have parts := splitTarget_le measure split
  dsimp only at h
  split at h
  · split at h
    · rename_i title titled
      cases h
      cases ls with
      | nil => cases titled
      | cons next ls =>
        obtain ⟨l, kept, title'⟩ := Option.bind_eq_some_iff.mp titled
        have same : next = l := by
          rw [List.head?_cons, Option.filter_eq_some_iff] at kept
          exact Option.some.inj kept.1
        subst same
        have inner := title_le measure title'
        have trimmed := measure.trim_le next
        simp only [Target.cost, Option.getD_some, List.drop_succ_cons, List.drop_zero,
          sumOver_cons]
        omega
    · cases h
      have empty := measure.nil
      simp only [Target.cost, Option.getD_none, List.drop_zero]
      omega
  · obtain ⟨title, titled, eq⟩ := Option.map_eq_some_iff.mp h
    cases eq
    have inner := title_le measure titled
    simp only [Target.cost, Option.getD_some, List.drop_zero]
    omega

end Measure

/-! ### Leaves -/

section Charge

variable {μ : Text → Nat} (measure : EscapeMeasure μ) {fence : Text}

include measure

theorem quote_charge_le (ls : List Text) :
    sumOver (Block.charge μ) (Block.flow (.quote (quoteParagraphs ls))) ≤ sumOver μ ls := by
  have shown := quote_prose_le measure.toInkMeasure ls
  rw [prose, flow_singleton, sumOver_map] at shown
  have same (groups : List (List Text)) :
      sumOver (Block.charge μ) (groups.map paragraph) =
        sumOver (fun block => μ block.source) (groups.map paragraph) := by
    rw [sumOver_map, sumOver_map]
    rfl
  simp only [Block.flow, quoteParagraphs, flow_paragraphs, sumOver_cons, same] at shown ⊢
  have none : Block.charge μ (.quote (quoteParagraphs ls)) = 0 := rfl
  simp only [quoteParagraphs] at none
  omega

theorem leaf_charge_le {ctx : Context} {l : Text} {ls : List Text} {block : Block} {more : Nat}
    (step : blockAt fence ctx l ls = .leaf block more) :
    sumOver (Block.charge μ) block.flow + sumOver μ (ls.drop more) ≤ sumOver μ (l :: ls) := by
  have ink := measure.toInkMeasure
  have shown := leaf_prose_le ink step
  cases stepAt step with
  | @fenced info n opens closes =>
    have content := sumOver_map_le
      (fun part => (remains_removeIndent (indentColumns l) part).le ink) (ls.take n)
    have taken := sumOver_take_drop μ n ls
    have left : sumOver μ (ls.drop (n + 1)) ≤ sumOver μ (ls.drop n) := by
      rw [← List.drop_drop]
      exact sumOver_drop_le μ 1 _
    simp only [Block.flow, sumOver, Block.charge, Block.cost, literalText_eq ink]
    omega
  | @indented document code =>
    have lines := (cuttings_codeLines (isTabbed l) ls).le ink
    have taken := sumOver_take_drop μ (codeLines (isTabbed l) ls).length ls
    have first := ink.le_of_infix (strips_dropCodeIndent l).isInfix
    simp only [Block.flow, sumOver, Block.charge, Block.cost, literalText_eq ink]
    omega
  | @raw tag n opens closes =>
    have written := (Within.neutralizeTags measure (unlines ((l :: ls).take n))).le
    rw [ink.unlines_eq] at written
    have whole := sumOver_take_drop μ n (l :: ls)
    rw [sumOver_cons] at whole
    have left : sumOver μ (ls.drop (n - 1)) ≤ sumOver μ ((l :: ls).drop n) := by
      obtain ⟨k, rfl⟩ := Nat.exists_eq_add_one_of_ne_zero
        (Nat.pos_iff_ne_zero.mp (rawExtent_pos closes))
      exact Nat.le_refl _
    simp only [Block.flow, sumOver, Block.charge, Block.cost]
    omega
  | @abbreviation d defines kind =>
    have trimmed := ink.trim_le d.rest
    have inner := ink.le_of_infix (rest_suffix defines).isInfix
    simp only [Block.flow, sumOver, Block.charge, List.drop_zero]
    omega
  | @link d target more defines kind proper =>
    have drawn := linkTarget_le ink proper
    have inner := ink.le_of_infix (rest_suffix defines).isInfix
    simp only [Block.flow, sumOver, Block.charge]
    omega
  | outline | rule =>
    simp only [Block.flow, sumOver, Block.charge, Block.cost, List.drop_zero]
    omega
  | heading | underlined | paragraph => exact shown
  | quote marked =>
    have drawn := quote_charge_le measure (quoteLines fence false (l :: ls))
    have held := (cuttings_quote fence marked ls).le_drop ink
    omega

theorem charge_le {ctx : Context} {n : Nat} {ls : List Text} {blocks : List Block}
    (h : readBlocks fence ctx n ls = .ok blocks) :
    sumOver (Block.charge μ) (flow blocks) ≤ sumOver μ ls :=
  values_le measure.toInkMeasure (leaf_charge_le measure) (fun _ _ _ _ => rfl)
    (fun _ inner => sumOver_le (Block.cost_le_charge μ) (flow inner)) h

/-- The strings that a text shows or defines have no more of the measure than the text. -/
theorem document_charge_le {text : Text} {blocks : List Block}
    (h : readDocument fence text = .ok blocks) :
    sumOver (Block.charge μ) (flow blocks) ≤ μ text :=
  (charge_le measure h).trans (measure.toInkMeasure.lines_le text)

theorem fragment_cost_le {text : Text} {blocks : List Block}
    (h : readFragment fence text = .ok blocks) : sumOver (Block.cost μ) (flow blocks) ≤ μ text :=
  (sumOver_le (Block.cost_le_charge μ) (flow blocks)).trans
    ((charge_le measure h).trans (measure.toInkMeasure.lines_le text))

end Charge

end CommentMarkup
