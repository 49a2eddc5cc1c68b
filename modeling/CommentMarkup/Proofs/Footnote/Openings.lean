import CommentMarkup.Proofs.Block.Prose
import CommentMarkup.Resolution

/-!
# Openings of footnote references

The places where a footnote reference may open are a measure of ink: neither trimming nor joining
lines makes new ones.
-/

namespace CommentMarkup

theorem openingCount_cons (c : Char) (t : Text) :
    openingCount (c :: t) = openingCount t + if c = '[' ∧ t.head? = some '^' then 1 else 0 := by
  by_cases opens : c = '[' ∧ t.head? = some '^'
  · obtain ⟨rfl, head⟩ := opens
    obtain ⟨rest, rfl⟩ := List.head?_eq_some_iff.mp head
    simp [openingCount]
  · rw [if_neg opens, Nat.add_zero]
    rw [openingCount]
    intro rest bracket caret
    exact opens ⟨bracket, by rw [caret]; rfl⟩

theorem openingCount_measure : InkMeasure openingCount where
  append_le a b := by
    induction a with
    | nil => simp [openingCount]
    | cons c a ih =>
      rw [List.cons_append, openingCount_cons, openingCount_cons]
      have heads : (a.head? = some '^' → (a ++ b).head? = some '^') := by
        cases a with
        | nil => simp
        | cons d a => simp
      by_cases opens : c = '[' ∧ a.head? = some '^'
      · rw [if_pos opens, if_pos ⟨opens.1, heads opens.2⟩]
        omega
      · rw [if_neg opens]
        omega
  cut a b c space := by
    have bracket : c ≠ '[' := by
      rintro rfl
      exact absurd space (by decide)
    have caret : c ≠ '^' := by
      rintro rfl
      exact absurd space (by decide)
    induction a with
    | nil =>
      rw [List.nil_append, openingCount_cons, if_neg fun opens => bracket opens.1]
      simp [openingCount]
    | cons d a ih =>
      have heads : (a ++ c :: b).head? = some '^' ↔ a.head? = some '^' := by
        cases a with
        | nil => simp [caret]
        | cons e a => simp
      rw [List.cons_append, openingCount_cons, openingCount_cons, ih]
      simp only [heads]
      omega

theorem Block.openingCount_eq (block : Block) :
    block.openingCount = CommentMarkup.openingCount block.source := by
  cases block <;> rfl

theorem flow_openingCount (blocks : List Block) :
    sumOver Block.openingCount (flow blocks) = sumOver openingCount (prose blocks) := by
  rw [prose, sumOver_map]
  congr 1
  funext block
  exact block.openingCount_eq

/-- The blocks of a footnote's body have no more openings than where they come from. -/
theorem openingCount_blocks {fence : Text} {source : FootnoteSource} {blocks : List Block}
    (h : source.blocks fence = .ok blocks) :
    sumOver Block.openingCount (flow blocks) ≤ source.openingCount := by
  cases source with
  | defined body =>
    cases h
    exact Nat.le_refl _
  | inPlace text =>
    rw [flow_openingCount]
    exact fragment_prose_le openingCount_measure h

end CommentMarkup
