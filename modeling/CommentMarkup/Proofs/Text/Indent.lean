import CommentMarkup.Text.Ink
import Mathlib.Data.List.TakeWhile

/-!
# Indentation

The columns that spaces and tabs reach, and those that are left of them when a line is taken back to
a column. A tab that is left is counted from the new first column, and moves off its stop unless the
line is taken back by whole tab stops: `indentColumns_removeIndent_iff`.
-/

namespace CommentMarkup

/-! ### Counting -/

theorem indentFrom_space (col : Nat) (l : Text) :
    indentFrom col (' ' :: l) = indentFrom (col + 1) l :=
  rfl

theorem indentFrom_tab (col : Nat) (l : Text) :
    indentFrom col ('\t' :: l) = indentFrom (tabStop col) l :=
  rfl

theorem indentFrom_bare {l : Text} (bare : l.takeWhile isIndent = []) (col : Nat) :
    indentFrom col l = col := by
  unfold indentFrom
  split
  · simp [isIndent] at bare
  · simp [isIndent] at bare
  · rfl

/-- Induction over the indentation of a line that begins at a column. -/
@[elab_as_elim]
theorem indent_induction {motive : Nat → Text → Prop}
    (space : ∀ col l, motive (col + 1) l → motive col (' ' :: l))
    (tab : ∀ col l, motive (tabStop col) l → motive col ('\t' :: l))
    (bare : ∀ col l, l.takeWhile isIndent = [] → motive col l) (col : Nat) (l : Text) :
    motive col l := by
  induction l generalizing col with
  | nil => exact bare col [] rfl
  | cons c l ih =>
    by_cases indent : isIndent c
    · simp only [isIndent, Bool.or_eq_true, beq_iff_eq] at indent
      rcases indent with rfl | rfl
      · exact space col l (ih (col + 1))
      · exact tab col l (ih (tabStop col))
    · exact bare col (c :: l) (List.takeWhile_cons_of_neg indent)

theorem lt_tabStop (col : Nat) : col < tabStop col := by
  unfold tabStop
  omega

theorem le_indentFrom (col : Nat) (l : Text) : col ≤ indentFrom col l := by
  induction col, l using indent_induction with
  | space col l ih => exact Nat.le_of_succ_le ih
  | tab col l ih => exact Nat.le_trans (Nat.le_of_lt (lt_tabStop col)) ih
  | bare col l bare => rw [indentFrom_bare bare]

theorem indentFrom_tabStop (col columns : Nat) (l : Text) (stop : 4 ∣ columns) :
    indentFrom (col + columns) l = indentFrom col l + columns := by
  induction col, l using indent_induction with
  | space col l ih => rw [indentFrom_space, indentFrom_space, Nat.add_right_comm, ih]
  | tab col l ih =>
    have same : tabStop (col + columns) = tabStop col + columns := by
      unfold tabStop
      omega
    rw [indentFrom_tab, indentFrom_tab, same, ih]
  | bare col l bare => rw [indentFrom_bare bare, indentFrom_bare bare]

/-- Begun further to the right, indentation reaches as far to the right of its end, if a tab does
not take that up. -/
theorem indentFrom_add_iff (col columns : Nat) (l : Text) :
    indentFrom (col + columns) l = indentFrom col l + columns ↔
      4 ∣ columns ∨ '\t' ∉ l.takeWhile isIndent := by
  induction col, l using indent_induction with
  | space col l ih =>
    rw [indentFrom_space, indentFrom_space, Nat.add_right_comm, ih,
      List.takeWhile_cons_of_pos rfl, List.mem_cons]
    simp
  | tab col l ih =>
    have counted : ('\t' ∉ ('\t' :: l).takeWhile isIndent) ↔ False := by
      simp [List.takeWhile_cons_of_pos, isIndent]
    obtain ⟨stops, later⟩ : ∃ stops, tabStop (col + columns) = tabStop col + 4 * stops :=
      ⟨(col + columns) / 4 - col / 4, by unfold tabStop; omega⟩
    rw [counted, or_false, indentFrom_tab, indentFrom_tab, later,
      indentFrom_tabStop _ _ _ (Nat.dvd_mul_right 4 stops)]
    constructor
    · intro same
      exact ⟨stops, by omega⟩
    · intro stop
      have same : tabStop (col + columns) = tabStop col + columns := by
        unfold tabStop
        omega
      omega
  | bare col l bare =>
    rw [indentFrom_bare bare, indentFrom_bare bare, bare]
    simp

theorem indentFrom_takeWhile (col : Nat) (l : Text) :
    indentFrom col (l.takeWhile isIndent) = indentFrom col l := by
  induction col, l using indent_induction with
  | space col l ih => rw [List.takeWhile_cons_of_pos rfl, indentFrom_space, ih, indentFrom_space]
  | tab col l ih => rw [List.takeWhile_cons_of_pos rfl, indentFrom_tab, ih, indentFrom_tab]
  | bare col l bare =>
    rw [bare, indentFrom_bare bare]
    rfl

theorem indentColumns_takeWhile (l : Text) :
    indentColumns l = indentFrom 0 (l.takeWhile isIndent) :=
  (indentFrom_takeWhile 0 l).symm

theorem isEmpty_iff_columns (l : Text) :
    l.isEmpty ↔ indentColumns l = 0 ∧ l.dropWhile isIndent = [] := by
  constructor
  · intro empty
    rw [List.isEmpty_iff.mp empty]
    exact ⟨rfl, rfl⟩
  · rintro ⟨margin, bare⟩
    cases l with
    | nil => rfl
    | cons c l =>
      have indent : isIndent c := List.dropWhile_eq_nil_iff.mp bare c List.mem_cons_self
      simp only [isIndent, Bool.or_eq_true, beq_iff_eq] at indent
      rcases indent with rfl | rfl
      · have further : 0 < indentColumns (' ' :: l) := le_indentFrom 1 l
        exact absurd margin (Nat.ne_of_gt further)
      · have further : 0 < indentColumns ('\t' :: l) :=
          Nat.lt_of_lt_of_le (lt_tabStop 0) (le_indentFrom (tabStop 0) l)
        exact absurd margin (Nat.ne_of_gt further)

/-! ### Taking back -/

theorem removeIndentFrom_reached {limit col : Nat} (reached : limit ≤ col) (l : Text) :
    removeIndentFrom limit col l = l := by
  unfold removeIndentFrom
  split
  · exact if_neg (Nat.not_lt.mpr reached)
  · exact if_neg (Nat.not_lt.mpr reached)
  · rfl

theorem removeIndentFrom_space {limit col : Nat} (short : col < limit) (l : Text) :
    removeIndentFrom limit col (' ' :: l) = removeIndentFrom limit (col + 1) l :=
  if_pos short

theorem removeIndentFrom_tab {limit col : Nat} (short : col < limit) (l : Text) :
    removeIndentFrom limit col ('\t' :: l) =
      List.replicate (tabStop col - limit) ' ' ++ removeIndentFrom limit (tabStop col) l :=
  if_pos short

theorem removeIndentFrom_bare {l : Text} (bare : l.takeWhile isIndent = []) (limit col : Nat) :
    removeIndentFrom limit col l = l := by
  unfold removeIndentFrom
  split
  · simp [isIndent] at bare
  · simp [isIndent] at bare
  · rfl

theorem removeIndent_zero (l : Text) : removeIndent 0 l = l :=
  removeIndentFrom_reached (Nat.le_refl 0) l

theorem indentFrom_replicate (col n : Nat) (l : Text) :
    indentFrom col (List.replicate n ' ' ++ l) = indentFrom (col + n) l := by
  induction n generalizing col with
  | zero => rfl
  | succ n ih =>
    rw [List.replicate_succ, List.cons_append, indentFrom_space, ih, Nat.add_right_comm,
      Nat.add_assoc]

/-- Counted from the column it is taken back to, a line reaches the column that it reached. -/
theorem indentFrom_removeIndentFrom {limit col : Nat} {l : Text} (before : col ≤ limit)
    (deep : limit ≤ indentFrom col l) :
    indentFrom limit (removeIndentFrom limit col l) = indentFrom col l := by
  induction col, l using indent_induction with
  | space col l ih =>
    by_cases short : col < limit
    · rw [removeIndentFrom_space short]
      exact ih short deep
    · rw [removeIndentFrom_reached (Nat.not_lt.mp short),
        Nat.le_antisymm before (Nat.not_lt.mp short)]
  | tab col l ih =>
    by_cases short : col < limit
    · rw [removeIndentFrom_tab short, indentFrom_replicate, indentFrom_tab]
      rw [indentFrom_tab] at deep
      by_cases stop : tabStop col ≤ limit
      · rw [Nat.sub_eq_zero_of_le stop]
        exact ih stop deep
      · rw [Nat.add_sub_cancel' (Nat.le_of_not_le stop),
          removeIndentFrom_reached (Nat.le_of_not_le stop)]
    · rw [removeIndentFrom_reached (Nat.not_lt.mp short),
        Nat.le_antisymm before (Nat.not_lt.mp short)]
  | bare col l bare =>
    rw [indentFrom_bare bare] at deep
    rw [removeIndentFrom_bare bare, Nat.le_antisymm before deep]

/-- Behind less indentation nothing is left of it. -/
theorem takeWhile_removeIndentFrom {limit col : Nat} {l : Text}
    (shallow : indentFrom col l < limit) :
    (removeIndentFrom limit col l).takeWhile isIndent = [] := by
  have short : col < limit := Nat.lt_of_le_of_lt (le_indentFrom col l) shallow
  induction col, l using indent_induction with
  | space col l ih =>
    rw [removeIndentFrom_space short]
    exact ih shallow (Nat.lt_of_le_of_lt (le_indentFrom _ l) shallow)
  | tab col l ih =>
    have stop : tabStop col < limit := Nat.lt_of_le_of_lt (le_indentFrom _ l) shallow
    rw [removeIndentFrom_tab short, Nat.sub_eq_zero_of_le (Nat.le_of_lt stop)]
    exact ih shallow stop
  | bare col l bare => rw [removeIndentFrom_bare bare, bare]

theorem dropWhile_removeIndent (columns : Nat) (l : Text) :
    (removeIndent columns l).dropWhile isIndent = l.dropWhile isIndent := by
  have spaces (n : Nat) (t : Text) :
      (List.replicate n ' ' ++ t).dropWhile isIndent = t.dropWhile isIndent := by
    apply List.dropWhile_append_of_pos
    intro c member
    rw [List.eq_of_mem_replicate member]
    rfl
  unfold removeIndent
  generalize 0 = col
  induction col, l using indent_induction with
  | space col l ih =>
    by_cases short : col < columns
    · rw [removeIndentFrom_space short, ih, List.dropWhile_cons_of_pos rfl]
    · rw [removeIndentFrom_reached (Nat.not_lt.mp short)]
  | tab col l ih =>
    by_cases short : col < columns
    · rw [removeIndentFrom_tab short, spaces, ih, List.dropWhile_cons_of_pos rfl]
    · rw [removeIndentFrom_reached (Nat.not_lt.mp short)]
  | bare col l bare => rw [removeIndentFrom_bare bare]

/-- Taking the line back to the column moves no tab that is left off its stop. -/
def KeepsStops (columns : Nat) (l : Text) : Prop :=
  4 ∣ columns ∨ '\t' ∉ (removeIndent columns l).takeWhile isIndent

/-- The columns that should be left are left just where no tab moves off its stop. -/
theorem indentColumns_removeIndent_iff (columns : Nat) (l : Text) :
    indentColumns (removeIndent columns l) = indentColumns l - columns ↔ KeepsStops columns l := by
  unfold KeepsStops
  by_cases deep : columns ≤ indentColumns l
  · have reach : indentFrom (0 + columns) (removeIndent columns l) = indentColumns l := by
      rw [Nat.zero_add]
      exact indentFrom_removeIndentFrom (Nat.zero_le _) deep
    rw [← indentFrom_add_iff 0, reach, ← indentColumns]
    omega
  · have bare : (removeIndent columns l).takeWhile isIndent = [] :=
      takeWhile_removeIndentFrom (Nat.lt_of_not_le deep)
    have none : indentColumns (removeIndent columns l) = 0 := indentFrom_bare bare 0
    rw [bare, none, Nat.sub_eq_zero_of_le (Nat.le_of_not_le deep)]
    simp

end CommentMarkup
