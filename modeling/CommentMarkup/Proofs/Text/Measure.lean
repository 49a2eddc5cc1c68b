import CommentMarkup.Text.Ink

/-!
# Measures of ink

A measure of ink counts something that white space cannot be part of, such as characters or phrases
without white space. Trimming, taking indentation away and cutting a text into lines never add to
it, and joining lines adds them up.
-/

namespace CommentMarkup

/-- White space separates what `μ` counts, and parts of a text have no more of it than the whole. -/
structure InkMeasure (μ : Text → Nat) : Prop where
  append_le (a b : Text) : μ a + μ b ≤ μ (a ++ b)
  cut (a b : Text) {c : Char} (space : isSpace c) : μ (a ++ c :: b) = μ a + μ b

theorem Text.dropEndWhile_isPrefix (p : Char → Bool) (t : Text) : t.dropEndWhile p <+: t := by
  rw [dropEndWhile, ← List.reverse_suffix, List.reverse_reverse]
  exact List.dropWhile_suffix p

theorem Text.trim_infix (t : Text) : t.trim <:+: t := by
  have front : t.trimStart <:+ t := List.dropWhile_suffix isSpace
  have back : t.trimStart.trimEnd <+: t.trimStart := dropEndWhile_isPrefix isSpace _
  exact back.isInfix.trans front.isInfix

theorem unlines_singleton (l : Text) : unlines [l] = l := by simp [unlines]

theorem unlines_cons_cons (l l' : Text) (ls : List Text) :
    unlines (l :: l' :: ls) = l ++ '\n' :: unlines (l' :: ls) := by
  simp [unlines, List.intercalate_cons_cons]

namespace InkMeasure

variable {μ : Text → Nat} (measure : InkMeasure μ)

include measure

theorem nil : μ [] = 0 := by
  have := measure.append_le [] []
  simp only [List.append_nil] at this
  omega

theorem space_cons {c : Char} (space : isSpace c) (t : Text) : μ (c :: t) = μ t := by
  have := measure.cut [] t space
  rw [measure.nil] at this
  simpa using this

theorem le_of_infix {a b : Text} (part : a <:+: b) : μ a ≤ μ b := by
  obtain ⟨front, back, rfl⟩ := part
  have inner := measure.append_le front a
  have outer := measure.append_le (front ++ a) back
  omega

theorem trim_le (t : Text) : μ t.trim ≤ μ t := measure.le_of_infix t.trim_infix

theorem trimStart_le (t : Text) : μ t.trimStart ≤ μ t :=
  measure.le_of_infix (List.dropWhile_suffix isSpace).isInfix

theorem replicate_space (n : Nat) (t : Text) : μ (List.replicate n ' ' ++ t) = μ t := by
  induction n with
  | zero => simp
  | succ n ih => rw [List.replicate_succ, List.cons_append, measure.space_cons (by decide), ih]

/-! ### Lines -/

theorem unlines_eq (ls : List Text) : μ (unlines ls) = sumOver μ ls := by
  induction ls with
  | nil => exact measure.nil
  | cons l ls ih =>
    cases ls with
    | nil => simp [unlines, sumOver]
    | cons l' ls => rw [unlines_cons_cons, measure.cut _ _ (by decide), ih]; rfl

/-- The first line is measured with a text in front, so that characters can be added to it. -/
theorem headed_lines_le (front t : Text) :
    μ (front ++ (lines t).headD []) + sumOver μ (lines t).tail ≤ μ (front ++ t) := by
  fun_induction lines t generalizing front with
  | case1 => simp [sumOver]
  | case2 cs ih =>
    have rest := ih []
    rw [measure.cut _ _ (by decide)]
    cases hl : lines cs with
    | nil => simp [sumOver]
    | cons l ls =>
      simp only [hl, List.headD_cons, List.tail_cons, List.nil_append, List.append_nil,
        sumOver] at rest ⊢
      omega
  | case3 cs ih =>
    have rest := ih []
    rw [measure.cut _ _ (by decide), measure.space_cons (by decide)]
    cases hl : lines cs with
    | nil => simp [sumOver]
    | cons l ls =>
      simp only [hl, List.headD_cons, List.tail_cons, List.nil_append, List.append_nil,
        sumOver] at rest ⊢
      omega
  | case4 c cs _ _ hnil ih =>
    have rest := ih (front ++ [c])
    simpa [hnil, sumOver] using rest
  | case5 c cs _ _ l ls hcons ih =>
    have rest := ih (front ++ [c])
    simpa [hcons] using rest

theorem lines_le (t : Text) : sumOver μ (lines t) ≤ μ t := by
  have bound := measure.headed_lines_le [] t
  cases hl : lines t with
  | nil => simp [sumOver]
  | cons l ls =>
    rw [hl] at bound
    simpa [sumOver] using bound

theorem relines_le (ls : List Text) : sumOver μ (lines (unlines ls)) ≤ sumOver μ ls :=
  Nat.le_trans (measure.lines_le _) (Nat.le_of_eq (measure.unlines_eq ls))

end InkMeasure
end CommentMarkup
