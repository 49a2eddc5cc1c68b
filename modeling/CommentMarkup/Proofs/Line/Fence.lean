import CommentMarkup.Options
import CommentMarkup.Line.Shape
import CommentMarkup.Proofs.Text.Cut
import CommentMarkup.Proofs.Text.Foreign

/-!
# Info words of fences

An opening fence keeps the first word after it. Lines on which at most one word follows the fence
lose nothing, and what is cut out of such a line is of the same kind.
-/

namespace CommentMarkup

open Text

/-- A fence of ASCII characters without white space. -/
structure SolidFence (fence : Text) : Prop where
  filled : fence ≠ []
  ink : ∀ c ∈ fence, ¬ isSpace c
  plain : Plain fence

theorem solidFence_default : SolidFence Options.default.fence where
  filled := by decide
  ink := by simpa using (by decide : Options.default.fence.all fun c => !isSpace c)
  plain := plain_iff_all.mpr (by decide)

/-- At most one word follows any place in the line where the fence stands. -/
def OneInfoWord (fence l : Text) : Prop :=
  ∀ before after, l = before ++ fence ++ after → (words after).length ≤ 1

/-! ### Words -/

theorem words_cons_space {c : Char} (space : isSpace c) (t : Text) : words (c :: t) = words t := by
  rw [words, cutAt_cons_pos space]
  rfl

theorem words_cons_ink {c : Char} (ink : ¬ isSpace c) (t : Text) :
    (words (c :: t)).length =
      if t.startsWith (fun d => !isSpace d) then (words t).length else (words t).length + 1 := by
  obtain ⟨piece, pieces, eq, whole⟩ := cutAt_cons_neg (p := isSpace) ink t
  rw [words, whole, words, eq]
  cases t with
  | nil =>
    cases eq
    rfl
  | cons d t =>
    by_cases space : isSpace d
    · rw [cutAt_cons_pos space] at eq
      cases eq
      simp [startsWith, space]
    · obtain ⟨first, others, eq', whole'⟩ := cutAt_cons_neg (p := isSpace) space t
      rw [whole'] at eq
      cases eq
      simp [startsWith, space]

theorem words_ne_nil {c : Char} (ink : ¬ isSpace c) (t : Text) : words (c :: t) ≠ [] := by
  obtain ⟨piece, pieces, _, whole⟩ := cutAt_cons_neg (p := isSpace) ink t
  rw [words, whole]
  simp

theorem words_length_le_cons (c : Char) (t : Text) :
    (words t).length ≤ (words (c :: t)).length := by
  by_cases space : isSpace c
  · rw [words_cons_space space]
  · rw [words_cons_ink space]
    split <;> omega

theorem words_length_le_append (a b : Text) : (words a).length ≤ (words (a ++ b)).length := by
  induction a with
  | nil => exact Nat.zero_le _
  | cons c a ih =>
    rw [List.cons_append]
    by_cases space : isSpace c
    · rwa [words_cons_space space, words_cons_space space]
    · cases a with
      | nil =>
        rw [words_cons_ink space]
        exact List.length_pos_iff.mpr (words_ne_nil space b)
      | cons d a =>
        rw [words_cons_ink space, words_cons_ink space]
        rw [List.cons_append] at ih ⊢
        by_cases blank : isSpace d
        · simpa [startsWith, blank] using ih
        · simpa [startsWith, blank] using ih

theorem words_length_le_part {part l : Text} (inside : part <:+: l) :
    (words part).length ≤ (words l).length := by
  obtain ⟨front, back, rfl⟩ := inside
  rw [List.append_assoc]
  induction front with
  | nil => exact words_length_le_append part back
  | cons c front ih => exact Nat.le_trans ih (words_length_le_cons c _)

theorem foreign_cutAt (t : Text) : (cutAt isSpace t).flatMap foreign = t.foreign := by
  induction t with
  | nil => rfl
  | cons c t ih =>
    by_cases space : isSpace c
    · rw [cutAt_cons_pos space, List.flatMap_cons, ih, foreign_nil, List.nil_append,
        foreign_cons_plain (not_foreign_of_space space)]
    · obtain ⟨piece, pieces, eq, whole⟩ := cutAt_cons_neg (p := isSpace) space t
      rw [whole, ← List.singleton_append (l := t), foreign_append, ← ih, eq, List.flatMap_cons,
        List.flatMap_cons, ← List.singleton_append (l := piece), foreign_append, List.append_assoc]

theorem foreign_words (t : Text) : (words t).flatMap foreign = t.foreign := by
  rw [← foreign_cutAt t, words]
  induction cutAt isSpace t with
  | nil => rfl
  | cons piece pieces ih =>
    cases piece with
    | nil => simpa using ih
    | cons c piece => simpa using ih

/-! ### Fences -/

theorem OneInfoWord.of_infix {fence l part : Text} (one : OneInfoWord fence l)
    (inside : part <:+: l) : OneInfoWord fence part := by
  obtain ⟨front, back, rfl⟩ := inside
  rintro before after rfl
  have few := one (front ++ before) (after ++ back) (by simp)
  exact Nat.le_trans (words_length_le_append after back) few

theorem OneInfoWord.of_words {fence l : Text} (few : (words l).length ≤ 1) :
    OneInfoWord fence l := by
  rintro before after rfl
  exact Nat.le_trans (words_length_le_part (List.suffix_append _ after).isInfix) few

theorem OneInfoWord.space {fence l : Text} (solid : SolidFence fence) (one : OneInfoWord fence l) :
    OneInfoWord fence (' ' :: l) := by
  intro before after split
  cases before with
  | nil =>
    cases fence with
    | nil => exact absurd rfl solid.filled
    | cons mark marks =>
      have head := (List.cons.inj split).1
      exact absurd (by decide) (solid.ink ' ' (by rw [head]; exact List.mem_cons_self))
  | cons c before =>
    rw [List.cons_append, List.cons_append] at split
    exact one before after (List.cons.inj split).2

theorem foreign_openFence {fence l : Text} {info : Option Text} (solid : SolidFence fence)
    (one : OneInfoWord fence l) (h : openFence? fence l = some info) :
    foreign (info.getD []) = l.foreign := by
  unfold openFence? at h
  split at h
  · cases h
  · rename_i mark marks
    split at h
    · cases h
    · rename_i rest opens
      split at h
      · cases h
      · cases h
        have drops := strips_of_dropLead solid.plain opens
        have whole : l.trimStart = mark :: marks ++ rest := by
          unfold dropLead? at opens
          split at opens
          · rename_i starts
            cases opens
            obtain ⟨tail, eq⟩ := List.isPrefixOf_iff_prefix.mp starts
            rw [← eq, List.drop_left]
          · cases opens
        have few := one.of_infix (List.dropWhile_suffix isSpace).isInfix [] rest whole
        have kept := foreign_words rest
        rw [← ((strips_trimStart l).trans drops).foreign, ← kept]
        -- the info is the first word only, and there is no second one to be lost
        cases found : words rest with
        | nil => rfl
        | cons word others =>
          rw [found, List.length_cons] at few
          obtain rfl : others = [] := List.length_eq_zero_iff.mp (by omega)
          simp

theorem foreign_isClosingFence {fence l : Text} (solid : SolidFence fence)
    (closes : isClosingFence fence l) : l.foreign = [] := by
  rw [← (strips_trim l).foreign, beq_iff_eq.mp closes]
  exact solid.plain.foreign

end CommentMarkup
