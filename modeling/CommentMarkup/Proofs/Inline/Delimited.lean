import CommentMarkup.Inline.Delimited
import CommentMarkup.Proofs.Block.Charge
import CommentMarkup.Proofs.Text.Within

/-!
# What delimited text draws from

Code, addresses and titles are cut out of what stands between their delimiters, and backslashes are
taken away. None of it adds to a measure, and the address and the title of a destination are drawn
from different characters: `destination_le`.
-/

namespace CommentMarkup

section Ink

variable {μ : Text → Nat} (measure : InkMeasure μ)

include measure

/-- Two parts of a text, one behind the other. -/
theorem parts_le (t : Text) {a b c d e : Nat} (first : a + b ≤ c) (second : c + d ≤ e) :
    μ ((t.drop a).take b) + μ ((t.drop c).take d) ≤ μ (t.take e) := by
  have whole := measure.append_le (t.take c) ((t.drop c).take (e - c))
  have front : (t.drop a).take b <:+: t.take c := by
    rw [List.take_drop]
    exact (List.drop_suffix a _).isInfix.trans (List.take_prefix_take_left first).isInfix
  have back : (t.drop c).take d <:+: (t.drop c).take (e - c) :=
    (List.take_prefix_take_left (by omega)).isInfix
  have left := measure.le_of_infix front
  have right := measure.le_of_infix back
  rw [← List.take_add, Nat.add_sub_of_le (by omega)] at whole
  omega

theorem codeText_le (inside : Text) : μ (codeText inside) ≤ μ inside := by
  have spaces : Within μ 0 (inside.map fun c => if c = '\n' ∨ c = '\r' then ' ' else c) inside := by
    induction inside with
    | nil => exact .refl []
    | cons c inside ih =>
      have here : Within μ 0 [if c = '\n' ∨ c = '\r' then ' ' else c] [c] := by
        split
        · rename_i feed
          refine .white measure (by decide) ?_
          rcases feed with rfl | rfl <;> decide
        · exact .refl [c]
      exact here.append ih
  have mapped := spaces.le
  unfold codeText
  dsimp only
  split
  · refine Nat.le_trans (measure.le_of_infix ?_) mapped
    exact (List.dropLast_prefix _).isInfix.trans (List.drop_suffix _ _).isInfix
  · exact mapped

theorem codeSpan_le {t code : Text} {n : Nat} (h : codeSpan? t = some (code, n)) :
    μ code ≤ μ (t.take n) := by
  obtain ⟨k, _, eq⟩ := Option.map_eq_some_iff.mp h
  cases eq
  have inner := codeText_le measure ((t.drop (runLength tick t)).take k)
  have parts := parts_le measure t (a := runLength tick t) (b := k) (c := runLength tick t + k)
    (d := 0) (e := runLength tick t + k + runLength tick t) (Nat.le_refl _) (by omega)
  omega

end Ink

section Spelling

variable {μ : Text → Nat} (measure : Spelling μ)

include measure

theorem unescape_within (t : Text) : Within μ 0 (unescape t) t := by
  fun_induction unescape t with
  | case1 => exact .refl []
  | case2 c cs _ ih => exact (Within.nil_left measure).append ((Within.refl [c]).append ih)
  | case3 c cs _ ih => exact (Within.refl ['\\']).append ih
  | case4 c cs _ ih => exact (Within.refl [c]).append ih

theorem url_le {t url : Text} {n : Nat} (h : url? t = some (url, n)) : μ url ≤ μ (t.take n) := by
  unfold url? at h
  split at h
  · rename_i cs
    dsimp only at h
    split at h
    · cases h
      have part : (cs.takeWhile fun c => c != '>' && c != '\n') <:+:
          ('<' :: cs).take ((cs.takeWhile fun c => c != '>' && c != '\n').length + 2) := by
        rw [List.take_succ_cons]
        refine List.IsInfix.trans ?_ (List.suffix_cons _ _).isInfix
        exact (List.prefix_take_iff.mpr ⟨List.takeWhile_prefix _, Nat.le_succ _⟩).isInfix
      exact measure.toInkMeasure.le_of_infix part
    · cases h
  · cases h
    exact (unescape_within measure _).le

theorem quotedTitle_le {t : Text} {title : Option Text} {n : Nat}
    (h : quotedTitle? t = some (title, n)) : μ (title.getD []) ≤ μ (t.take n) := by
  have empty : μ [] ≤ μ (t.take n) := measure.toInkMeasure.le_of_infix List.nil_infix
  cases t with
  | nil =>
    cases h
    exact empty
  | cons mark cs =>
    rw [quotedTitle?] at h
    split at h
    · obtain ⟨k, _, eq⟩ := Option.map_eq_some_iff.mp h
      cases eq
      have inner := (unescape_within measure (cs.take k)).le
      have part : cs.take k <:+: (mark :: cs).take (k + 2) := by
        rw [List.take_succ_cons]
        refine List.IsInfix.trans ?_ (List.suffix_cons _ _).isInfix
        exact (List.take_prefix_take_left (Nat.le_succ k)).isInfix
      have outer := measure.toInkMeasure.le_of_infix part
      rw [Option.getD_some]
      omega
    · cases h
      exact empty

theorem destination_le {t : Text} {target : Target} {n : Nat}
    (h : destination? t = some (target, n)) : target.cost μ ≤ μ (t.take n) := by
  unfold destination? at h
  dsimp only at h
  obtain ⟨⟨url, urlLength⟩, here, h⟩ := Option.bind_eq_some_iff.mp h
  obtain ⟨⟨title, titleLength⟩, titled, h⟩ := Option.bind_eq_some_iff.mp h
  dsimp only at titled h
  split at h
  · cases h
    have first := url_le measure here
    have second := quotedTitle_le measure titled
    refine Nat.le_trans (Nat.add_le_add first second)
      (parts_le measure.toInkMeasure t (Nat.le_add_right _ _) ?_)
    omega
  · cases h

end Spelling

end CommentMarkup
