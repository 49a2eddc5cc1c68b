import CommentMarkup.Text.Basic
import Mathlib.Data.List.Infix

/-!
# Finding a phrase

The search for a phrase gives the first place where it stands, and what follows it there has no part
in the search.
-/

namespace CommentMarkup

theorem find_eq_some_iff {phrase t : Text} {n : Nat} :
    Text.find? phrase t = some n ↔ phrase <+: t.drop n ∧ ∀ k < n, ¬ phrase <+: t.drop k := by
  induction t generalizing n with
  | nil =>
    rw [Text.find?, Option.ite_none_right_eq_some, List.isEmpty_iff, List.drop_nil, List.prefix_nil]
    constructor
    · rintro ⟨empty, eq⟩
      cases eq
      exact ⟨empty, nofun⟩
    · rintro ⟨empty, first⟩
      refine ⟨empty, congrArg some ?_⟩
      by_contra later
      exact first 0 (by omega) (by simp [empty])
  | cons c t ih =>
    rw [Text.find?]
    split
    · rename_i here
      rw [List.isPrefixOf_iff_prefix] at here
      constructor
      · intro eq
        cases eq
        exact ⟨here, nofun⟩
      · rintro ⟨_, first⟩
        congr 1
        by_contra later
        exact first 0 (by omega) here
    · rename_i absent
      rw [List.isPrefixOf_iff_prefix] at absent
      rw [Option.map_eq_some_iff]
      constructor
      · rintro ⟨k, found, rfl⟩
        obtain ⟨stands, first⟩ := ih.mp found
        refine ⟨stands, fun j early => ?_⟩
        cases j with
        | zero => exact absent
        | succ j => exact first j (by omega)
      · rintro ⟨stands, first⟩
        cases n with
        | zero => exact absurd stands absent
        | succ n =>
          exact ⟨n, ih.mpr ⟨stands, fun j early => first (j + 1) (by omega)⟩, rfl⟩

theorem find_split {phrase t : Text} {n : Nat} (h : Text.find? phrase t = some n) :
    t.take n ++ phrase ++ t.drop (n + phrase.length) = t := by
  obtain ⟨rest, eq⟩ := (find_eq_some_iff.mp h).1
  have behind : t.drop (n + phrase.length) = rest := by rw [← List.drop_drop, ← eq, List.drop_left]
  rw [behind, List.append_assoc, eq, List.take_append_drop]

theorem find_isSome_iff {phrase t : Text} : (Text.find? phrase t).isSome ↔ phrase <:+: t := by
  constructor
  · intro found
    obtain ⟨n, found⟩ := Option.isSome_iff_exists.mp found
    exact ⟨_, _, find_split found⟩
  · intro inside
    induction t with
    | nil => simp [Text.find?, List.infix_nil.mp inside]
    | cons c t ih =>
      rw [Text.find?]
      split
      · rfl
      · rename_i absent
        rw [List.isPrefixOf_iff_prefix] at absent
        rw [Option.isSome_map]
        exact ih ((List.infix_cons_iff.mp inside).resolve_left absent)

theorem find_length {phrase t : Text} {n : Nat} (filled : phrase ≠ [])
    (h : Text.find? phrase t = some n) : n + phrase.length ≤ t.length := by
  have stands := (find_eq_some_iff.mp h).1.length_le
  have long := List.length_pos_iff.mpr filled
  rw [List.length_drop] at stands
  omega

/-- A phrase is found at the same place whatever stands behind it. -/
theorem find_take_append {phrase t : Text} {n : Nat} (filled : phrase ≠ [])
    (h : Text.find? phrase t = some n) (rest : Text) :
    Text.find? phrase (t.take (n + phrase.length) ++ rest) = some n := by
  have short := find_length filled h
  obtain ⟨stands, first⟩ := find_eq_some_iff.mp h
  have behind {k : Nat} (early : k ≤ n) :
      (t.take (n + phrase.length) ++ rest).drop k =
        (t.drop k).take (n + phrase.length - k) ++ rest := by
    rw [List.drop_append_of_le_length (by rw [List.length_take]; omega), List.drop_take]
  refine find_eq_some_iff.mpr ⟨?_, fun k early here => first k early ?_⟩
  · have whole := List.prefix_iff_eq_take.mp stands
    rw [behind (Nat.le_refl n), Nat.add_sub_cancel_left, ← whole]
    exact List.prefix_append _ _
  · rw [behind early.le] at here
    have long : phrase.length ≤ ((t.drop k).take (n + phrase.length - k)).length := by
      rw [List.length_take, List.length_drop]
      omega
    exact (List.prefix_of_prefix_length_le here (List.prefix_append _ rest) long).trans
      (List.take_prefix _ _)

/-- A phrase does not stand before the place where it is found. -/
theorem not_infix_take_find {phrase t : Text} {n : Nat} (filled : phrase ≠ [])
    (h : Text.find? phrase t = some n) : ¬ phrase <:+: t.take n := by
  rintro ⟨front, back, inside⟩
  have long := List.length_pos_iff.mpr filled
  have short := List.length_take_le n t
  rw [← inside, List.length_append, List.length_append] at short
  refine (find_eq_some_iff.mp h).2 front.length (by omega) ?_
  have whole : t = front ++ (phrase ++ (back ++ t.drop n)) := by
    rw [← List.append_assoc phrase, ← List.append_assoc, ← List.append_assoc, inside,
      List.take_append_drop]
  rw [whole, List.drop_left]
  exact List.prefix_append _ _

end CommentMarkup
