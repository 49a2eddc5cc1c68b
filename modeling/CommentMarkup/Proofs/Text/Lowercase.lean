import CommentMarkup.Proofs.Text.Ascii
import CommentMarkup.Text.Alphanumeric
import CommentMarkup.Text.Lowercase
import Mathlib

/-!
# Small letters

A letter or numeral is no white space, and in lower case it is one letter or numeral that stays as
it is in lower case: `lowercase_alphanumeric`. The capital I with a dot is the only exception.
-/

namespace CommentMarkup

/-- Either `n` is in no run, or it is sent as far behind the image of a run as it stands behind the
first character of the run. -/
theorem runImage_cases (runs : List (Nat × Nat × Nat × Nat)) (n : Nat) :
    runImage runs n = n ∨ ∃ run ∈ runs, ∃ offset ≤ run.2.1 - run.1, offset % run.2.2.1 = 0 ∧
      runImage runs n = run.2.2.2 + offset := by
  induction runs with
  | nil => exact .inl rfl
  | cons run runs ih =>
    obtain ⟨first, last, step, image⟩ := run
    rw [runImage]
    split
    · rename_i inside
      simp only [Bool.and_eq_true, decide_eq_true_eq, beq_iff_eq] at inside
      exact .inr ⟨_, List.mem_cons_self, n - first, Nat.sub_le_sub_right inside.1.2 first, inside.2, rfl⟩
    · refine ih.imp_right ?_
      rintro ⟨other, listed, image⟩
      exact ⟨other, List.mem_cons_of_mem _ listed, image⟩

/-! ### Runs of the table -/

/-- Nothing that a run sends a character to is in the other run: they do not overlap, or they
alternate. -/
def runsApart (run other : Nat × Nat × Nat × Nat) : Bool :=
  Nat.blt other.2.1 run.2.2.2 || (Nat.blt (run.2.2.2 + (run.2.1 - run.1)) other.1 ||
    (Nat.beq other.2.2.1 2 && ((Nat.beq run.2.2.1 2 || Nat.beq run.1 run.2.1) &&
      Nat.beq ((run.2.2.2 + other.1) % 2) 1)))

theorem runImage_of_apart {runs : List (Nat × Nat × Nat × Nat)} {run : Nat × Nat × Nat × Nat}
    (apart : ∀ other ∈ runs, runsApart run other) {offset : Nat}
    (inside : offset ≤ run.2.1 - run.1) (whole : offset % run.2.2.1 = 0) :
    runImage runs (run.2.2.2 + offset) = run.2.2.2 + offset := by
  induction runs with
  | nil => rfl
  | cons other runs ih =>
    rw [List.forall_mem_cons] at apart
    obtain ⟨first, last, step, image⟩ := run
    obtain ⟨first', last', step', image'⟩ := other
    rw [runImage, ih apart.2, if_neg]
    have here := apart.1
    simp only [runsApart, Bool.or_eq_true, Bool.and_eq_true, Nat.blt_eq, Nat.beq_eq] at here
    dsimp only at inside whole
    simp only [Bool.and_eq_true, decide_eq_true_eq, beq_iff_eq]
    rintro ⟨⟨low, high⟩, held⟩
    rcases here with below | above | ⟨two, alternates, odd⟩
    · omega
    · omega
    · rw [two] at held
      rcases alternates with also | single
      · rw [also] at whole
        omega
      · omega

/-- The run sends its characters to letters beyond it that no run holds. -/
def isLetterRun (run : Nat × Nat × Nat × Nat) : Bool :=
  let stop := run.2.2.2 + (run.2.1 - run.1)
  (Nat.ble 97 run.2.2.2 && Nat.ble stop 122 || (Nat.ble 128 run.2.2.2 &&
    alphanumericRanges.any fun r => Nat.ble r.1 run.2.2.2 && Nat.ble stop r.2)) &&
  (Nat.blt stop 0x130 || Nat.blt 0x130 run.2.2.2) &&
  (Nat.blt stop 0xD800 || (Nat.blt 0xDFFF run.2.2.2 && Nat.blt stop 0x110000)) &&
  lowercaseRuns.all (runsApart run)

theorem lowercaseRuns_isLetterRun : lowercaseRuns.all isLetterRun := by decide +kernel

theorem isAlphanumeric_of_small {c : Char} (low : 97 ≤ c.toNat) (high : c.toNat ≤ 122) :
    isAlphanumeric c := by
  have small : c.isLower = true := by
    simp only [Char.isLower, Bool.and_eq_true, decide_eq_true_eq, ge_iff_le, UInt32.le_iff_toNat_le]
    exact ⟨low, high⟩
  rw [isAlphanumeric, if_pos (by omega), Char.isAlphanum, Char.isAlpha, small, Bool.or_true,
    Bool.true_or]

theorem isAlphanumeric_of_range {c : Char} (high : 128 ≤ c.toNat) {r : Nat × Nat}
    (listed : r ∈ alphanumericRanges) (first : r.1 ≤ c.toNat) (last : c.toNat ≤ r.2) :
    isAlphanumeric c := by
  rw [isAlphanumeric, if_neg (by omega), inRanges, List.any_eq_true]
  exact ⟨r, listed, by simp [first, last]⟩

/-! ### Letters and numerals -/

theorem lowercase_other {c : Char} (other : c ≠ '\u0130') :
    lowercase c = [Char.ofNat (runImage lowercaseRuns c.toNat)] := by
  unfold lowercase
  refine if_neg fun same => other ?_
  rw [← Char.ofNat_toNat c, same]

theorem runImage_below {runs : List (Nat × Nat × Nat × Nat)} {n : Nat}
    (below : ∀ run ∈ runs, n < run.1) : runImage runs n = n := by
  induction runs with
  | nil => rfl
  | cons run runs ih =>
    rw [List.forall_mem_cons] at below
    obtain ⟨first, last, step, image⟩ := run
    have less : n < first := below.1
    have outside : ¬ (first ≤ n && n ≤ last && (n - first) % step == 0) = true := by
      simp [Nat.not_le.mpr less]
    rw [runImage, if_neg outside, ih below.2]

theorem lowercaseRuns_above : ∀ run ∈ lowercaseRuns, 65 ≤ run.1 := by decide +kernel

/-- What comes before the capitals stays as it is. -/
theorem lowercase_below {c : Char} (below : c.toNat < 65) : lowercase c = [c] := by
  have other : c ≠ '\u0130' := by
    rintro rfl
    exact absurd below (by decide)
  rw [lowercase_other other, runImage_below, Char.ofNat_toNat]
  intro run listed
  exact Nat.lt_of_lt_of_le below (lowercaseRuns_above run listed)

/-- The small form of a letter or numeral is a letter or numeral, and its own small form. -/
theorem lowercase_alphanumeric {c : Char} (letter : isAlphanumeric c) (other : c ≠ '\u0130') :
    ∃ d, lowercase c = [d] ∧ isAlphanumeric d ∧ lowercase d = [d] := by
  rw [lowercase_other other]
  rcases runImage_cases lowercaseRuns c.toNat with kept | ⟨run, listed, k, inside, whole, image⟩
  · rw [kept, Char.ofNat_toNat]
    refine ⟨c, rfl, letter, ?_⟩
    rw [lowercase_other other, kept, Char.ofNat_toNat]
  · have proper := List.all_eq_true.mp lowercaseRuns_isLetterRun run listed
    simp only [isLetterRun, Bool.and_eq_true, Bool.or_eq_true, Nat.ble_eq, Nat.blt_eq,
      List.any_eq_true, List.all_eq_true] at proper
    obtain ⟨⟨⟨letters, beside⟩, valid⟩, apart⟩ := proper
    have point : (Char.ofNat (run.2.2.2 + k)).toNat = run.2.2.2 + k := by
      have char : (run.2.2.2 + k).isValidChar := by
        clear letters
        unfold Nat.isValidChar
        omega
      rw [Char.toNat_ofNat, if_pos char]
    refine ⟨_, congrArg (fun n => [Char.ofNat n]) image, ?_, ?_⟩
    · rcases letters with small | ⟨high, r, found, first, last⟩
      · exact isAlphanumeric_of_small (by omega) (by omega)
      · exact isAlphanumeric_of_range (by omega) found (by omega) (by omega)
    · have own : Char.ofNat (run.2.2.2 + k) ≠ '\u0130' := by
        intro same
        have dotted : (Char.ofNat (run.2.2.2 + k)).toNat = 0x130 := by rw [same]; rfl
        clear letters
        omega
      rw [lowercase_other own, point, runImage_of_apart apart inside whole]

/-! ### White space -/

theorem alphanumericRanges_spaceless : alphanumericRanges.all fun r => spaceRanges.all fun s =>
    Nat.blt r.2 s.1 || Nat.blt s.2 r.1 := by decide +kernel

theorem isSpace_of_isAlphanumeric {c : Char} (letter : isAlphanumeric c) : ¬ isSpace c := by
  intro space
  obtain ⟨s, listed, inside⟩ := List.any_eq_true.mp space
  simp only [Bool.and_eq_true, decide_eq_true_eq] at inside
  unfold isAlphanumeric at letter
  split at letter
  · have classes := toNat_of_isAlphanum letter
    have apart : ∀ s ∈ spaceRanges, s.2 < 48 ∨ 122 < s.1 := by decide
    have beside := apart s listed
    omega
  · obtain ⟨r, found, within⟩ := List.any_eq_true.mp letter
    simp only [Bool.and_eq_true, decide_eq_true_eq] at within
    have apart := List.all_eq_true.mp (List.all_eq_true.mp alphanumericRanges_spaceless r found) s
      listed
    simp only [Bool.or_eq_true, Nat.blt_eq] at apart
    omega

end CommentMarkup
