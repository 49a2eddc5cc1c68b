import CommentMarkup.Text.Basic

/-!
# ASCII letters and digits
-/

namespace CommentMarkup

/-- The code points of letters and digits. -/
theorem toNat_of_isAlphanum {c : Char} (h : c.isAlphanum) :
    48 ≤ c.toNat ∧ c.toNat ≤ 57 ∨ 65 ≤ c.toNat ∧ c.toNat ≤ 90 ∨ 97 ≤ c.toNat ∧ c.toNat ≤ 122 := by
  have classes : (decide (c.val ≥ 'A'.val ∧ c.val ≤ 'Z'.val) ||
      (decide (c.val ≥ 'a'.val) && decide (c.val ≤ 'z'.val)) ||
        (decide (c.val ≥ '0'.val) && decide (c.val ≤ '9'.val))) = true := h
  simp only [Bool.or_eq_true, Bool.and_eq_true, decide_eq_true_eq, ge_iff_le,
    UInt32.le_iff_toNat_le] at classes
  have same : c.toNat = c.val.toNat := rfl
  have bounds : 'A'.val.toNat = 65 ∧ 'Z'.val.toNat = 90 ∧ 'a'.val.toNat = 97 ∧
    'z'.val.toNat = 122 ∧ '0'.val.toNat = 48 ∧ '9'.val.toNat = 57 := by decide
  omega

theorem not_isSpace_of_isAlphanum {c : Char} (letter : c.isAlphanum) : ¬ isSpace c := by
  have bounds := toNat_of_isAlphanum letter
  simp only [isSpace, inRanges, spaceRanges, List.any_cons, List.any_nil, Bool.or_eq_true,
    Bool.and_eq_true, decide_eq_true_eq, Bool.false_eq_true, or_false]
  omega

theorem at_notMem_of_alphanum {t : Text} (letters : t.all Char.isAlphanum) : '@' ∉ t := by
  intro member
  exact absurd (List.all_eq_true.mp letters _ member) (by decide)

theorem toDigits_alphanum {base : Nat} (large : 1 < base) (small : base ≤ 16) (n : Nat) :
    (Nat.toDigits base n).all Char.isAlphanum := by
  have digit : ∀ d < 16, d.digitChar.isAlphanum := by decide
  induction n using Nat.strongRecOn with
  | ind n ih =>
    rcases Nat.lt_or_ge n base with less | more
    · rw [Nat.toDigits_of_lt_base less, List.all_cons, digit n (by omega)]
      rfl
    · have last := digit (n % base) (Nat.lt_of_lt_of_le (Nat.mod_lt n (by omega)) small)
      rw [Nat.toDigits_of_base_le large more, List.all_append,
        ih (n / base) (Nat.div_lt_self (by omega) large), List.all_cons, last]
      rfl

theorem ofNat_alphanum (n : Nat) : (Text.ofNat n).all Char.isAlphanum :=
  toDigits_alphanum (by decide) (by decide) n

theorem isAlphanum_of_isAlpha {c : Char} (h : c.isAlpha) : c.isAlphanum := by
  simp [Char.isAlphanum, h]

/-- A capital moves up by 32, every other character stays. -/
theorem toLower_cases (c : Char) :
    c.toLower = c ∨ 65 ≤ c.toNat ∧ c.toNat ≤ 90 ∧ c.toLower.toNat = c.toNat + 32 := by
  by_cases upper : c.val ≥ 'A'.val ∧ c.val ≤ 'Z'.val
  · have low : 65 ≤ c.toNat := UInt32.le_iff_toNat_le.mp upper.1
    have high : c.toNat ≤ 90 := UInt32.le_iff_toNat_le.mp upper.2
    have value : c.toLower.val = c.val + ('a'.val - 'A'.val) := congrArg Char.val (dif_pos upper)
    have shift : ('a'.val - 'A'.val).toNat = 32 := by decide
    have moved : c.toLower.toNat = (c.toNat + 32) % 2 ^ 32 := by
      rw [← shift]
      exact (congrArg UInt32.toNat value).trans (UInt32.toNat_add _ _)
    omega
  · exact .inl (dif_neg upper)

theorem toNat_toLower_lt {c : Char} (h : c.toLower.toNat < 128) : c.toNat < 128 := by
  rcases toLower_cases c with same | ⟨_, high, _⟩
  · rwa [same] at h
  · omega

/-- Nothing but a small letter is the small form of another character. -/
theorem toLower_eq {c d : Char} (small : d.toNat < 97) (h : c.toLower = d) : c = d := by
  rcases toLower_cases c with same | ⟨low, _, moved⟩
  · rw [← same, h]
  · rw [h] at moved
    omega

end CommentMarkup
