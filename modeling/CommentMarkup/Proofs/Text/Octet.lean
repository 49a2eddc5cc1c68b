import CommentMarkup.Text.Basic

/-!
# Cutting at octets

A text can be cut behind a number of octets of its UTF-8 form if a character ends there. The parts
are those that the characters before the cut tell: `cutOctets_eq_some_iff`.
-/

namespace CommentMarkup

open Text

theorem octets_append (a b : Text) : octets (a ++ b) = octets a + octets b := sumOver_append _ a b

theorem octets_cons (c : Char) (t : Text) : octets (c :: t) = c.utf8Size + octets t := rfl

theorem octets_pos {t : Text} (filled : t ≠ []) : 0 < octets t := by
  cases t with
  | nil => exact absurd rfl filled
  | cons c t => exact Nat.add_pos_left (Char.utf8Size_pos c) _

namespace Text

/-- The text up to octet `k` and from there on, unless the octet is none of the text or stands
inside a character. -/
def cutOctets? (k : Nat) : Text → Option (Text × Text)
  | [] => if k = 0 then some ([], []) else none
  | c :: cs =>
    if k = 0 then some ([], c :: cs)
    else if c.utf8Size ≤ k then
      (cutOctets? (k - c.utf8Size) cs).map fun (front, rest) => (c :: front, rest)
    else none

def takeOctets? (k : Nat) (t : Text) : Option Text := (cutOctets? k t).map Prod.fst

def dropOctets? (k : Nat) (t : Text) : Option Text := (cutOctets? k t).map Prod.snd

/-- The number of characters up to octet `k`; all of them if the text cannot be cut there. -/
def charCount (k : Nat) (t : Text) : Nat := (takeOctets? k t).elim t.length List.length

theorem cutOctets_eq_some_iff {k : Nat} {t front rest : Text} :
    cutOctets? k t = some (front, rest) ↔ t = front ++ rest ∧ octets front = k := by
  induction t generalizing k front with
  | nil =>
    rw [cutOctets?, Option.ite_none_right_eq_some, eq_comm (a := []), List.append_eq_nil_iff]
    constructor
    · rintro ⟨rfl, same⟩
      cases same
      exact ⟨⟨rfl, rfl⟩, rfl⟩
    · rintro ⟨⟨rfl, rfl⟩, rfl⟩
      exact ⟨rfl, rfl⟩
  | cons c t ih =>
    have positive := Char.utf8Size_pos c
    rw [cutOctets?]
    constructor
    · intro cut
      split at cut
      · cases cut
        exact ⟨rfl, Eq.symm ‹k = 0›⟩
      · split at cut
        · obtain ⟨⟨before, behind⟩, inner, same⟩ := Option.map_eq_some_iff.mp cut
          cases same
          obtain ⟨rfl, size⟩ := ih.mp inner
          refine ⟨rfl, ?_⟩
          rw [octets_cons, size]
          omega
        · cases cut
    · rintro ⟨split, rfl⟩
      cases front with
      | nil => exact if_pos rfl |>.trans (by rw [split]; rfl)
      | cons d front =>
        cases split
        have inner : cutOctets? (octets (c :: front) - c.utf8Size) (front ++ rest) =
            some (front, rest) := ih.mpr ⟨rfl, by rw [octets_cons, Nat.add_sub_cancel_left]⟩
        rw [if_neg (by rw [octets_cons]; omega), if_pos (by rw [octets_cons]; omega)]
        exact congrArg _ inner

theorem cutOctets_octets (front rest : Text) :
    cutOctets? (octets front) (front ++ rest) = some (front, rest) :=
  cutOctets_eq_some_iff.mpr ⟨rfl, rfl⟩

theorem takeOctets_octets (front rest : Text) :
    takeOctets? (octets front) (front ++ rest) = some front := by
  rw [takeOctets?, cutOctets_octets, Option.map_some]

theorem dropOctets_octets (front rest : Text) :
    dropOctets? (octets front) (front ++ rest) = some rest := by
  rw [dropOctets?, cutOctets_octets, Option.map_some]

theorem charCount_octets (front rest : Text) :
    charCount (octets front) (front ++ rest) = front.length := by
  rw [charCount, takeOctets_octets, Option.elim_some]

/-- What stands before a place has no part in a cut behind it. -/
theorem cutOctets_append (front t : Text) (k : Nat) :
    cutOctets? (octets front + k) (front ++ t) =
      (cutOctets? k t).map fun (before, behind) => (front ++ before, behind) := by
  induction front with
  | nil =>
    rw [show octets [] = 0 from rfl, Nat.zero_add]
    simp
  | cons c front ih =>
    have positive := Char.utf8Size_pos c
    have less : octets (c :: front) + k - c.utf8Size = octets front + k := by
      rw [octets_cons]
      omega
    rw [List.cons_append, cutOctets?, if_neg (by rw [octets_cons]; omega),
      if_pos (by rw [octets_cons]; omega), less, ih, Option.map_map]
    rfl

theorem dropOctets_append (front t : Text) (k : Nat) :
    dropOctets? (octets front + k) (front ++ t) = dropOctets? k t := by
  rw [dropOctets?, cutOctets_append, Option.map_map]
  rfl

theorem charCount_append (front t : Text) (k : Nat) :
    charCount (octets front + k) (front ++ t) = front.length + charCount k t := by
  rw [charCount, takeOctets?, cutOctets_append, charCount, takeOctets?]
  cases cutOctets? k t <;> simp

/-- What stands behind octet `k`, and nothing if the text cannot be cut there. -/
theorem dropOctets_getD (k : Nat) (t : Text) :
    (dropOctets? k t).getD [] = t.drop (charCount k t) := by
  rw [charCount, takeOctets?, dropOctets?]
  cases cut : cutOctets? k t with
  | none => simp
  | some parts =>
    obtain ⟨rfl, _⟩ := cutOctets_eq_some_iff.mp cut
    simp

/-- The end of a text has no part in a cut before it. -/
theorem drop_charCount_append (k : Nat) (t rest : Text) :
    t.drop (charCount k (t ++ rest)) = t.drop (charCount k t) := by
  cases cut : cutOctets? k t with
  | some parts =>
    obtain ⟨rfl, rfl⟩ := cutOctets_eq_some_iff.mp cut
    simp [charCount, takeOctets?, cutOctets_octets, List.append_assoc]
  | none =>
    have whole : charCount k t = t.length := by simp [charCount, takeOctets?, cut]
    rw [whole, List.drop_length, List.drop_eq_nil_iff]
    cases outer : cutOctets? k (t ++ rest) with
    | none => simp [charCount, takeOctets?, outer]
    | some parts =>
      obtain ⟨front, behind⟩ := parts
      obtain ⟨split, size⟩ := cutOctets_eq_some_iff.mp outer
      rcases Nat.lt_or_ge front.length t.length with early | late
      · -- a cut inside the first text would be a cut of it
        obtain ⟨back, rfl⟩ : front <+: t :=
          List.prefix_of_prefix_length_le ⟨behind, split.symm⟩ (List.prefix_append t rest)
            (Nat.le_of_lt early)
        rw [← size, cutOctets_octets] at cut
        cases cut
      · simpa [charCount, takeOctets?, outer] using late

end Text

end CommentMarkup
