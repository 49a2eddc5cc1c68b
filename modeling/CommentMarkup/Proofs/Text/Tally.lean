import CommentMarkup.Proofs.Text.Measure

/-!
# Places of a phrase in a text

`tally` counts the places where a phrase stands, `spelled` those where it stands if no backslash is
minded. A character that the phrase does not hold separates its places from each other.
-/

namespace CommentMarkup

/-- The number of places where the phrase stands. They may overlap. -/
def tally (phrase : Text) : Text → Nat
  | [] => 0
  | c :: cs => (if phrase.isPrefixOf (c :: cs) then 1 else 0) + tally phrase cs

def withoutBackslashes (t : Text) : Text := t.filter (· != '\\')

/-- The number of places where the phrase is written, any of its characters behind backslashes or
not. -/
def spelled (phrase t : Text) : Nat := tally phrase (withoutBackslashes t)

section Tally

variable {phrase : Text}

theorem tally_append_le (a b : Text) : tally phrase a + tally phrase b ≤ tally phrase (a ++ b) := by
  induction a with
  | nil => simp [tally]
  | cons c a ih =>
    have longer : phrase.isPrefixOf (c :: a) → phrase.isPrefixOf (c :: (a ++ b)) := by
      intro here
      rw [List.isPrefixOf_iff_prefix] at here ⊢
      exact here.trans (List.prefix_append (c :: a) b)
    rw [List.cons_append, tally, tally]
    by_cases here : phrase.isPrefixOf (c :: a)
    · rw [if_pos here, if_pos (longer here)]
      omega
    · rw [if_neg here]
      omega

/-- If no place of the phrase starts in `a` and goes on behind it, those in `a` and `b` are all. -/
theorem tally_append_of_apart {a b : Text}
    (apart : ∀ front last rest, a = front ++ last → last ≠ [] → phrase ++ rest = last ++ b →
      phrase <+: last) : tally phrase (a ++ b) = tally phrase a + tally phrase b := by
  induction a with
  | nil => simp [tally]
  | cons c a ih =>
    have same : phrase.isPrefixOf (c :: (a ++ b)) = phrase.isPrefixOf (c :: a) := by
      rw [Bool.eq_iff_iff, List.isPrefixOf_iff_prefix, List.isPrefixOf_iff_prefix]
      constructor
      · rintro ⟨rest, eq⟩
        exact apart [] (c :: a) rest rfl (by simp) eq
      · exact fun here => here.trans (List.prefix_append (c :: a) b)
    have later := ih fun front last rest eq => apart (c :: front) last rest (by rw [eq]; rfl)
    rw [List.cons_append, tally, tally, same, later, Nat.add_assoc]

theorem tally_cut {c : Char} (filled : phrase ≠ []) (absent : c ∉ phrase) (a b : Text) :
    tally phrase (a ++ c :: b) = tally phrase a + tally phrase b := by
  have head : phrase.isPrefixOf (c :: b) = false := by
    rw [Bool.eq_false_iff, Ne, List.isPrefixOf_iff_prefix]
    rintro ⟨rest, eq⟩
    cases phrase with
    | nil => exact filled rfl
    | cons d phrase =>
      cases eq
      exact absent List.mem_cons_self
  rw [tally_append_of_apart, tally, head]
  · simp
  · intro front last rest _ _ eq
    -- the phrase would have to hold the character
    rcases List.append_eq_append_iff.mp eq with ⟨between, rfl, _⟩ | ⟨between, rfl, tail⟩
    · exact List.prefix_append _ _
    · cases between with
      | nil => exact (List.append_nil last).symm ▸ List.prefix_refl last
      | cons d between =>
        cases tail
        exact absurd (by simp) absent

theorem tally_pos (filled : phrase ≠ []) {t : Text} : 0 < tally phrase t ↔ phrase <:+: t := by
  induction t with
  | nil =>
    have none : ¬ phrase <:+: [] := fun inside => filled (List.infix_nil.mp inside)
    simp [tally, none]
  | cons c t ih =>
    rw [tally, List.infix_cons_iff, ← ih, ← List.isPrefixOf_iff_prefix]
    split
    · rename_i here
      simp only [here, true_or, iff_true]
      omega
    · rename_i other
      simp [other]

theorem withoutBackslashes_append (a b : Text) :
    withoutBackslashes (a ++ b) = withoutBackslashes a ++ withoutBackslashes b :=
  List.filter_append a b

theorem withoutBackslashes_cons {c : Char} (other : c ≠ '\\') (t : Text) :
    withoutBackslashes (c :: t) = c :: withoutBackslashes t :=
  List.filter_cons_of_pos (by simpa using other)

theorem withoutBackslashes_of_notMem {t : Text} (bare : '\\' ∉ t) : withoutBackslashes t = t := by
  rw [withoutBackslashes, List.filter_eq_self]
  intro c member
  have other : c ≠ '\\' := by
    rintro rfl
    exact bare member
  simpa using other

theorem spelled_backslash (a b : Text) :
    spelled phrase (a ++ '\\' :: b) = spelled phrase (a ++ b) := by
  rw [spelled, spelled, withoutBackslashes_append, withoutBackslashes_append]
  rfl

theorem spelled_cut {c : Char} (filled : phrase ≠ []) (absent : c ∉ phrase) (other : c ≠ '\\')
    (a b : Text) : spelled phrase (a ++ c :: b) = spelled phrase a + spelled phrase b := by
  rw [spelled, withoutBackslashes_append, withoutBackslashes_cons other,
    tally_cut filled absent, spelled, spelled]

theorem tally_inkMeasure (filled : phrase ≠ []) (spaceless : ∀ c ∈ phrase, ¬ isSpace c) :
    InkMeasure (tally phrase) where
  append_le := tally_append_le
  cut a b c space := tally_cut filled (fun member => spaceless c member space) a b

theorem spelled_inkMeasure (filled : phrase ≠ []) (spaceless : ∀ c ∈ phrase, ¬ isSpace c) :
    InkMeasure (spelled phrase) where
  append_le a b := by
    rw [spelled, spelled, spelled, withoutBackslashes_append]
    exact tally_append_le _ _
  cut a b c space := by
    have other : c ≠ '\\' := by
      rintro rfl
      exact absurd space (by decide)
    exact spelled_cut filled (fun member => spaceless c member space) other a b

/-- A phrase that stands in a text is spelled there. -/
theorem spelled_pos (filled : phrase ≠ []) (bare : '\\' ∉ phrase) {t : Text}
    (inside : phrase <:+: t) : 0 < spelled phrase t := by
  have inside' := inside.filter (· != '\\')
  rw [← withoutBackslashes, withoutBackslashes_of_notMem bare] at inside'
  exact (tally_pos filled).mpr inside'

/-- Taking backslashes away leaves a phrase without them where it stands. -/
theorem tally_le_spelled (filled : phrase ≠ []) (bare : '\\' ∉ phrase) (t : Text) :
    tally phrase t ≤ spelled phrase t := by
  induction t with
  | nil => exact Nat.zero_le _
  | cons c t ih =>
    by_cases slash : c = '\\'
    · have cut : tally phrase ('\\' :: t) = tally phrase [] + tally phrase t :=
        tally_cut filled bare [] t
      have dropped : spelled phrase ('\\' :: t) = spelled phrase t := spelled_backslash [] t
      rw [slash, cut, dropped, tally, Nat.zero_add]
      exact ih
    · have kept : phrase.isPrefixOf (c :: t) → phrase.isPrefixOf (c :: withoutBackslashes t) := by
        intro here
        rw [List.isPrefixOf_iff_prefix] at here ⊢
        have filtered := here.filter (· != '\\')
        rwa [← withoutBackslashes, ← withoutBackslashes, withoutBackslashes_of_notMem bare,
          withoutBackslashes_cons slash] at filtered
      rw [spelled] at ih ⊢
      rw [withoutBackslashes_cons slash, tally, tally]
      by_cases here : phrase.isPrefixOf (c :: t)
      · rw [if_pos here, if_pos (kept here)]
        omega
      · rw [if_neg here]
        omega

end Tally

end CommentMarkup
