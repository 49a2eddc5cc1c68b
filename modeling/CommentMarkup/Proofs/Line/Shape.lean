import CommentMarkup.Line.Bullet
import CommentMarkup.Line.Shape
import CommentMarkup.Proofs.Line.Definition
import CommentMarkup.Proofs.Text.Trim
import Mathlib.Algebra.Group.Nat.Defs

/-!
# What lines hold

The shape of what the rules for single lines find: the level and the text of a heading, the label
and the target of a definition, the number of a list marker.
-/

namespace CommentMarkup

open Text

/-! ### Headings -/

theorem isTrimmed_headingText (rest : Text) : (headingText rest).IsTrimmed := by
  have front := dropEndWhile_isPrefix (· == '#') rest.trim
  have trimmed := isTrimmed_trim rest
  unfold headingText
  dsimp only
  split
  · exact isTrimmed_nil
  · split
    · exact isTrimmed_trimEnd fun starts => trimmed.start (startsWith_of_isPrefix front starts)
    · exact trimmed

theorem heading_shape {line text : Text} {level : Nat} (h : heading? line = some (level, text)) :
    (1 ≤ level ∧ level ≤ 6) ∧ text.IsTrimmed := by
  unfold heading? at h
  dsimp only at h
  split at h
  · cases h
  · rename_i bounds
    cases h
    refine ⟨?_, isTrimmed_headingText _⟩
    omega

theorem underline_level {line : Text} {level : Nat} (h : underline? line = some level) :
    1 ≤ level ∧ level ≤ 6 := by
  unfold underline? at h
  dsimp only at h
  split at h
  · cases h
    decide
  · split at h
    · cases h
      decide
    · cases h

/-! ### Definitions -/

/-- A label or term: a trimmed text that is neither empty nor holds brackets. -/
structure IsLabel (t : Text) : Prop where
  filled : t ≠ []
  trimmed : t.IsTrimmed
  unopened : '[' ∉ t
  unclosed : ']' ∉ t

theorem isLabel_ofBody {kind : LabelKind} {body : Text} {d : DefinitionLine}
    (h : DefinitionLine.ofBody? kind body = some d) : IsLabel d.label := by
  unfold DefinitionLine.ofBody? at h
  split at h
  · cases h
  · rename_i n _
    dsimp only at h
    split at h
    · cases h
    · rename_i proper
      cases h
      rw [Bool.or_eq_true, not_or, List.any_eq_true] at proper
      have inside : Text.trim (body.take n) <:+: body.take n := trim_infix _
      have free {c : Char} (bracket : c == '[' || c == ']') : c ∉ Text.trim (body.take n) :=
        fun member => proper.2 ⟨c, inside.subset member, bracket⟩
      exact ⟨trim_ne_nil proper.1, isTrimmed_trim _, free rfl, free rfl⟩

theorem isLabel_definitionLine {line : Text} {d : DefinitionLine}
    (h : definitionLine? line = some d) : IsLabel d.label := by
  unfold definitionLine? at h
  split at h
  · exact isLabel_ofBody h
  · exact isLabel_ofBody h
  · exact isLabel_ofBody h
  · cases h

theorem splitTarget_url {rest url after : Text} (h : splitTarget? rest = some (url, after)) :
    url ≠ [] := by
  unfold splitTarget? at h
  split at h
  · rename_i inner _
    split at h
    · cases h
    · cases h
    · rename_i n zero found
      cases h
      intro empty
      have parts := find_split found
      rcases List.take_eq_nil_iff.mp empty with none | bare
      · exact zero none
      · rw [bare] at parts
        simp at parts
  · dsimp only at h
    split at h
    · cases h
    · rename_i filled
      cases h
      simpa using filled

theorem linkTarget_url {line rest : Text} {next : Option Text} {target : Target} {more : Nat}
    (h : linkTarget? line rest next = some (target, more)) : target.url ≠ [] := by
  unfold linkTarget? at h
  obtain ⟨⟨url, after⟩, split, h⟩ := Option.bind_eq_some_iff.mp h
  dsimp only at h
  split at h
  · split at h
    all_goals
      cases h
      exact splitTarget_url split
  · obtain ⟨title, _, h⟩ := Option.map_eq_some_iff.mp h
    cases h
    exact splitTarget_url split

/-! ### List markers -/

theorem ofDigitChars_lt {digits : List Char} (all : ∀ c ∈ digits, c.isDigit) (n : Nat) :
    Nat.ofDigitChars 10 digits n < (n + 1) * 10 ^ digits.length := by
  induction digits generalizing n with
  | nil => simp
  | cons c digits ih =>
    rw [List.forall_mem_cons] at all
    have nine : c.toNat - '0'.toNat ≤ 9 := by
      have range := all.1
      simp only [Char.isDigit, Bool.and_eq_true, decide_eq_true_eq, UInt32.le_iff_toNat_le] at range
      exact Nat.sub_le_of_le_add range.2
    calc Nat.ofDigitChars 10 (c :: digits) n
        = Nat.ofDigitChars 10 digits (10 * n + (c.toNat - '0'.toNat)) := Nat.ofDigitChars_cons
      _ < (10 * n + (c.toNat - '0'.toNat) + 1) * 10 ^ digits.length := ih all.2 _
      _ ≤ ((n + 1) * 10) * 10 ^ digits.length := Nat.mul_le_mul_right _ (by omega)
      _ = (n + 1) * 10 ^ (c :: digits).length := by
        rw [List.length_cons, Nat.pow_succ', Nat.mul_assoc]

theorem before_kind {indent number width : Nat} {ordered : Bool} {rest : Text} {m : ListMarker}
    (h : ListMarker.before? indent ordered number width rest = some m) :
    m.ordered = ordered ∧ m.number = number := by
  unfold ListMarker.before? at h
  split at h
  · cases h
    exact ⟨rfl, rfl⟩
  · cases h

/-- An ordered marker has at most nine digits, and the others count as one. -/
theorem listMarker_number {line : Text} {m : ListMarker} (h : listMarker? line = some m) :
    if m.ordered then m.number ≤ 999999999 else m.number = 1 := by
  unfold listMarker? at h
  dsimp only at h
  split at h
  · cases h
  · rename_i c rest _
    split at h
    · obtain ⟨ordered, number⟩ := before_kind h
      rw [ordered, number]
      rfl
    · split at h
      · split at h
        · cases h
        · rename_i few
          obtain ⟨ordered, number⟩ := before_kind h
          rw [ordered, number, if_pos rfl]
          have all : ∀ d ∈ (c :: rest).takeWhile Char.isDigit, d.isDigit :=
            fun d member => List.mem_takeWhile_imp member
          have bound := ofDigitChars_lt all 0
          have power := Nat.pow_le_pow_right (n := 10) (by decide)
            (show ((c :: rest).takeWhile Char.isDigit).length ≤ 9 by omega)
          omega
      · cases h

end CommentMarkup
