import CommentMarkup.Proofs.Text.Cut
import Mathlib.Data.List.TakeWhile

/-!
# Ends of trimmed texts

What trimming leaves has white space at neither end. The white space at the end of a text with ink
in its last part is that of the last part.
-/

namespace CommentMarkup

namespace Text

structure IsTrimmed (t : Text) : Prop where
  start : ¬ t.startsWith isSpace
  ending : ¬ t.endsWith isSpace

theorem not_startsWith_dropWhile (p : Char → Bool) (t : Text) :
    ¬ startsWith p (t.dropWhile p) := by
  intro starts
  obtain ⟨c, u, eq, holds⟩ := startsWith_iff.mp starts
  have first := List.head?_dropWhile_not p t
  rw [eq] at first
  simp [holds] at first

theorem not_endsWith_dropEndWhile (p : Char → Bool) (t : Text) :
    ¬ endsWith p (t.dropEndWhile p) := by
  rw [endsWith, dropEndWhile, List.reverse_reverse]
  exact not_startsWith_dropWhile p t.reverse

theorem startsWith_of_isPrefix {p : Char → Bool} {a b : Text} (front : a <+: b)
    (starts : a.startsWith p) : b.startsWith p := by
  obtain ⟨c, u, rfl, holds⟩ := startsWith_iff.mp starts
  obtain ⟨rest, rfl⟩ := front
  exact holds

theorem isTrimmed_trimEnd {t : Text} (start : ¬ t.startsWith isSpace) : t.trimEnd.IsTrimmed where
  start starts := start (startsWith_of_isPrefix (dropEndWhile_isPrefix isSpace t) starts)
  ending := not_endsWith_dropEndWhile isSpace t

theorem isTrimmed_trim (t : Text) : t.trim.IsTrimmed :=
  isTrimmed_trimEnd (not_startsWith_dropWhile isSpace t)

theorem isTrimmed_nil : IsTrimmed [] := ⟨Bool.false_ne_true, Bool.false_ne_true⟩

/-! ### Texts with ink -/

theorem trim_ne_nil {t : Text} (filled : ¬ t.isBlank) : t.trim ≠ [] := by
  intro empty
  apply filled
  rw [isBlank_iff_inkCount, ← inkCount_trim, empty, inkCount_nil]

theorem startsWith_trimStart {t : Text} (filled : ¬ t.isBlank) :
    t.trimStart.startsWith fun c => !isSpace c := by
  cases eq : t.trimStart with
  | nil =>
    refine absurd ?_ filled
    rw [isBlank_iff_inkCount, ← inkCount_trimStart, eq, inkCount_nil]
  | cons c u =>
    have start := not_startsWith_dropWhile isSpace t
    rw [show t.dropWhile isSpace = c :: u from eq] at start
    simpa [startsWith] using start

theorem startsWith_trim {t : Text} (filled : ¬ t.isBlank) :
    t.trim.startsWith fun c => !isSpace c := by
  cases eq : t.trim with
  | nil => exact absurd eq (trim_ne_nil filled)
  | cons c u =>
    have start := (isTrimmed_trim t).start
    rw [eq] at start
    simpa [startsWith] using start

theorem trimEnd_append (a : Text) {b : Text} (filled : ¬ b.isBlank) :
    (a ++ b).trimEnd = a ++ b.trimEnd := by
  have ink : b.reverse.dropWhile isSpace ≠ [] := by
    intro blank
    apply filled
    rw [isBlank_iff_inkCount, ← inkCount_reverse, ← inkCount_dropWhile fun _ h => h, blank,
      inkCount_nil]
  have inked : (b.reverse.dropWhile isSpace).isEmpty = false := by simpa using ink
  rw [trimEnd, dropEndWhile, List.reverse_append, List.dropWhile_append, inked,
    if_neg Bool.false_ne_true, List.reverse_append, List.reverse_reverse]
  rfl

/-! ### Blank ends -/

theorem trimStart_eq_self {t : Text} (start : ¬ t.startsWith isSpace) : t.trimStart = t := by
  cases t with
  | nil => rfl
  | cons c t => exact List.dropWhile_cons_of_neg start

@[simp] theorem trimStart_trimStart (t : Text) : t.trimStart.trimStart = t.trimStart :=
  trimStart_eq_self (not_startsWith_dropWhile isSpace t)

@[simp] theorem trimStart_trim (t : Text) : t.trim.trimStart = t.trim :=
  trimStart_eq_self (isTrimmed_trim t).start

theorem trimStart_blank {t : Text} (blank : t.isBlank) : t.trimStart = [] := by
  rw [trimStart, List.dropWhile_eq_nil_iff]
  exact List.all_eq_true.mp blank

theorem exists_trimEnd (t : Text) : ∃ behind, isBlank behind ∧ t = t.trimEnd ++ behind := by
  refine ⟨(t.reverse.takeWhile isSpace).reverse, ?_, ?_⟩
  · rw [isBlank, List.all_reverse, List.all_takeWhile]
  · rw [trimEnd, dropEndWhile, ← List.reverse_append, List.takeWhile_append_dropWhile,
      List.reverse_reverse]

theorem trimEnd_append_blank (t : Text) {behind : Text} (blank : behind.isBlank) :
    (t ++ behind).trimEnd = t.trimEnd := by
  have whole := List.all_eq_true.mp blank
  rw [trimEnd, dropEndWhile, List.reverse_append, List.dropWhile_append_of_pos]
  · rfl
  · exact fun c member => whole c (List.mem_reverse.mp member)

theorem trimEnd_blank {t : Text} (blank : t.isBlank) : t.trimEnd = [] :=
  trimEnd_append_blank [] blank

theorem trimStart_append {s : Text} (filled : ¬ s.isBlank) (rest : Text) :
    (s ++ rest).trimStart = s.trimStart ++ rest := by
  have ink : (s.dropWhile isSpace).isEmpty = false := by
    obtain ⟨c, u, eq, _⟩ := startsWith_iff.mp (startsWith_trimStart filled)
    rw [show s.dropWhile isSpace = c :: u from eq]
    rfl
  rw [trimStart, List.dropWhile_append, ink, if_neg Bool.false_ne_true, trimStart]

theorem trimStart_suffix {s t : Text} (ending : s <:+ t) : s.trimStart <:+ t.trimStart := by
  obtain ⟨front, rfl⟩ := ending
  by_cases blank : isBlank front
  · have same : trimStart (front ++ s) = s.trimStart :=
      List.dropWhile_append_of_pos (List.all_eq_true.mp blank)
    exact ⟨[], same.symm⟩
  · rw [trimStart_append blank]
    exact (List.dropWhile_suffix isSpace).trans (List.suffix_append _ s)

theorem trimEnd_suffix {s t : Text} (ending : s <:+ t) : s.trimEnd <:+ t.trimEnd := by
  obtain ⟨front, rfl⟩ := ending
  by_cases blank : s.isBlank
  · rw [trimEnd_blank blank]
    exact List.nil_suffix
  · rw [trimEnd_append front blank]
    exact List.suffix_append front _

theorem trimEnd_trimEnd (t : Text) : t.trimEnd.trimEnd = t.trimEnd := by
  obtain ⟨behind, blank, eq⟩ := exists_trimEnd t
  have same := trimEnd_append_blank t.trimEnd blank
  rw [← eq] at same
  exact same.symm

@[simp] theorem trim_trim (t : Text) : t.trim.trim = t.trim := by
  rw [trim, trimStart_trim, trim, trimEnd_trimEnd]

/-- Parts of a text stand in it without the white space at their ends, also when it is trimmed. -/
theorem trim_infix_trim {s t : Text} (inside : s <:+: t) : s.trim <:+: t.trim := by
  obtain ⟨front, rest, rfl⟩ := inside
  by_cases blank : s.isBlank
  · rw [trim, trimStart_blank blank]
    exact List.nil_infix
  · have behind : s ++ rest <:+ front ++ s ++ rest := by
      rw [List.append_assoc]
      exact List.suffix_append front _
    have ending := trimEnd_suffix (trimStart_suffix behind)
    rw [trimStart_append blank] at ending
    refine List.IsInfix.trans ?_ ending.isInfix
    by_cases last : isBlank rest
    · rw [trimEnd_append_blank _ last]
      exact List.infix_rfl
    · rw [trimEnd_append _ last]
      exact ((dropEndWhile_isPrefix isSpace _).trans (List.prefix_append _ _)).isInfix

end Text

end CommentMarkup
