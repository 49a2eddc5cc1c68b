import CommentMarkup.Proofs.Comment.Sliced

/-!
# Clean texts

A text that is extracted from a source is cut out of its lines, holds no end of a comment and has
ink in its first and in its last line, whatever the marker accepts: `extract_clean`.
-/

namespace CommentMarkup

open Text

def PartOf (source : List Text) (l : Text) : Prop := ∃ m ∈ source, l <:+: m

/-- The text of a comment, as far as it can be told from the lines of the source. -/
structure IsClean (source : List Text) (t : Text) : Prop where
  unclosed : ¬ commentClose <:+: t
  filled : ¬ t.isBlank
  first : ∃ l : Text, (cutAt (· == '\n') t).head? = some l ∧ ¬ l.isBlank
  last : ∃ l : Text, (cutAt (· == '\n') t).getLast? = some l ∧ ¬ l.isBlank
  parts : ∀ l ∈ cutAt (· == '\n') t, PartOf source l

/-! ### Lines -/

structure IsInner (source : List Text) (l : Text) : Prop where
  unclosed : ¬ commentClose <:+: l
  part : PartOf source l

section Lines

variable {source : List Text}

theorem PartOf.inside {k l : Text} (part : PartOf source l) (inside : k <:+: l) :
    PartOf source k := by
  obtain ⟨m, member, outer⟩ := part
  exact ⟨m, member, inside.trans outer⟩

theorem IsInner.inside {k l : Text} (inner : IsInner source l) (inside : k <:+: l) :
    IsInner source k :=
  ⟨fun closes => inner.unclosed (closes.trans inside), inner.part.inside inside⟩

theorem undecorated_suffix {l t : Text} (decorated : undecorated? l = some t) : t <:+ l := by
  have start : l.trimStart <:+ l := List.dropWhile_suffix isSpace
  unfold undecorated? at decorated
  split at decorated
  · rename_i rest same
    cases decorated
    rw [same] at start
    exact (List.suffix_cons '*' t).trans start
  · cases decorated

theorem undecorated_inner {l : Text} (inner : IsInner source l) :
    ∀ t ∈ (undecorated? l).toList, IsInner source t :=
  fun _ member => inner.inside (undecorated_suffix (Option.mem_toList.mp member)).isInfix

theorem inner_of_find_none {l : Text} (part : PartOf source l)
    (goesOn : find? commentClose l = none) : IsInner source l :=
  ⟨fun closes => by simpa [goesOn] using find_isSome_iff.mpr closes, part⟩

theorem inner_of_find {l : Text} {n : Nat} (part : PartOf source l)
    (closes : find? commentClose l = some n) : IsInner source (l.take n) :=
  ⟨not_infix_take_find (by decide) closes, part.inside (List.take_prefix n l).isInfix⟩

/-- Of the lines of a comment those that count are inner lines, and what is left is parts of the
source. -/
theorem bodyLines_parts {ls : List Text} (parts : ∀ l ∈ ls, PartOf source l) :
    (∀ l ∈ (bodyLines ls).1, IsInner source l) ∧ ∀ l ∈ (bodyLines ls).2, PartOf source l := by
  induction ls with
  | nil => exact ⟨nofun, nofun⟩
  | cons l ls ih =>
    rw [List.forall_mem_cons] at parts
    rw [bodyLines]
    cases closes : find? commentClose l with
    | some n =>
      refine ⟨undecorated_inner (inner_of_find parts.1 closes), ?_⟩
      exact List.forall_mem_cons.mpr ⟨parts.1.inside (List.drop_suffix _ l).isInfix, parts.2⟩
    | none =>
      obtain ⟨body, rest⟩ := ih parts.2
      refine ⟨fun k member => ?_, rest⟩
      rcases List.mem_append.mp member with here | below
      · exact undecorated_inner (inner_of_find_none parts.1 closes) k here
      · exact body k below

/-! ### Texts -/

/-- Inner lines with ink in the first and in the last of them make a clean text. -/
theorem IsClean.ofLines {ls : List Text} (whole : ∀ m ∈ source, '\n' ∉ m)
    (inner : ∀ l ∈ ls, IsInner source l) (first : ∃ l, ls.head? = some l ∧ ¬ l.isBlank)
    (last : ∃ l, ls.getLast? = some l ∧ ¬ l.isBlank) : IsClean source (unlines ls) := by
  have filled : ls ≠ [] := by
    rintro rfl
    obtain ⟨_, none, _⟩ := first
    cases none
  have lines : cutAt (· == '\n') (unlines ls) = ls := by
    refine cutAt_unlines filled fun l member feed => ?_
    obtain ⟨m, found, inside⟩ := (inner l member).part
    exact whole m found (inside.subset feed)
  refine ⟨fun closes => ?_, fun blank => ?_, by rwa [lines], by rwa [lines], ?_⟩
  · obtain ⟨m, member, inside⟩ := infix_of_mem_unlines (by decide) filled closes
    exact (inner m member).unclosed inside
  · obtain ⟨l, head, ink⟩ := first
    refine ink (List.all_eq_true.mpr fun c member => List.all_eq_true.mp blank c ?_)
    exact (of_mem_cutAt (lines.symm ▸ List.mem_of_head? head) member).1
  · rw [lines]
    exact fun l member => (inner l member).part

theorem trimLines_subset (ls : List Text) : trimLines ls ⊆ ls := by
  intro l member
  rw [trimLines, List.mem_reverse] at member
  have back := (List.dropWhile_suffix isBlank).subset member
  exact (List.dropWhile_suffix isBlank).subset (List.mem_reverse.mp back)

theorem trimLines_ends {ls : List Text} (filled : trimLines ls ≠ []) :
    (∃ l, (trimLines ls).head? = some l ∧ ¬ l.isBlank) ∧
      ∃ l, (trimLines ls).getLast? = some l ∧ ¬ l.isBlank := by
  have start {k : List Text} (some : k.dropWhile isBlank ≠ []) :
      ∃ l, (k.dropWhile isBlank).head? = .some l ∧ ¬ l.isBlank := by
    obtain ⟨l, rest, eq⟩ := List.exists_cons_of_ne_nil some
    have ink := List.head?_dropWhile_not isBlank k
    rw [eq] at ink ⊢
    exact ⟨l, rfl, by simpa using ink⟩
  constructor
  · rw [trimLines, ← dropWhile_dropEnd] at filled ⊢
    exact start filled
  · rw [trimLines, List.getLast?_reverse] at *
    exact start (by simpa using filled)

section Comments

variable (marker : Marker) (whole : ∀ m ∈ source, '\n' ∉ m) {comment t : Text}
  (part : PartOf source comment)

include whole part

theorem shortText_clean {n : Nat} (closes : find? commentClose (comment.drop 2) = some n)
    (found : shortText? marker comment n = some t) : IsClean source t := by
  obtain ⟨stop, _, kept⟩ := Option.bind_eq_some_iff.mp found
  dsimp only at kept
  split at kept
  · cases kept
  · rename_i ink
    cases kept
    have inner := inner_of_find (part.inside (List.drop_suffix 2 comment).isInfix) closes
    have inside : (comment.take (n + 2)).drop (max stop 2) <:+ (comment.drop 2).take n := by
      have front : (comment.drop 2).take n = (comment.take (n + 2)).drop 2 := by
        rw [List.drop_take, Nat.add_sub_cancel]
      rw [front]
      exact List.drop_suffix_drop_left _ (Nat.le_max_right stop 2)
    rw [← unlines_singleton ((comment.take (n + 2)).drop (max stop 2))]
    exact .ofLines whole (List.forall_mem_singleton.mpr (inner.inside inside.isInfix))
      ⟨_, rfl, ink⟩ ⟨_, rfl, ink⟩

theorem longText_clean {body : List Text} (goesOn : find? commentClose (comment.drop 2) = none)
    (inner : ∀ l ∈ body, IsInner source l) (found : longText? marker comment body = some t) :
    IsClean source t := by
  obtain ⟨stop, _, kept⟩ := Option.bind_eq_some_iff.mp found
  dsimp only at kept
  split at kept
  · cases kept
  · rename_i some
    cases kept
    have first : IsInner source (comment.drop (max stop 2)) := by
      have behind := inner_of_find_none (part.inside (List.drop_suffix 2 comment).isInfix) goesOn
      exact behind.inside (List.drop_suffix_drop_left _ (Nat.le_max_right stop 2)).isInfix
    have filled : trimLines (comment.drop (max stop 2) :: body) ≠ [] := by
      intro none
      exact some (by rw [commentText, none]; rfl)
    obtain ⟨head, last⟩ := trimLines_ends filled
    refine IsClean.ofLines whole (fun l member => ?_) head last
    exact List.forall_mem_cons.mpr ⟨first, inner⟩ l (trimLines_subset _ member)

end Comments

/-- Clean texts are found in whatever is left of the source. -/
theorem extractLines_clean (marker : Marker) (whole : ∀ m ∈ source, '\n' ∉ m) {ls : List Text}
    (parts : ∀ l ∈ ls, PartOf source l) : ∀ t ∈ extractLines marker ls, IsClean source t := by
  fun_induction endsOutside ls with
  | case1 =>
    rw [extractLines_nil]
    intro t member
    cases member
  | case2 l ls code ih =>
    rw [extractLines_code marker code]
    exact ih (List.forall_mem_cons.mp parts).2
  | case3 l ls opening opens n closes ih =>
    rw [List.forall_mem_cons] at parts
    have part {k : Nat} : PartOf source (l.drop k) := parts.1.inside (List.drop_suffix k l).isInfix
    rw [extractLines_short marker opens closes]
    intro t member
    rcases List.mem_append.mp member with here | later
    · rw [← List.drop_drop] at closes
      exact shortText_clean marker whole part closes (Option.mem_toList.mp here)
    · exact ih (List.forall_mem_cons.mpr ⟨part, parts.2⟩) t later
  | case4 l ls opening opens goesOn ih =>
    rw [List.forall_mem_cons] at parts
    have part {k : Nat} : PartOf source (l.drop k) := parts.1.inside (List.drop_suffix k l).isInfix
    obtain ⟨inner, rest⟩ := bodyLines_parts parts.2
    rw [extractLines_long marker opens goesOn]
    intro t member
    rcases List.mem_append.mp member with here | later
    · rw [← List.drop_drop] at goesOn
      exact longText_clean marker whole part goesOn inner (Option.mem_toList.mp here)
    · exact ih rest t later

end Lines

/-- What is extracted is clean. No cut by octets is out of range on the way to it, wherever a marker
ends. -/
theorem extract_clean (source : Text) :
    (∀ marker, ∀ t ∈ extract marker source, IsClean (lines source) t) ∧
      ∀ ends : Text → Option Nat,
        sliced? ends source = some (extract (.ofOctets ends) source) := by
  refine ⟨fun marker => ?_, fun ends => sliced_eq ends source⟩
  exact extractLines_clean marker (lines_whole source) fun l member => ⟨l, member, List.infix_rfl⟩

def cleanSample : Text := "/** é */ /** b\n * c\n *\n".toList

theorem extract_clean_sample :
    " b\n c".toList ∈ extract doubleStar cleanSample ∧
      IsClean (lines cleanSample) " b\n c".toList ∧
      sliced? (fun _ => some 100) cleanSample =
        some (extract (.ofOctets fun _ => some 100) cleanSample) := by
  have cut : lines cleanSample = ["/** é */ /** b".toList, " * c".toList, " *".toList] := by decide
  have found : " b\n c".toList ∈ extract doubleStar cleanSample := by
    have first : openingIndex? false "/** é */ /** b".toList = some 0 := by cbv
    have closes : find? commentClose ("/** é */ /** b".toList.drop 2) = some 4 := by decide
    have second : openingIndex? false ("/** é */ /** b".toList.drop 8) = some 1 := by cbv
    have goesOn : find? commentClose (("/** é */ /** b".toList.drop 8).drop 3) = none := by decide
    rw [extract, cut, extractLines_short doubleStar first closes,
      extractLines_long doubleStar second goesOn]
    exact List.mem_append_right _ (List.mem_append_left _ (by decide))
  exact ⟨found, (extract_clean cleanSample).1 doubleStar _ found, (extract_clean cleanSample).2 _⟩

end CommentMarkup
