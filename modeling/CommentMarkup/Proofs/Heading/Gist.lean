import CommentMarkup.Heading.Slug
import CommentMarkup.Proofs.Line.Fence
import Mathlib.Data.List.Induction

/-!
# Gist of a text

What a slug depends on: the characters that it keeps and the places of white space. Texts of one gist
have one slug, `slugify_eq_of_gist`, and so has a text without the white space around it.
-/

namespace CommentMarkup

/-- The characters of a text that slugs keep, and a space for each white space. -/
def gist (t : Text) : Text :=
  t.filterMap fun c => if isSpace c then some ' ' else if isSlugChar c then some c else none

theorem gist_append (a b : Text) : gist (a ++ b) = gist a ++ gist b := List.filterMap_append

theorem gist_cons (c : Char) (t : Text) : gist (c :: t) = gist [c] ++ gist t := gist_append [c] t

theorem gist_cons_space {c : Char} (space : isSpace c) (t : Text) : gist (c :: t) = ' ' :: gist t := by
  rw [gist, List.filterMap_cons, if_pos space]
  rfl

theorem gist_cons_slug {c : Char} (ink : ¬ isSpace c) (slug : isSlugChar c) (t : Text) :
    gist (c :: t) = c :: gist t := by
  rw [gist, List.filterMap_cons, if_neg ink, if_pos slug]
  rfl

theorem gist_cons_mute {c : Char} (ink : ¬ isSpace c) (mute : ¬ isSlugChar c) (t : Text) :
    gist (c :: t) = gist t := by
  rw [gist, List.filterMap_cons, if_neg ink, if_neg mute]
  rfl

/-! ### Words -/

/-- The words of the gist are what slugs keep of the words. -/
theorem cutAt_gist (t : Text) :
    cutAt isSpace (gist t) = (cutAt isSpace t).map (List.filter isSlugChar) := by
  induction t with
  | nil => rfl
  | cons c t ih =>
    by_cases space : isSpace c
    · rw [gist_cons_space space, cutAt_cons_pos (by decide), cutAt_cons_pos space, ih]
      rfl
    · obtain ⟨piece, pieces, eq, whole⟩ := cutAt_cons_neg (p := isSpace) space t
      rw [eq] at ih
      rw [whole]
      by_cases slug : isSlugChar c
      · obtain ⟨piece', pieces', eq', whole'⟩ := cutAt_cons_neg (p := isSpace) space (gist t)
        rw [gist_cons_slug space slug, whole']
        rw [ih, List.map_cons] at eq'
        cases eq'
        rw [List.map_cons, List.filter_cons_of_pos slug]
      · rw [gist_cons_mute space slug, ih, List.map_cons, List.map_cons,
          List.filter_cons_of_neg slug]

theorem slugWord_filter (word : Text) : slugWord (word.filter isSlugChar) = slugWord word := by
  rw [slugWord, List.filter_filter]
  simp only [Bool.and_self]
  rw [slugWord]

/-- The words that are empty leave no trace in a slug. -/
theorem slugify_eq_cutAt (t : Text) :
    slugify t = List.intercalate ['-']
      (((cutAt isSpace t).map slugWord).filter fun w => !w.isEmpty) := by
  rw [slugify, Text.words]
  congr 1
  induction cutAt isSpace t with
  | nil => rfl
  | cons w ws ih =>
    cases w with
    | nil => simpa [slugWord] using ih
    | cons c w => simp only [List.filter_cons, List.map_cons, List.isEmpty_cons, Bool.not_false,
        if_true, ih]

theorem slugify_gist (t : Text) : slugify (gist t) = slugify t := by
  have same : slugWord ∘ List.filter isSlugChar = slugWord := funext slugWord_filter
  rw [slugify_eq_cutAt, cutAt_gist, List.map_map, same, ← slugify_eq_cutAt]

theorem slugify_eq_of_gist {a b : Text} (same : gist a = gist b) : slugify a = slugify b := by
  rw [← slugify_gist a, same, slugify_gist]

/-! ### White space at the ends -/

theorem cutAt_append_cut {α : Type} {p : α → Bool} {a : α} (cut : p a) (l : List α) :
    cutAt p (l ++ [a]) = cutAt p l ++ [[]] := by
  induction l with
  | nil => exact cutAt_cons_pos cut []
  | cons b l ih =>
    rw [List.cons_append]
    by_cases here : p b
    · rw [cutAt_cons_pos here, cutAt_cons_pos here, ih]
      rfl
    · obtain ⟨piece, pieces, eq, whole⟩ := cutAt_cons_neg here l
      obtain ⟨piece', pieces', eq', whole'⟩ := cutAt_cons_neg here (l ++ [a])
      rw [ih, eq] at eq'
      cases eq'
      rw [whole', whole]
      rfl

theorem Text.words_append_space {c : Char} (space : isSpace c) (t : Text) :
    (t ++ [c]).words = t.words := by
  rw [words, cutAt_append_cut space, List.filter_append]
  exact List.append_nil _

theorem Text.words_trimStart (t : Text) : t.trimStart.words = t.words := by
  induction t with
  | nil => rfl
  | cons c t ih =>
    by_cases space : isSpace c
    · rw [trimStart, List.dropWhile_cons_of_pos space, words_cons_space space]
      exact ih
    · rw [trimStart, List.dropWhile_cons_of_neg space]

theorem Text.words_trimEnd (t : Text) : t.trimEnd.words = t.words := by
  induction t using List.reverseRecOn with
  | nil => rfl
  | append_singleton t c ih =>
    rw [trimEnd, dropEndWhile, List.reverse_append, List.reverse_singleton, List.singleton_append]
    by_cases space : isSpace c
    · rw [List.dropWhile_cons_of_pos space, words_append_space space]
      exact ih
    · rw [List.dropWhile_cons_of_neg space, List.reverse_cons, List.reverse_reverse]

theorem slugify_trim (t : Text) : slugify t.trim = slugify t := by
  rw [slugify, Text.trim, Text.words_trimEnd, Text.words_trimStart, slugify]

end CommentMarkup
