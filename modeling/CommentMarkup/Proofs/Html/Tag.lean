import CommentMarkup.Html.Tag
import CommentMarkup.Proofs.Text.Foreign

/-!
# What escaping keeps

Escaping writes ASCII characters in another way and leaves all others alone.
-/

namespace CommentMarkup

open Text

theorem foreign_escapeText (t : Text) : foreign (escapeText t) = t.foreign := by
  have one (c : Char) : foreign (escapeTextChar c) = foreign [c] := by
    unfold escapeTextChar
    split
    · rename_i same
      rw [same]
      decide
    · split
      · rename_i same
        rw [same]
        decide
      · split
        · rename_i same
          rw [same]
          decide
        · rfl
  induction t with
  | nil => rfl
  | cons c t ih =>
    rw [escapeText, List.flatMap_cons, foreign_append, one, ← escapeText, ih, ← foreign_append]
    rfl

theorem take_append_drop_pred {α : Type} {n : Nat} (taken : 0 < n) (a : α) (l : List α) :
    (a :: l).take n ++ l.drop (n - 1) = a :: l := by
  obtain ⟨k, rfl⟩ := Nat.exists_eq_add_one_of_ne_zero (Nat.pos_iff_ne_zero.mp taken)
  rw [List.take_succ_cons, Nat.add_sub_cancel, List.cons_append, List.take_append_drop]

theorem scanTag_pos {t : Text} {markup : Markup} {n : Nat} (h : scanTag t = some (markup, n)) :
    0 < n := by
  have named {lead : Nat} {t : Text} (pos : 0 < lead)
      (h : scanTagName lead t = some (markup, n)) : 0 < n := by
    unfold scanTagName at h
    dsimp only at h
    split at h
    · cases h
    · obtain ⟨k, _, eq⟩ := Option.map_eq_some_iff.mp h
      cases eq
      omega
  unfold scanTag at h
  split at h
  · obtain ⟨k, _, eq⟩ := Option.map_eq_some_iff.mp h
    cases eq
    omega
  · exact named (by decide) h
  · exact named (by decide) h
  · cases h

theorem foreign_neutralizeTags (t : Text) : foreign (neutralizeTags t) = t.foreign := by
  fun_induction neutralizeTags t with
  | case1 => rfl
  | case2 c cs _ ih =>
    rw [← List.singleton_append, foreign_append, ih, ← foreign_append]
    rfl
  | case3 c cs markup n found written ih =>
    have whole : written ++ cs.drop (n - 1) = c :: cs :=
      take_append_drop_pred (scanTag_pos found) c cs
    have kept : foreign (if markup.isAllowed then written else escapeText written) =
        foreign written := by
      split
      · rfl
      · exact foreign_escapeText written
    rw [foreign_append, kept, ih, ← foreign_append, whole]

end CommentMarkup
