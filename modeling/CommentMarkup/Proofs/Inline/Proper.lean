import CommentMarkup.Proofs.Html.CharRef
import CommentMarkup.Proofs.Html.Token
import CommentMarkup.Proofs.Inline.Outcome
import CommentMarkup.Proofs.Tree.Flow

/-!
# Proper character references

The character references that reading finds hold no angle brackets, so that they are written as they
stand without harm.
-/

namespace CommentMarkup

open Html

/-- A reference is recognised by its own characters, and no angle bracket is among them. -/
theorem charRef_split {t : Text} {n : Nat} (h : CharRef.length? t = some n) :
    ∃ ref after, t = ref ++ after ∧ n = ref.length ∧ (∀ c ∈ ref, !isAngle c) ∧
      ∀ rest, CharRef.length? (ref ++ rest) = some n := by
  obtain ⟨ref, ⟨after, rfl⟩, rfl, form⟩ := CharRef.length_eq_some_iff.mp h
  refine ⟨ref, after, rfl, rfl, ?_, form.length_append⟩
  obtain ⟨body, rfl, inside⟩ := form.body
  rw [List.forall_mem_cons]
  refine ⟨by decide, fun c member => ?_⟩
  rcases inside c member with letter | rfl | rfl
  · exact not_isAngle_of_isAlphanum letter
  · decide
  · decide

/-- If the span is a character reference, it holds no angle bracket. -/
def Inline.IsProper (span : Inline) : Prop :=
  ∀ t, span = .charRef t → '<' ∉ t ∧ '>' ∉ t

theorem Inline.IsRead.proper {span : Inline} (read : span.IsRead) : span.IsProper := by
  intro t same
  subst same
  cases read with
  | lexeme lexeme =>
    cases lexeme with
    | charRef form =>
      obtain ⟨ref, after, rfl, rfl, calm, _⟩ := charRef_split form
      rw [List.take_left]
      exact ⟨fun low => absurd (calm _ low) (by decide), fun high => absurd (calm _ high) (by decide)⟩

/-- The character references that reading finds hold no angle bracket. -/
theorem readInline_proper (scope : Scope) (t : Text) (notes : Notes) :
    ∀ span ∈ spanFlow (readInline scope t notes).1, span.IsProper := by
  intro span member t' same
  have fixed : span.isFixed := by
    rw [same]
    rfl
  exact (readInline_isRead scope t notes span (List.mem_filter.mpr ⟨member, fixed⟩)).proper t' same

end CommentMarkup
