import CommentMarkup.Proofs.Html.Tag
import CommentMarkup.Proofs.Text.Measure

/-!
# Texts with no more of a measure

`Within μ k a b` says that a text has `k` less of the measure if `a` stands in it in place of `b`,
whatever stands around. Unlike `μ a ≤ μ b` it is kept by concatenation, so that it holds of a text if
it holds of its parts.
-/

namespace CommentMarkup

/-- A measure of ink of which escaping a character makes no more. -/
structure EscapeMeasure (μ : Text → Nat) : Prop extends InkMeasure μ where
  escaped (c : Char) (a b : Text) : μ (a ++ escapeTextChar c ++ b) ≤ μ (a ++ c :: b)

/-- Backslashes do not count. -/
structure Spelling (μ : Text → Nat) : Prop extends EscapeMeasure μ where
  backslash (a b : Text) : μ (a ++ '\\' :: b) = μ (a ++ b)

def spaced : List Text → Text
  | [] => [' ']
  | t :: ts => ' ' :: t ++ spaced ts

theorem infix_spaced {t : Text} {ts : List Text} (member : t ∈ ts) : t <:+: spaced ts := by
  induction ts with
  | nil => cases member
  | cons u ts ih =>
    rw [spaced]
    rcases List.mem_cons.mp member with rfl | later
    · exact List.infix_append [' '] t (spaced ts)
    · exact (ih later).trans (List.suffix_append (' ' :: u) (spaced ts)).isInfix

theorem spaced_eq {μ : Text → Nat} (measure : InkMeasure μ) (ts : List Text) (x y : Text) :
    μ (x ++ spaced ts ++ y) = μ x + sumOver μ ts + μ y := by
  induction ts generalizing x with
  | nil => simpa [spaced, sumOver] using measure.cut x y (c := ' ') (by decide)
  | cons t ts ih =>
    have cut := measure.cut x (t ++ spaced ts ++ y) (c := ' ') (by decide)
    rw [ih t] at cut
    simp only [spaced, sumOver, List.cons_append, List.append_assoc] at cut ⊢
    omega

theorem spaced_measure {μ : Text → Nat} (measure : InkMeasure μ) (ts : List Text) :
    μ (spaced ts) = sumOver μ ts := by
  have whole := spaced_eq measure ts [] []
  rw [measure.nil, List.nil_append, List.append_nil] at whole
  omega

def Within (μ : Text → Nat) (k : Nat) (a b : Text) : Prop :=
  ∀ x y, μ (x ++ a ++ y) + k ≤ μ (x ++ b ++ y)

namespace Within

variable {μ : Text → Nat}

theorem refl (a : Text) : Within μ 0 a a := fun _ _ => Nat.le_refl _

theorem of_eq {a b : Text} (same : a = b) : Within μ 0 a b := same ▸ refl a

theorem le {k : Nat} {a b : Text} (h : Within μ k a b) : μ a + k ≤ μ b := by
  simpa using h [] []

theorem trans {j k : Nat} {a b c : Text} (left : Within μ j a b) (right : Within μ k b c) :
    Within μ (j + k) a c := by
  intro x y
  have first := left x y
  have second := right x y
  omega

theorem append {j k : Nat} {a a' b b' : Text} (left : Within μ j a b) (right : Within μ k a' b') :
    Within μ (j + k) (a ++ a') (b ++ b') := by
  intro x y
  have first := left x (a' ++ y)
  have second := right (x ++ b) y
  simp only [List.append_assoc] at first second ⊢
  omega

theorem weaken {j k : Nat} {a b : Text} (h : Within μ k a b) (le : j ≤ k) : Within μ j a b := by
  intro x y
  have whole := h x y
  omega

/-- Spaces set strings apart from each other and from what stands around. -/
theorem spaced (measure : InkMeasure μ) {k : Nat} {ts : List Text} {b : Text}
    (le : sumOver μ ts + k ≤ μ b) : Within μ k (spaced ts) b := by
  intro x y
  have whole := measure.append_le (x ++ b) y
  have front := measure.append_le x b
  rw [spaced_eq measure]
  omega

theorem white (measure : InkMeasure μ) {c d : Char} (one : isSpace c) (other : isSpace d) :
    Within μ 0 [c] [d] := by
  intro x y
  have left := measure.cut x y one
  have right := measure.cut x y other
  simp only [List.append_assoc, List.singleton_append]
  omega

theorem nil_left (measure : Spelling μ) : Within μ 0 [] ['\\'] := by
  intro x y
  have same := measure.backslash x y
  simp only [List.append_nil, List.append_assoc, List.cons_append, List.nil_append]
  omega

theorem escapeText (measure : EscapeMeasure μ) (t : Text) : Within μ 0 (escapeText t) t := by
  induction t with
  | nil => exact refl []
  | cons c t ih =>
    have first : Within μ 0 (escapeTextChar c) [c] := by
      intro x y
      simpa using measure.escaped c x y
    exact first.append ih

theorem neutralizeTags (measure : EscapeMeasure μ) (t : Text) : Within μ 0 (neutralizeTags t) t := by
  fun_induction CommentMarkup.neutralizeTags t with
  | case1 => exact refl []
  | case2 c cs _ ih => exact (refl [c]).append ih
  | case3 c cs markup n found written ih =>
    have here : Within μ 0 (if markup.isAllowed then written else CommentMarkup.escapeText written)
        written := by
      split
      · exact refl written
      · exact escapeText measure written
    have both := here.append ih
    rwa [take_append_drop_pred (scanTag_pos found)] at both

end Within

end CommentMarkup
