import CommentMarkup.Proofs.Inline.Fixed

/-!
# Mentions of footnotes

The footnote references in spans, in reading order. They are among the fixed spans:
`mentions_fixed`.
-/

namespace CommentMarkup

/-- A footnote reference: the number it shows, and whether the footnote points back to it. -/
structure Mention where
  number : Nat
  first : Bool
  deriving DecidableEq, Repr

mutual

def Inline.mentions : Inline → List Mention
  | .footnoteRef _ number first => [⟨number, first⟩]
  | .emphasis children | .strong children | .strikethrough children | .link _ children =>
    mentions children
  | _ => []

def mentions : List Inline → List Mention
  | [] => []
  | span :: spans => span.mentions ++ mentions spans

end

@[simp] theorem mentions_nil : mentions [] = [] := rfl

@[simp] theorem mentions_cons (span : Inline) (spans : List Inline) :
    mentions (span :: spans) = span.mentions ++ mentions spans := rfl

def Inline.mention? : Inline → Option Mention
  | .footnoteRef _ number first => some ⟨number, first⟩
  | _ => none

mutual

theorem Inline.mentions_fixed (span : Inline) :
    span.mentions = (fixed [span]).filterMap Inline.mention? := by
  cases span with
  | emphasis children | strong children | strikethrough children | link _ children =>
    simpa [Inline.mentions] using CommentMarkup.mentions_fixed children
  | _ => rfl

theorem mentions_fixed (spans : List Inline) :
    mentions spans = (fixed spans).filterMap Inline.mention? := by
  cases spans with
  | nil => rfl
  | cons span spans =>
    rw [mentions_cons, fixed_cons, List.filterMap_append, ← Inline.mentions_fixed span,
      ← mentions_fixed spans]

end

end CommentMarkup
