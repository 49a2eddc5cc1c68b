import CommentMarkup.Proofs.Inline.Inventory

/-!
# Fixed spans

Spans that are neither text nor enclose others. Pairing emphasis and marking abbreviations move none
of them, change none and lose none: `fixed_emphasize`, `fixed_expandAbbreviations`.
-/

namespace CommentMarkup

/-- The span is neither text nor does it enclose other spans. -/
def Inline.isFixed : Inline → Bool
  | .charRef _ | .code _ | .lineBreak | .rawHtml _ | .image .. | .footnoteRef .. | .autolink .. =>
    true
  | _ => false

def fixed (spans : List Inline) : List Inline := (spanFlow spans).filter Inline.isFixed

@[simp] theorem fixed_nil : fixed [] = [] := rfl

@[simp] theorem fixed_append (a b : List Inline) : fixed (a ++ b) = fixed a ++ fixed b := by
  rw [fixed, spanFlow_append, List.filter_append, fixed, fixed]

theorem fixed_cons (span : Inline) (spans : List Inline) :
    fixed (span :: spans) = fixed [span] ++ fixed spans := fixed_append [span] spans

@[simp] theorem fixed_text (t : Text) : fixed [.text t] = [] := rfl

@[simp] theorem fixed_emphasis (children : List Inline) :
    fixed [.emphasis children] = fixed children := by
  simp [fixed, spanFlow, Inline.flow, Inline.isFixed]

@[simp] theorem fixed_strong (children : List Inline) :
    fixed [.strong children] = fixed children := by
  simp [fixed, spanFlow, Inline.flow, Inline.isFixed]

@[simp] theorem fixed_strikethrough (children : List Inline) :
    fixed [.strikethrough children] = fixed children := by
  simp [fixed, spanFlow, Inline.flow, Inline.isFixed]

@[simp] theorem fixed_link (target : Target) (children : List Inline) :
    fixed [.link target children] = fixed children := by
  simp [fixed, spanFlow, Inline.flow, Inline.isFixed]

def Piece.fixed : Piece → List Inline
  | .span s => CommentMarkup.fixed [s]
  | .run _ => []

def pieceFixed (pieces : List Piece) : List Inline := pieces.flatMap Piece.fixed

@[simp] theorem pieceFixed_nil : pieceFixed [] = [] := rfl

@[simp] theorem pieceFixed_span (span : Inline) (pieces : List Piece) :
    pieceFixed (.span span :: pieces) = fixed [span] ++ pieceFixed pieces := rfl

@[simp] theorem pieceFixed_run (run : Run) (pieces : List Piece) :
    pieceFixed (.run run :: pieces) = pieceFixed pieces := rfl

@[simp] theorem pieceFixed_append (a b : List Piece) :
    pieceFixed (a ++ b) = pieceFixed a ++ pieceFixed b := List.flatMap_append

/-! ### Emphasis and abbreviations -/

def Inline.fixed? (span : Inline) : Option Inline := if span.isFixed then some span else none

theorem lasting_fixed : Lasting Inline.fixed? :=
  ⟨fun _ => rfl, fun _ => rfl, fun _ => rfl, fun _ => rfl, fun _ _ => rfl, fun _ _ _ => rfl⟩

/-- What is picked from fixed spans alone is picked from the fixed spans. -/
theorem inventory_eq_fixed {α : Type} {pick : Inline → Option α}
    (only : ∀ span, ¬ span.isFixed → pick span = none) (spans : List Inline) :
    inventory pick spans = (fixed spans).filterMap pick := by
  rw [inventory, fixed, List.filterMap_filter]
  congr 1
  funext span
  split
  · rfl
  · exact only span ‹_›

theorem fixed_eq_inventory (spans : List Inline) : fixed spans = inventory Inline.fixed? spans := by
  rw [fixed, ← List.filterMap_eq_filter]
  rfl

theorem fixed_emphasize (pieces : List Piece) : fixed (emphasize pieces) = pieceFixed pieces := by
  have same : Piece.inventory Inline.fixed? = Piece.fixed := by
    funext piece
    cases piece with
    | span span => exact (fixed_eq_inventory [span]).symm
    | run run => rfl
  rw [fixed_eq_inventory, inventory_emphasize lasting_fixed.textless, pieceInventory, same, pieceFixed]

theorem fixed_expandAbbreviations (terms : List (Text × Text)) (spans : List Inline) :
    fixed (expandAbbreviations terms spans) = fixed spans := by
  rw [fixed_eq_inventory, inventory_expandAbbreviations lasting_fixed, fixed_eq_inventory]

end CommentMarkup
