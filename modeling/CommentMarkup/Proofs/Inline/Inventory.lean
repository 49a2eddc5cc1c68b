import CommentMarkup.Inline.Reader
import CommentMarkup.Proofs.Tree.Flow

/-!
# Inventories of spans

Pairing emphasis and marking abbreviations work on text and on what encloses it. What is picked from
the other spans stays as it is, in its order: `inventory_emphasize`,
`inventory_expandAbbreviations`.
-/

namespace CommentMarkup

section Inventory

variable {α : Type} (pick : Inline → Option α)

structure Textless : Prop where
  text : ∀ t, pick (.text t) = none
  emphasis : ∀ children, pick (.emphasis children) = none
  strong : ∀ children, pick (.strong children) = none
  strikethrough : ∀ children, pick (.strikethrough children) = none

/-- Nothing is picked from text and emphasis, and of a link not what depends on its text. -/
structure Lasting : Prop where
  text : ∀ t, pick (.text t) = none
  emphasis : ∀ children, pick (.emphasis children) = none
  strong : ∀ children, pick (.strong children) = none
  strikethrough : ∀ children, pick (.strikethrough children) = none
  abbreviation : ∀ term expansion, pick (.abbreviation term expansion) = none
  link : ∀ target children others, pick (.link target children) = pick (.link target others)

/-- What is picked from the spans and from those inside them, in reading order. -/
def inventory (spans : List Inline) : List α := (spanFlow spans).filterMap pick

def Piece.inventory : Piece → List α
  | .span s => CommentMarkup.inventory pick [s]
  | .run _ => []

def pieceInventory (pieces : List Piece) : List α := pieces.flatMap (Piece.inventory pick)

variable {pick}

theorem Lasting.textless (lasting : Lasting pick) : Textless pick :=
  ⟨lasting.text, lasting.emphasis, lasting.strong, lasting.strikethrough⟩

theorem inventory_append (a b : List Inline) :
    inventory pick (a ++ b) = inventory pick a ++ inventory pick b := by
  rw [inventory, spanFlow_append, List.filterMap_append, inventory, inventory]

theorem inventory_cons (span : Inline) (spans : List Inline) :
    inventory pick (span :: spans) = inventory pick [span] ++ inventory pick spans :=
  inventory_append [span] spans

theorem inventory_link (target : Target) (children : List Inline) :
    inventory pick [.link target children] =
      (pick (.link target children)).toList ++ inventory pick children := by
  cases own : pick (.link target children) <;> simp [inventory, spanFlow, Inline.flow, own]

theorem pieceInventory_append (a b : List Piece) :
    pieceInventory pick (a ++ b) = pieceInventory pick a ++ pieceInventory pick b :=
  List.flatMap_append

theorem pieceInventory_span (span : Inline) (pieces : List Piece) :
    pieceInventory pick (.span span :: pieces) =
      inventory pick [span] ++ pieceInventory pick pieces := rfl

theorem pieceInventory_run (run : Run) (pieces : List Piece) :
    pieceInventory pick (.run run :: pieces) = pieceInventory pick pieces := rfl

theorem findOpener_split {mark : Char} {inner done between before : List Piece} {opener : Run}
    (h : findOpener? mark inner done = some (between, opener, before)) :
    done.reverse ++ inner = before.reverse ++ .run opener :: between := by
  induction done generalizing inner with
  | nil => cases h
  | cons piece done ih =>
    cases piece with
    | span span => simpa using ih h
    | run run =>
      unfold findOpener? at h
      split at h
      · cases h
        simp
      · simpa using ih h

variable (textless : Textless pick)

include textless

theorem inventory_text (t : Text) : inventory pick [.text t] = [] := by
  simp [inventory, spanFlow, Inline.flow, textless.text]

theorem heldPiece_inventory (held : Text) : pieceInventory pick (heldPiece held) = [] := by
  unfold heldPiece
  split
  · rfl
  · rw [pieceInventory_span, inventory_text textless]
    rfl

theorem pieceInventory_held (held : Text) (pieces : List Piece) :
    pieceInventory pick (heldPiece held ++ pieces) = pieceInventory pick pieces := by
  rw [pieceInventory_append, heldPiece_inventory textless, List.nil_append]

/-! ### Emphasis -/

theorem inventory_consText (t : Text) (spans : List Inline) :
    inventory pick (consText t spans) = inventory pick spans := by
  have join (t : Text) (spans : List Inline) :
      inventory pick (.text t :: spans) = inventory pick spans := by
    rw [inventory_cons, inventory_text textless, List.nil_append]
  unfold consText
  split
  · rw [join, join]
  · exact join t _

theorem inventory_flatten (pieces : List Piece) :
    inventory pick (flatten pieces) = pieceInventory pick pieces := by
  fun_induction flatten pieces with
  | case1 => rfl
  | case2 run pieces _ ih => exact ih
  | case3 run pieces _ ih => rw [inventory_consText textless, ih, pieceInventory_run]
  | case4 t pieces ih =>
    rw [inventory_consText textless, ih, pieceInventory_span, inventory_text textless,
      List.nil_append]
  | case5 span pieces _ ih => rw [inventory_cons, ih, pieceInventory_span]

theorem inventory_emphasisSpan (mark : Char) (used : Nat) (children : List Inline) :
    inventory pick [emphasisSpan mark used children] = inventory pick children := by
  unfold emphasisSpan
  split
  · simp [inventory, spanFlow, Inline.flow, textless.strikethrough]
  · split
    · simp [inventory, spanFlow, Inline.flow, textless.strong]
    · simp [inventory, spanFlow, Inline.flow, textless.emphasis]

theorem inventory_pair (done rest : List Piece) :
    pieceInventory pick (pair done rest) = pieceInventory pick (done.reverse ++ rest) := by
  fun_induction pair done rest with
  | case1 done => rw [List.append_nil]
  | case2 done span rest ih => rw [ih, List.reverse_cons, List.append_assoc, List.singleton_append]
  | case3 done run rest _ _ ih | case5 done run rest _ ih =>
    rw [ih, List.reverse_cons, List.append_assoc, List.singleton_append]
  | case4 done run rest _ inner opener before found used span ih =>
    have parts := congrArg (pieceInventory pick) (findOpener_split found)
    simp only [List.append_nil, pieceInventory_append, pieceInventory_run] at parts
    rw [ih, pieceInventory_append, pieceInventory_append, parts, List.reverse_cons,
      List.reverse_cons, pieceInventory_append, pieceInventory_append, pieceInventory_run,
      pieceInventory_run, pieceInventory_run, pieceInventory_span,
      inventory_emphasisSpan textless, inventory_flatten textless]
    simp [pieceInventory]

theorem inventory_emphasize (pieces : List Piece) :
    inventory pick (emphasize pieces) = pieceInventory pick pieces := by
  rw [emphasize, inventory_flatten textless, inventory_pair textless, List.reverse_nil,
    List.nil_append]

/-! ### Abbreviations -/

theorem inventory_textSpan (t : Text) : inventory pick (textSpan t) = [] := by
  unfold textSpan
  split
  · rfl
  · exact inventory_text textless t

theorem inventory_markOccurrences
    (abbreviation : ∀ term expansion, pick (.abbreviation term expansion) = none) (t : Text)
    (pos : Nat) (found : List Occurrence) : inventory pick (markOccurrences t pos found) = [] := by
  induction found generalizing pos with
  | nil => exact inventory_textSpan textless _
  | cons o found ih =>
    rw [markOccurrences, inventory_append, inventory_textSpan textless, inventory_cons, ih]
    simp [inventory, spanFlow, Inline.flow, abbreviation]

omit textless

/-- Marking the terms does `f` to what is picked from links, and nothing to what is picked from the
spans that stay as they are. -/
structure Expands (pick : Inline → Option α) (terms : List (Text × Text)) (f : α → α) : Prop where
  abbreviation : ∀ term expansion, pick (.abbreviation term expansion) = none
  link : ∀ target children,
    pick (.link target (expandAbbreviations terms children)) = (pick (.link target children)).map f
  kept : ∀ span, span.expand terms = [span] → (pick span).map f = pick span

theorem inventory_singleton {span : Inline} (alone : span.flow = [span]) :
    inventory pick [span] = (pick span).toList := by
  rw [inventory, spanFlow, alone]
  cases found : pick span <;> simp [spanFlow, found]

section Expand

variable {terms : List (Text × Text)} {f : α → α}

mutual

theorem Inline.inventory_expand (textless : Textless pick) (expands : Expands pick terms f)
    (span : Inline) :
    inventory pick (span.expand terms) = (inventory pick [span]).map f := by
  have kept (same : span.expand terms = [span]) (alone : span.flow = [span]) :
      inventory pick (span.expand terms) = (inventory pick [span]).map f := by
    rw [same, inventory_singleton alone, ← Option.toList_map, expands.kept span same]
  cases span with
  | text t =>
    rw [inventory_text textless]
    exact inventory_markOccurrences textless expands.abbreviation _ _ _
  | emphasis children | strong children | strikethrough children =>
    have inner := inventory_expand_spans textless expands children
    simpa [Inline.expand, inventory, spanFlow, Inline.flow, textless.emphasis, textless.strong,
      textless.strikethrough] using inner
  | link target children =>
    have inner := inventory_expand_spans textless expands children
    simp only [inventory] at inner
    simp only [Inline.expand, inventory, spanFlow, Inline.flow, List.append_nil,
      List.filterMap_cons, expands.link, inner]
    cases pick (.link target children) <;> rfl
  | _ => exact kept rfl rfl

theorem inventory_expand_spans (textless : Textless pick) (expands : Expands pick terms f)
    (spans : List Inline) :
    inventory pick (expandAbbreviations terms spans) = (inventory pick spans).map f := by
  cases spans with
  | nil => rfl
  | cons span spans =>
    rw [expandAbbreviations, inventory_append, Inline.inventory_expand textless expands span,
      inventory_expand_spans textless expands spans, ← List.map_append, ← inventory_cons]

end

end Expand

theorem inventory_expandAbbreviations (lasting : Lasting pick) (terms : List (Text × Text))
    (spans : List Inline) :
    inventory pick (expandAbbreviations terms spans) = inventory pick spans := by
  have expands : Expands pick terms id :=
    ⟨lasting.abbreviation, fun _ _ => by rw [Option.map_id_fun, id, lasting.link],
      fun _ _ => by rw [Option.map_id_fun, id]⟩
  rw [inventory_expand_spans lasting.textless expands, List.map_id]

end Inventory

end CommentMarkup
