import CommentMarkup.Proofs.Footnote.Notes
import Mathlib.Logic.Relation

/-!
# Outcomes of brackets

All that reading makes of a bracket, a span or nothing, with what it does to the notes. What every
outcome keeps holds after any reading, and the fixed spans that reading comes to are lexemes, images
and footnote references: `readInline_isRead`.
-/

namespace CommentMarkup

/-- The span that a bracket may come to, if it makes one, and the notes after it. -/
inductive Outcome (scope : Scope) (notes : Notes) : Option Inline → Notes → Prop
  | text : Outcome scope notes none notes
  | unresolved (warning : Warning) : Outcome scope notes none (notes.warn warning)
  | link (image : Bool) (text : Text) (target : Target) :
      Outcome scope notes (some (linkSpan scope image text target)) notes
  | again (label : Text) (number : Nat) :
      Outcome scope notes (some (.footnoteRef label number false)) notes
  | defined (label : Text) {key : Text} {blocks : List Block}
      (listed : (key, blocks) ∈ scope.references.footnotes) :
      Outcome scope notes (some (.footnoteRef label notes.nextNumber true))
        { notes.register label (.defined blocks) with
          numbers := notes.numbers ++ [(key, notes.nextNumber)] }
  | inPlace (label text : Text) :
      Outcome scope notes (some (.footnoteRef label notes.nextNumber true))
        (notes.register label (.inPlace text))

/-- A fixed span that reading may come to. -/
inductive Inline.IsRead : Inline → Prop
  | lexeme {span : Inline} (lexeme : span.IsLexeme) : IsRead span
  | image (target : Target) (alt : Text) : IsRead (.image target alt)
  | footnoteRef (label : Text) (number : Nat) (first : Bool) :
      IsRead (.footnoteRef label number first)

def foundSpan (found : Option (Inline × Nat)) : Option Inline := found.map Prod.fst

section Read

variable (scope : Scope)

theorem footnoteRef_outcome (content : Text) (notes : Notes) :
    Outcome scope notes (footnoteRef? scope content notes).1
      (footnoteRef? scope content notes).2 := by
  unfold footnoteRef?
  dsimp only
  split
  · exact .again content _
  · split
    · rename_i found
      exact .defined content (mem_of_lookup found)
    · split
      · exact .unresolved _
      · exact .inPlace _ content

theorem readFootnote_outcome (t : Text) (notes : Notes) :
    Outcome scope notes (foundSpan (readFootnote scope t notes).1)
      (readFootnote scope t notes).2 := by
  unfold readFootnote
  dsimp only
  split
  · exact .text
  · rename_i n _
    split
    · exact .text
    · have outcome := footnoteRef_outcome scope (t.take n) notes
      generalize footnoteRef? scope (t.take n) notes = read at outcome ⊢
      obtain ⟨_ | _, _⟩ := read <;> exact outcome

theorem readLink_outcome (image : Bool) (t : Text) (notes : Notes) :
    Outcome scope notes (foundSpan (readLink scope image t notes).1)
      (readLink scope image t notes).2 := by
  unfold readLink
  dsimp only
  split
  · exact .text
  · split
    · exact .link image _ _
    · split
      · split
        · exact .link image _ _
        · exact .unresolved _
      · split
        · exact .link image _ _
        · exact .text

theorem foundSpan_afterLead (lead : Nat) (found : Option (Inline × Nat) × Notes) :
    foundSpan (afterLead lead found).1 = foundSpan found.1 := by
  obtain ⟨_ | _, _⟩ := found <;> rfl

theorem readBracket_outcome (t : Text) (notes : Notes) :
    Outcome scope notes (foundSpan (readBracket scope t notes).1)
      (readBracket scope t notes).2 := by
  unfold readBracket
  split
  · rw [foundSpan_afterLead]
    exact readLink_outcome scope true _ notes
  · rw [foundSpan_afterLead]
    exact readFootnote_outcome scope _ notes
  · rw [foundSpan_afterLead]
    exact readLink_outcome scope false _ notes
  · exact .text

abbrev Notes.Grows : Notes → Notes → Prop :=
  Relation.ReflTransGen fun before after => ∃ span, Outcome scope before span after

theorem readInline_grows (t : Text) (notes : Notes) :
    Notes.Grows scope notes (readInline scope t notes).2 :=
  scan_related (R := fun before _ _ after => Notes.Grows scope before after)
    (fun _ _ => .refl) (fun left right => left.trans right) (fun _ grows => grows)
    (fun _ _ _ => .refl) (fun t notes => .single ⟨_, readBracket_outcome scope t notes⟩)
    none none [] t notes

/-! ### Fixed spans -/

theorem linkSpan_isRead (image : Bool) (text : Text) (target : Target) :
    ∀ span ∈ fixed [linkSpan scope image text target], span.IsRead := by
  unfold linkSpan
  dsimp only
  split
  · intro span member
    rw [List.mem_singleton.mp member]
    exact .image _ _
  · rw [fixed_link]
    exact fun span member => .lexeme (readFlat_lexemes scope.mode text span member)

theorem Outcome.isRead {scope : Scope} {notes after : Notes} {made : Option Inline}
    (outcome : Outcome scope notes made after) : ∀ span ∈ fixed made.toList, span.IsRead := by
  intro span member
  cases outcome with
  | text | unresolved => cases member
  | link image text target => exact linkSpan_isRead scope image text target span member
  | again | defined | inPlace =>
    rw [List.mem_singleton.mp member]
    exact .footnoteRef _ _ _

theorem readBracket_isRead (t : Text) (notes : Notes) :
    ∀ span ∈ foundFixed (readBracket scope t notes).1, span.IsRead := by
  have whole (found : Option (Inline × Nat)) :
      foundFixed found = fixed (foundSpan found).toList := by
    cases found <;> rfl
  rw [whole]
  exact (readBracket_outcome scope t notes).isRead

theorem readInline_isRead (t : Text) (notes : Notes) :
    ∀ span ∈ fixed (readInline scope t notes).1, span.IsRead := by
  rw [readInline]
  dsimp only
  rw [fixed_expandAbbreviations, fixed_emphasize]
  refine scan_related (R := fun _ _ spans _ => ∀ span ∈ spans, span.IsRead) ?_ ?_
    (fun _ found => found) ?_ (readBracket_isRead scope) none none [] t notes
  · intro _ _ span member
    cases member
  · intro _ _ _ _ _ a b left right span member
    exact (List.mem_append.mp member).elim (left span) (right span)
  · intro _ span lexeme other member
    rw [lexeme.fixed other member]
    exact .lexeme lexeme

end Read

end CommentMarkup
