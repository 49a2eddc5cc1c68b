import CommentMarkup.Proofs.Footnote.Paid
import CommentMarkup.Proofs.Footnote.Sequence
import CommentMarkup.Proofs.Inline.Mentions
import CommentMarkup.Proofs.Inline.Scanned

/-!
# Footnotes gathered by reading

What reading a text adds to the notes. Its mentions continue the numbering of the footnotes, and the
new footnotes are paid for by the openings of the text and by the definitions that they use up.
-/

namespace CommentMarkup

/-! ### What reading gathers -/

def Notes.Known (notes : Notes) : Prop :=
  ∀ entry ∈ notes.numbers, 0 < entry.2 ∧ entry.2 ≤ notes.footnotes.length

/-- The footnotes that a source can bring: its own, and one for each opening in its body. -/
def FootnoteSource.worth (source : FootnoteSource) : Nat := source.openingCount + 1

def PendingFootnote.worth (pending : PendingFootnote) : Nat := pending.source.worth

def unmet (references : References) (notes : Notes) : Nat :=
  sumOver (fun entry => (FootnoteSource.defined entry.2).worth)
    (references.footnotes.filter fun entry => (notes.numbers.lookup entry.1).isNone)

/-- Reading a text with so many openings mentions `ms`. New footnotes are worth no more than these
openings and the definitions that are used up. -/
structure Gathers (references : References) (before : Notes) (openings : Nat) (ms : List Mention)
    (after : Notes) : Prop where
  known : before.Known → after.Known
  continues : before.Known → Continues before.footnotes.length ms after.footnotes.length
  paid : ∃ added, after.footnotes = before.footnotes ++ added ∧
    sumOver PendingFootnote.worth added + unmet references after ≤
      unmet references before + openings

namespace Gathers

variable {references : References}

theorem idle (notes : Notes) (openings : Nat) : Gathers references notes openings [] notes where
  known := id
  continues _ := .done _
  paid := Paid.idle notes openings

theorem warn (notes : Notes) (warning : Warning) (openings : Nat) :
    Gathers references notes openings [] (notes.warn warning) where
  known := id
  continues _ := .done _
  paid := Paid.warn notes warning openings

theorem compose {first second third : Notes} {m n : Nat} {a b : List Mention}
    (left : Gathers references first m a second) (right : Gathers references second n b third) :
    Gathers references first (m + n) (a ++ b) third where
  known known := right.known (left.known known)
  continues known := (left.continues known).append (right.continues (left.known known))
  paid := Paid.compose left.paid right.paid

theorem weaken {before after : Notes} {m n : Nat} {ms : List Mention} (le : m ≤ n)
    (h : Gathers references before m ms after) : Gathers references before n ms after where
  known := h.known
  continues := h.continues
  paid := Paid.weaken le h.paid

end Gathers

/-! ### Footnote references -/

section References

variable (scope : Scope)

/-- A bracket that refers to a footnote is worth its content and its own opening. -/
theorem footnoteRef_gathers (content : Text) (notes : Notes) :
    Gathers scope.references notes
      ((footnoteRef? scope content notes).1.elim 0 fun _ => openingCount content + 1)
      (mentions (footnoteRef? scope content notes).1.toList)
      (footnoteRef? scope content notes).2 := by
  have grows (known : notes.Known) (pending : PendingFootnote) :
      ∀ entry ∈ notes.numbers, 0 < entry.2 ∧ entry.2 ≤ (notes.footnotes ++ [pending]).length := by
    intro entry member
    have bound := known entry member
    rw [List.length_append]
    exact ⟨bound.1, by omega⟩
  have next (label : Text) (pending : PendingFootnote) : Continues notes.footnotes.length
      (mentions [.footnoteRef label notes.nextNumber true])
      (notes.footnotes ++ [pending]).length := by
    rw [List.length_append]
    exact .first (.done _)
  have paid := footnoteRef_paid FootnoteSource.worth scope content notes
  unfold footnoteRef? at paid ⊢
  dsimp only at paid ⊢
  split
  · rename_i number found
    refine ⟨id, fun known => ?_, Paid.idle notes _⟩
    have bound := known _ (mem_of_lookup found)
    exact .again bound.1 bound.2 (.done _)
  · rename_i fresh
    simp only [fresh] at paid
    split
    · rename_i blocks found
      simp only [found] at paid
      refine ⟨?_, fun _ => next _ _, paid⟩
      intro known entry member
      rcases List.mem_append.mp member with old | new
      · exact grows known _ entry old
      · rw [List.mem_singleton.mp new]
        simp [Notes.nextNumber, Notes.register]
    · rename_i undefined
      simp only [undefined] at paid
      split
      · exact .warn notes _ _
      · rename_i body
        rw [if_neg body] at paid
        exact ⟨fun known => grows known _, fun _ => next _ _, paid⟩

theorem Inline.IsLexeme.mention {span : Inline} (lexeme : span.IsLexeme) :
    span.mention? = none := by
  cases lexeme <;> rfl

theorem Inline.IsLexeme.mentions {span : Inline} (lexeme : span.IsLexeme) : span.mentions = [] := by
  cases lexeme <;> rfl

def foundMentions : Option (Inline × Nat) → List Mention
  | none => []
  | some (span, _) => span.mentions

theorem foundMentions_fixed (found : Option (Inline × Nat)) :
    (foundFixed found).filterMap Inline.mention? = foundMentions found := by
  cases found with
  | none => rfl
  | some found => exact (Inline.mentions_fixed found.1).symm

theorem readFlat_mentions (mode : EmphasisMode) (t : Text) : mentions (readFlat mode t) = [] := by
  rw [mentions_fixed, List.filterMap_eq_nil_iff]
  exact fun span member => (readFlat_lexemes mode t span member).mention

theorem readFootnote_gathers (t : Text) (notes : Notes) :
    Gathers scope.references notes
      ((readFootnote scope t notes).1.elim 0 fun (_, n) => openingCount (t.take n) + 1)
      (foundMentions (readFootnote scope t notes).1) (readFootnote scope t notes).2 := by
  unfold readFootnote
  dsimp only
  split
  · exact .idle notes _
  · rename_i n _
    split
    · exact .idle notes _
    · have gathers := footnoteRef_gathers scope (t.take n) notes
      have inner : openingCount (t.take n) ≤ openingCount (t.take (n + 1)) :=
        openingCount_measure.le_of_infix (List.take_prefix_take_left (by omega)).isInfix
      generalize footnoteRef? scope (t.take n) notes = read at gathers ⊢
      obtain ⟨_ | span, after⟩ := read
      · exact gathers
      · refine Gathers.weaken (Nat.add_le_add_right inner 1) ?_
        simpa [foundMentions] using gathers

/-- Links mention no footnote: brackets mean nothing in their texts. -/
theorem readLink_gathers (image : Bool) (t : Text) (notes : Notes) (openings : Nat) :
    Gathers scope.references notes openings (foundMentions (readLink scope image t notes).1)
      (readLink scope image t notes).2 := by
  have flat (text : Text) (target : Target) :
      (linkSpan scope image text target).mentions = [] := by
    unfold linkSpan
    dsimp only
    split
    · rfl
    · exact readFlat_mentions scope.mode text
  unfold readLink
  dsimp only
  split
  · exact .idle notes _
  · split
    · simpa only [foundMentions, flat] using .idle notes _
    · split
      · split
        · simpa only [foundMentions, flat] using .idle notes _
        · exact .warn notes _ _
      · split
        · simpa only [foundMentions, flat] using .idle notes _
        · exact .idle notes _

theorem foundMentions_afterLead (lead : Nat) (found : Option (Inline × Nat) × Notes) :
    foundMentions (afterLead lead found).1 = foundMentions found.1 := by
  obtain ⟨_ | _, _⟩ := found <;> rfl

theorem readBracket_gathers (t : Text) (notes : Notes) :
    Gathers scope.references notes
      (openingCount (t.take (foundLength (readBracket scope t notes).1)))
      (foundMentions (readBracket scope t notes).1) (readBracket scope t notes).2 := by
  unfold readBracket
  split
  · rw [foundMentions_afterLead]
    exact readLink_gathers scope true _ notes _
  · rename_i cs
    rw [foundMentions_afterLead]
    refine Gathers.weaken ?_ (readFootnote_gathers scope cs notes)
    obtain ⟨_ | ⟨span, n⟩, after⟩ := readFootnote scope cs notes
    · exact Nat.zero_le _
    · rw [show foundLength (afterLead 2 (some (span, n), after)).1 = n + 2 from Nat.add_comm 2 n]
      exact Nat.le_refl _
  · rw [foundMentions_afterLead]
    exact readLink_gathers scope false _ notes _
  · exact .idle notes _

/-- Reading a text gathers no more footnotes than it and the definitions have room for. -/
theorem readInline_gathers (t : Text) (notes : Notes) :
    Gathers scope.references notes (openingCount t) (mentions (readInline scope t notes).1)
      (readInline scope t notes).2 := by
  rw [readInline]
  dsimp only
  rw [mentions_fixed, fixed_expandAbbreviations, fixed_emphasize]
  refine scan_related (R := fun notes openings spans => Gathers scope.references notes openings
    (spans.filterMap Inline.mention?)) .idle ?_ .weaken ?_ ?_ none none [] t notes
  · intro _ _ _ _ _ a b left right
    rw [List.filterMap_append]
    exact left.compose right
  · intro notes span lexeme
    rw [← Inline.mentions_fixed, lexeme.mentions]
    exact .idle notes 0
  · intro t notes
    rw [foundMentions_fixed]
    exact readBracket_gathers scope t notes

end References

end CommentMarkup
