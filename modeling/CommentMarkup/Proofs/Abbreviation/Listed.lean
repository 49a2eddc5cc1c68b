import CommentMarkup.Proofs.Inline.Linked
import CommentMarkup.Proofs.Inline.Outcome
import CommentMarkup.Proofs.Inline.Wording

/-!
# Expansions from the table

Reading marks abbreviations with expansions that are defined, and makes no others:
`readInline_expansions`.
-/

namespace CommentMarkup

def Inline.expansion? : Inline → Option Text
  | .abbreviation _ expansion => some expansion
  | _ => none

theorem textless_expansion : Textless Inline.expansion? :=
  ⟨fun _ => rfl, fun _ => rfl, fun _ => rfl, fun _ => rfl⟩

theorem Inline.IsLexeme.expansions {span : Inline} (lexeme : span.IsLexeme) :
    inventory Inline.expansion? [span] = [] := by
  cases lexeme <;> rfl

theorem Outcome.expansions {scope : Scope} {notes after : Notes} {span : Inline}
    (outcome : Outcome scope notes (some span) after) : inventory Inline.expansion? [span] = [] := by
  cases outcome with
  | link image label target =>
    cases image with
    | true => rfl
    | false =>
      exact linkSpan_picked textless_expansion (fun _ lexeme => lexeme.expansions) scope label target
  | again | defined | inPlace => rfl

/-- Before terms are marked there are no abbreviations. -/
theorem emphasize_expansions (scope : Scope) (t : Text) (notes : Notes) :
    inventory Inline.expansion?
      (emphasize (scan scope.mode (readBracket scope) none none [] t notes).1) = [] := by
  rw [inventory_emphasize textless_expansion, List.eq_nil_iff_forall_not_mem]
  intro expansion member
  obtain ⟨place, before, made, n, _, found, inside⟩ :=
    scan_picked textless_expansion (fun _ lexeme => lexeme.expansions) none none [] t notes member
  have outcome := readBracket_outcome scope place before
  rw [found] at outcome
  rw [outcome.expansions] at inside
  cases inside

section Terms

variable {terms : List (Text × Text)}

theorem markOccurrences_listed (t : Text) {pos : Nat} {found : List Occurrence}
    (successive : Successive terms pos found) :
    ∀ expansion ∈ inventory Inline.expansion? (markOccurrences t pos found),
      ∃ term, (term, expansion) ∈ terms := by
  induction found generalizing pos with
  | nil =>
    rw [markOccurrences, inventory_textSpan textless_expansion]
    exact List.forall_mem_nil _
  | cons o found ih =>
    obtain ⟨_, _, listed, later⟩ := successive
    rw [markOccurrences, inventory_append, inventory_textSpan textless_expansion, inventory_cons,
      List.nil_append]
    exact List.forall_mem_cons.mpr ⟨listed, ih later⟩

mutual

theorem Inline.expand_listed (span : Inline) :
    ∀ expansion ∈ inventory Inline.expansion? (span.expand terms),
      expansion ∈ inventory Inline.expansion? [span] ∨ ∃ term, (term, expansion) ∈ terms := by
  cases span with
  | text t =>
    intro expansion member
    exact .inr (markOccurrences_listed t (occurrencesFrom_successive terms none (Nat.le_refl 0) t)
      expansion member)
  | emphasis children | strong children | strikethrough children | link target children =>
    have inner := expandAbbreviations_listed children
    simpa [Inline.expand, inventory, spanFlow, Inline.flow, Inline.expansion?] using inner
  | _ => exact fun expansion member => .inl member

theorem expandAbbreviations_listed (spans : List Inline) :
    ∀ expansion ∈ inventory Inline.expansion? (expandAbbreviations terms spans),
      expansion ∈ inventory Inline.expansion? spans ∨ ∃ term, (term, expansion) ∈ terms := by
  cases spans with
  | nil => exact List.forall_mem_nil _
  | cons span spans =>
    rw [expandAbbreviations, inventory_append, inventory_cons]
    intro expansion member
    rw [List.mem_append]
    rcases List.mem_append.mp member with here | later
    · exact (Inline.expand_listed span expansion here).imp_left .inl
    · exact (expandAbbreviations_listed spans expansion later).imp_left .inr

end

end Terms

/-- The expansion of every abbreviation that reading makes is in the table. -/
theorem readInline_expansions (scope : Scope) (t : Text) (notes : Notes) {term expansion : Text}
    (member : .abbreviation term expansion ∈ spanFlow (readInline scope t notes).1) :
    ∃ term, (term, expansion) ∈ scope.references.abbreviations := by
  have picked : expansion ∈ inventory Inline.expansion? (readInline scope t notes).1 :=
    List.mem_filterMap.mpr ⟨_, member, rfl⟩
  refine (expandAbbreviations_listed _ expansion picked).resolve_left ?_
  rw [emphasize_expansions]
  exact List.not_mem_nil

end CommentMarkup
