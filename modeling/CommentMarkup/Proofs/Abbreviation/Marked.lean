import CommentMarkup.Proofs.Definition.First
import CommentMarkup.Proofs.Inline.Fixed
import CommentMarkup.Proofs.Inline.Wording
import CommentMarkup.Proofs.Text.Octet

/-!
# Marked abbreviations

What the search for abbreviations finds are defined terms that stand as words of their own, one
behind the other. Marking them keeps the plain text of spans, and all spans but text:
`abbreviations_sound`.
-/

namespace CommentMarkup

open Text

/-- No letter or numeral stands directly before `start` or at `stop`. -/
def Text.isWord (t : Text) (start stop : Nat) : Bool :=
  isWordBoundary (t.take start).getLast? && isWordBoundary (t.drop stop).head?

/-! ### Searching -/

def occurrencesAt (terms : List (Text × Text)) (t : Text) (pos : Nat) : List Occurrence :=
  occurrencesFrom terms (t.take pos).getLast? pos (t.drop pos)

/-- A term that the text starts with at a position ends where its length says. -/
theorem prefix_parts {t term : Text} {pos : Nat} (starts : term.isPrefixOf (t.drop pos)) :
    t.drop pos = term ++ t.drop (pos + term.length) ∧
      t.take (pos + term.length) = t.take pos ++ term := by
  obtain ⟨rest, eq⟩ := List.isPrefixOf_iff_prefix.mp starts
  rw [List.take_add, ← List.drop_drop, ← eq]
  exact ⟨by rw [List.drop_left], by rw [List.take_left]⟩

/-- What holds at the end of the text, and at a position where the search goes on by a character or
marks the first term that stands there, holds of the whole search. -/
theorem occurrencesAt_induction {terms : List (Text × Text)} {t : Text}
    (filled : ∀ entry ∈ terms, entry.1 ≠ []) {motive : Nat → List Occurrence → Prop}
    (done : ∀ pos, t.length ≤ pos → motive pos [])
    (pass : ∀ pos found, pos < t.length →
      (∀ entry, termAt? terms (t.drop pos) = some entry →
        ¬ t.isWord pos (pos + entry.1.length)) →
      motive (pos + 1) found → motive pos found)
    (mark : ∀ pos entry found, pos < t.length → termAt? terms (t.drop pos) = some entry →
      t.isWord pos (pos + entry.1.length) → motive (pos + entry.1.length) found →
      motive pos (⟨pos, pos + entry.1.length, entry.2⟩ :: found))
    (pos : Nat) : motive pos (occurrencesAt terms t pos) := by
  induction left : t.length - pos using Nat.strongRecOn generalizing pos with
  | ind left ih =>
    rcases Nat.lt_or_ge pos t.length with inside | past
    · have first : t.drop pos = t[pos] :: t.drop (pos + 1) := List.drop_eq_getElem_cons inside
      have passed := ih (t.length - (pos + 1)) (by omega) (pos + 1) rfl
      rw [occurrencesAt, List.take_succ_eq_append_getElem inside, List.getLast?_concat] at passed
      rw [occurrencesAt, first, occurrencesFrom]
      split
      · rename_i none
        refine pass pos _ inside (fun entry found => ?_) passed
        rw [first, none] at found
        cases found
      · rename_i term expansion found
        rw [← first] at found ⊢
        have size : 0 < term.length :=
          List.length_pos_of_ne_nil (filled _ (termAt_some found).1)
        have word : (isWordBoundary (t.take pos).getLast? &&
            isWordBoundary ((t.drop pos).drop term.length).head?) =
              t.isWord pos (pos + term.length) := by
          rw [isWord, List.drop_drop]
        dsimp only
        rw [word]
        split
        · rename_i bounded
          have start := (prefix_parts (termAt_some found).2).2
          have marked := ih (t.length - (pos + term.length)) (by omega) (pos + term.length) rfl
          have rest : (t.drop (pos + 1)).drop (term.length - 1) = t.drop (pos + term.length) := by
            rw [List.drop_drop]
            congr 1
            omega
          rw [occurrencesAt, start, List.getLast?_append_of_ne_nil _ (List.ne_nil_of_length_pos size)]
            at marked
          rw [rest]
          exact mark pos (term, expansion) _ inside found bounded marked
        · rename_i unbounded
          refine pass pos _ inside (fun entry found' => ?_) passed
          rw [found] at found'
          cases found'
          exact unbounded
    · rw [occurrencesAt, List.drop_of_length_le past, occurrencesFrom]
      exact done pos past

/-! ### What is found -/

/-- The occurrence is a term of the table that stands in the text between `front` and `back`. Its
range is counted in octets. -/
structure Occurrence.Stands (table : List (Text × Text)) (t : Text) (o : Occurrence)
    (front term back : Text) : Prop where
  text : t = front ++ term ++ back
  range : o.octetRange t = (octets front, octets (front ++ term))
  filled : (o.octetRange t).1 < (o.octetRange t).2
  before : isWordBoundary front.getLast?
  after : isWordBoundary back.head?
  listed : table.lookup term = some o.expansion

theorem octets_take_le (t : Text) {i j : Nat} (le : i ≤ j) :
    octets (t.take i) ≤ octets (t.take j) := by
  obtain ⟨k, rfl⟩ := Nat.exists_eq_add_of_le le
  rw [List.take_add, octets_append]
  exact Nat.le_add_right _ _

theorem occurrencesAt_stands {terms : List (Text × Text)} (table : IsTermTable terms) (t : Text)
    (pos : Nat) :
    (∀ o ∈ occurrencesAt terms t pos,
      pos ≤ o.start ∧ ∃ front term back, o.Stands terms t front term back) ∧
    (occurrencesAt terms t pos).Pairwise fun a b => a.stop ≤ b.start := by
  refine occurrencesAt_induction table.filled
    (motive := fun pos found => (∀ o ∈ found,
      pos ≤ o.start ∧ ∃ front term back, o.Stands terms t front term back) ∧
      found.Pairwise fun a b => a.stop ≤ b.start) ?_ ?_ ?_ pos
  · intro pos _
    exact ⟨fun o none => (nomatch none), .nil⟩
  · intro pos found _ _ ⟨stand, apart⟩
    exact ⟨fun o member => ⟨(Nat.le_succ pos).trans (stand o member).1, (stand o member).2⟩, apart⟩
  · intro pos entry found _ first bounded ⟨stand, apart⟩
    obtain ⟨listed, starts⟩ := termAt_some first
    obtain ⟨rest, start⟩ := prefix_parts starts
    rw [isWord, Bool.and_eq_true] at bounded
    have range : Occurrence.octetRange t ⟨pos, pos + entry.1.length, entry.2⟩ =
        (octets (t.take pos), octets (t.take pos ++ entry.1)) := by
      rw [← start]
      rfl
    refine ⟨fun o member => ?_, .cons (fun o member => (stand o member).1) apart⟩
    rcases List.mem_cons.mp member with rfl | later
    · refine ⟨Nat.le_refl _, t.take pos, entry.1, t.drop (pos + entry.1.length), ?_, range, ?_,
        bounded.1, bounded.2, lookup_of_keyed table.keyed listed⟩
      · rw [List.append_assoc, ← rest, List.take_append_drop]
      · rw [range, octets_append]
        exact Nat.lt_add_of_pos_right (octets_pos (table.filled entry listed))
    · exact ⟨(Nat.le_add_right _ _).trans (stand o later).1, (stand o later).2⟩

/-! ### Plain text -/

theorem plainText_append (a b : List Inline) : plainText (a ++ b) = plainText a ++ plainText b := by
  induction a with
  | nil => rfl
  | cons span a ih => rw [List.cons_append, plainText, plainText, ih, List.append_assoc]

theorem plainText_singleton (span : Inline) : plainText [span] = span.plainText := by
  rw [plainText, plainText, List.append_nil]

theorem plainText_textSpan (t : Text) : plainText (textSpan t) = t := by
  unfold textSpan
  split
  · rename_i empty
    exact (List.isEmpty_iff.mp empty).symm
  · rw [plainText_singleton, Inline.plainText]

theorem plainText_markOccurrences {terms : List (Text × Text)} (t : Text) {pos : Nat}
    {found : List Occurrence} (successive : Successive terms pos found) :
    plainText (markOccurrences t pos found) = t.drop pos := by
  induction found generalizing pos with
  | nil => exact plainText_textSpan _
  | cons o found ih =>
    obtain ⟨start, stop, _, later⟩ := successive
    rw [markOccurrences, plainText_append, plainText_textSpan, plainText, Inline.plainText,
      ih later, take_drop_append t stop, take_drop_append t start]

mutual

theorem Inline.plainText_expand (terms : List (Text × Text)) (span : Inline) :
    CommentMarkup.plainText (span.expand terms) = span.plainText := by
  cases span with
  | text t =>
    exact plainText_markOccurrences t
      (occurrencesFrom_successive terms none (Nat.le_refl 0) t)
  | emphasis children | strong children | strikethrough children | link target children =>
    rw [Inline.expand, plainText_singleton, Inline.plainText, Inline.plainText,
      plainText_expandAbbreviations terms children]
  | _ => exact plainText_singleton _

theorem plainText_expandAbbreviations (terms : List (Text × Text)) (spans : List Inline) :
    plainText (expandAbbreviations terms spans) = plainText spans := by
  cases spans with
  | nil => rfl
  | cons span spans =>
    rw [expandAbbreviations, plainText_append, Inline.plainText_expand terms span,
      plainText_expandAbbreviations terms spans, plainText]

end

/-- What is found in a text are terms as words of their own, with the expansions of their first
definitions, in ranges of octets one behind the other. Marking them in spans keeps the plain text
and every span that is neither text nor encloses others. -/
theorem abbreviations_sound {blocks : List Block}
    (filled : ∀ entry ∈ definedTerms blocks, entry.1 ≠ []) :
    let terms := (References.collect blocks).1.abbreviations
    (∀ t, (∀ o ∈ occurrences terms t,
        ∃ front term back, o.Stands (definedTerms blocks) t front term back) ∧
      ((occurrences terms t).map (Occurrence.octetRange t)).Pairwise fun a b => a.2 ≤ b.1) ∧
    ∀ spans, plainText (expandAbbreviations terms spans) = plainText spans ∧
      fixed (expandAbbreviations terms spans) = fixed spans := by
  intro terms
  refine ⟨fun t => ?_, fun spans =>
    ⟨plainText_expandAbbreviations terms spans, fixed_expandAbbreviations terms spans⟩⟩
  obtain ⟨stand, apart⟩ := occurrencesAt_stands (collect_isTermTable filled) t 0
  refine ⟨fun o member => ?_, ?_⟩
  · obtain ⟨_, front, term, back, stands⟩ := stand o member
    exact ⟨front, term, back, { stands with listed := (lookup_collect_term blocks term) ▸ stands.listed }⟩
  · exact List.pairwise_map.mpr (apart.imp fun before => octets_take_le t before)

def overlappingTerms : List Block :=
  [.abbreviationDef "É".toList "one".toList, .abbreviationDef "É 5".toList "two".toList,
    .list false 1 true [⟨.plain, [.abbreviationDef "É".toList "three".toList,
      .abbreviationDef "C++".toList "four".toList]⟩]]

theorem abbreviations_sound_overlapping :
    let terms := (References.collect overlappingTerms).1.abbreviations
    let t := "É5 É, C++".toList
    (∀ entry ∈ definedTerms overlappingTerms, entry.1 ≠ []) ∧
    (occurrences terms t).map (fun o => (o.octetRange t, o.expansion)) =
      [((4, 6), "one".toList), ((8, 11), "four".toList)] ∧
    (∀ o ∈ occurrences terms t,
      ∃ front term back, o.Stands (definedTerms overlappingTerms) t front term back) ∧
    plainText (expandAbbreviations terms [.strong [.text t], .code "É".toList]) =
      "É5 É, C++É".toList := by
  have filled : ∀ entry ∈ definedTerms overlappingTerms, entry.1 ≠ [] := by decide
  have sound := abbreviations_sound filled
  have text : plainText [.strong [.text "É5 É, C++".toList], .code "É".toList] =
      "É5 É, C++É".toList := by decide
  exact ⟨filled, by cbv, (sound.1 _).1, (sound.2 _).1.trans text⟩

end CommentMarkup
