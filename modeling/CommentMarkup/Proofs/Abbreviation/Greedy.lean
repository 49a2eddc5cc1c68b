import CommentMarkup.Proofs.Abbreviation.Marked

/-!
# Longest words

The search for abbreviations against the rule that it follows: from left to right, mark the longest
term that stands as a word of its own. It tries one term at a position, the longest one that the
text goes on with, so that it misses a word which a longer term hides. Otherwise it keeps the rule:
`occurrences_greedy_iff`.
-/

namespace CommentMarkup

def wordsAt (terms : List (Text × Text)) (t : Text) (pos : Nat) : List (Text × Text) :=
  terms.filter fun entry =>
    entry.1.isPrefixOf (t.drop pos) && t.isWord pos (pos + entry.1.length)

def longestWord? (terms : List (Text × Text)) (t : Text) (pos : Nat) : Option (Text × Text) :=
  (wordsAt terms t pos).argmax fun entry => entry.1.length

/-- The longest words from position `pos` of the text on, none of them inside another. -/
def greedyAt (terms : List (Text × Text)) (t : Text) (pos : Nat) : List Occurrence :=
  if pos < t.length then
    match longestWord? terms t pos with
    | none => greedyAt terms t (pos + 1)
    | some (term, expansion) =>
      ⟨pos, pos + term.length, expansion⟩ :: greedyAt terms t (pos + max 1 term.length)
  else []
termination_by t.length - pos

def greedyOccurrences (terms : List (Text × Text)) (t : Text) : List Occurrence :=
  greedyAt terms t 0

/-- If any term stands at the position as a word, then one that is as long as all terms there. -/
def WordsReach (terms : List (Text × Text)) (t : Text) (pos : Nat) : Prop :=
  ∀ short ∈ wordsAt terms t pos, ∃ long ∈ wordsAt terms t pos,
    ∀ other ∈ terms, other.1.isPrefixOf (t.drop pos) → other.1.length ≤ long.1.length

theorem mem_wordsAt {terms : List (Text × Text)} {t : Text} {pos : Nat} {entry : Text × Text} :
    entry ∈ wordsAt terms t pos ↔
      entry ∈ terms ∧ entry.1.isPrefixOf (t.drop pos) ∧ t.isWord pos (pos + entry.1.length) := by
  rw [wordsAt, List.mem_filter, Bool.and_eq_true]

section Greedy

variable {terms : List (Text × Text)} {t : Text} {pos : Nat}

/-! ### The rule -/

theorem greedyAt_past (past : t.length ≤ pos) : greedyAt terms t pos = [] := by
  rw [greedyAt, if_neg (Nat.not_lt.mpr past)]

theorem greedyAt_none (inside : pos < t.length) (none : longestWord? terms t pos = none) :
    greedyAt terms t pos = greedyAt terms t (pos + 1) := by
  rw [greedyAt, if_pos inside, none]

theorem greedyAt_some (filled : ∀ entry ∈ terms, entry.1 ≠ []) {entry : Text × Text}
    (inside : pos < t.length) (some : longestWord? terms t pos = some entry) :
    greedyAt terms t pos =
      ⟨pos, pos + entry.1.length, entry.2⟩ :: greedyAt terms t (pos + entry.1.length) := by
  have word := mem_wordsAt.mp (List.argmax_mem some)
  rw [greedyAt, if_pos inside, some]
  dsimp only
  rw [max_eq_right (List.length_pos_of_ne_nil (filled entry word.1))]

theorem greedyAt_start : ∀ o ∈ greedyAt terms t pos, pos ≤ o.start := by
  intro o member
  fun_induction greedyAt terms t pos with
  | case1 pos _ _ ih => exact (Nat.le_succ pos).trans (ih member)
  | case2 pos _ term expansion _ ih =>
    rcases List.mem_cons.mp member with rfl | later
    · exact Nat.le_refl _
    · exact (Nat.le_add_right _ _).trans (ih later)
  | case3 => cases member

/-! ### The first term at a position -/

section First

variable (table : IsTermTable terms) {entry : Text × Text}

include table

theorem longestWord_of_first (first : termAt? terms (t.drop pos) = some entry)
    (word : t.isWord pos (pos + entry.1.length)) : longestWord? terms t pos = some entry := by
  obtain ⟨listed, starts⟩ := termAt_some first
  have here : entry ∈ wordsAt terms t pos := mem_wordsAt.mpr ⟨listed, starts, word⟩
  cases found : longestWord? terms t pos with
  | none =>
    rw [longestWord?, List.argmax_eq_none] at found
    rw [found] at here
    cases here
  | some other =>
    obtain ⟨listed', starts', _⟩ := mem_wordsAt.mp (List.argmax_mem found)
    have least : entry.1.length ≤ other.1.length :=
      List.le_of_mem_argmax (f := fun word : Text × Text => word.1.length) here found
    have most := longest_of_sorted table.sorted first listed' starts'
    have same := eq_of_prefixes starts' starts (Nat.le_antisymm most least)
    rw [List.inj_on_of_nodup_map table.keyed listed' listed same]

theorem wordsReach_of_first (first : termAt? terms (t.drop pos) = some entry)
    (word : t.isWord pos (pos + entry.1.length)) : WordsReach terms t pos := by
  obtain ⟨listed, starts⟩ := termAt_some first
  exact fun _ _ => ⟨entry, mem_wordsAt.mpr ⟨listed, starts, word⟩,
    fun _ listed' starts' => longest_of_sorted table.sorted first listed' starts'⟩

/-- A term that is no word hides all words at its position. -/
theorem wordsAt_of_hidden (hidden : ∀ entry, termAt? terms (t.drop pos) = some entry →
      ¬ t.isWord pos (pos + entry.1.length)) (reach : WordsReach terms t pos) :
    wordsAt terms t pos = [] := by
  rw [List.eq_nil_iff_forall_not_mem]
  intro short member
  obtain ⟨long, word, above⟩ := reach short member
  obtain ⟨listed, starts, bounded⟩ := mem_wordsAt.mp word
  cases first : termAt? terms (t.drop pos) with
  | none =>
    rw [termAt?, List.find?_eq_none] at first
    exact first long listed starts
  | some entry =>
    obtain ⟨listed', starts'⟩ := termAt_some first
    have most := longest_of_sorted table.sorted first listed starts
    have same := Nat.le_antisymm (above entry listed' starts') most
    exact hidden entry first (same ▸ bounded)

end First

/-! ### The search -/

def Outside (found : List Occurrence) (pos : Nat) : Prop :=
  ∀ o ∈ found, ¬ (o.start < pos ∧ pos < o.stop)

theorem occurrencesAt_greedy (table : IsTermTable terms) (t : Text) (pos : Nat) :
    (∀ o ∈ occurrencesAt terms t pos, pos ≤ o.start) ∧
    (occurrencesAt terms t pos = greedyAt terms t pos ↔
      ∀ p, pos ≤ p → p < t.length → Outside (greedyAt terms t pos) p → WordsReach terms t p) := by
  refine occurrencesAt_induction table.filled
    (motive := fun pos found => (∀ o ∈ found, pos ≤ o.start) ∧
      (found = greedyAt terms t pos ↔
        ∀ p, pos ≤ p → p < t.length → Outside (greedyAt terms t pos) p → WordsReach terms t p))
    ?_ ?_ ?_ pos
  · intro pos past
    refine ⟨fun o none => (nomatch none), ?_⟩
    rw [greedyAt_past past]
    exact ⟨fun _ p low high => by omega, fun _ => rfl⟩
  · intro pos found inside hidden ⟨later, ih⟩
    refine ⟨fun o member => (Nat.le_succ pos).trans (later o member), ?_⟩
    cases longest : longestWord? terms t pos with
    | none =>
      have none : wordsAt terms t pos = [] := List.argmax_eq_none.mp longest
      rw [greedyAt_none inside longest, ih]
      constructor
      · intro reach p low high outside
        rcases Nat.eq_or_lt_of_le low with rfl | low
        · intro short member
          rw [none] at member
          cases member
        · exact reach p low high outside
      · exact fun reach p low high outside => reach p (Nat.le_of_succ_le low) high outside
    | some entry =>
      -- the rule marks a word here, which the search has passed over
      have marked := greedyAt_some table.filled inside longest
      refine iff_of_false (fun same => ?_) fun reach => ?_
      · rw [marked] at same
        have start := later _ (same ▸ List.mem_cons_self)
        exact absurd start (Nat.not_succ_le_self pos)
      · have outside : Outside (greedyAt terms t pos) pos :=
          fun o member inner => absurd (greedyAt_start o member) (Nat.not_le.mpr inner.1)
        have none := wordsAt_of_hidden table hidden (reach pos (Nat.le_refl pos) inside outside)
        have member := List.argmax_mem longest
        rw [none] at member
        cases member
  · intro pos entry found inside first word ⟨later, ih⟩
    have size := List.length_pos_of_ne_nil (table.filled entry (termAt_some first).1)
    refine ⟨fun o member => ?_, ?_⟩
    · rcases List.mem_cons.mp member with rfl | tail
      · exact Nat.le_refl _
      · exact (Nat.le_add_right _ _).trans (later o tail)
    · rw [greedyAt_some table.filled inside (longestWord_of_first table first word),
        List.cons_inj_right, ih]
      constructor
      · intro reach p low high outside
        have apart := outside _ List.mem_cons_self
        dsimp only at apart
        rcases Nat.eq_or_lt_of_le low with rfl | above
        · exact wordsReach_of_first table first word
        · exact reach p (by omega) high fun o member => outside o (List.mem_cons_of_mem _ member)
      · intro reach p low high outside
        refine reach p (Nat.le_of_add_right_le low) high fun o member => ?_
        rcases List.mem_cons.mp member with rfl | tail
        · exact fun inner => absurd low (Nat.not_le.mpr inner.2)
        · exact outside o tail

end Greedy

/-- The search finds what the rule marks exactly when no word is hidden: wherever a term stands as a
word outside the marked ones, one that is as long as all terms there stands as a word. -/
theorem occurrences_greedy_iff {blocks : List Block}
    (filled : ∀ entry ∈ definedTerms blocks, entry.1 ≠ []) (t : Text) :
    let terms := (References.collect blocks).1.abbreviations
    occurrences terms t = greedyOccurrences terms t ↔
      ∀ pos < t.length, Outside (greedyOccurrences terms t) pos → WordsReach terms t pos := by
  intro terms
  have search := (occurrencesAt_greedy (collect_isTermTable filled) t 0).2
  exact search.trans ⟨fun reach p => reach p (Nat.zero_le p), fun reach p _ => reach p⟩

def hidingTerms : List Block :=
  [.abbreviationDef "W3".toList "short".toList, .abbreviationDef "W3 C".toList "long".toList]

theorem occurrences_greedy_standing :
    let terms := (References.collect hidingTerms).1.abbreviations
    let t := "W3, W3 C, W30".toList
    (∀ entry ∈ definedTerms hidingTerms, entry.1 ≠ []) ∧
    greedyOccurrences terms t = [⟨0, 2, "short".toList⟩, ⟨4, 8, "long".toList⟩] ∧
    ∀ pos < t.length, Outside (greedyOccurrences terms t) pos → WordsReach terms t pos := by
  have filled : ∀ entry ∈ definedTerms hidingTerms, entry.1 ≠ [] := by decide
  exact ⟨filled, by cbv, (occurrences_greedy_iff filled _).mp (by cbv)⟩

/-- The short term is a word of the text, and the long one that hides it is none. -/
theorem hidden_word_missed :
    let terms := (References.collect hidingTerms).1.abbreviations
    let t := "W3 Co".toList
    greedyOccurrences terms t = [⟨0, 2, "short".toList⟩] ∧ occurrences terms t = [] :=
  ⟨by cbv, by cbv⟩

end CommentMarkup
