import CommentMarkup.Proofs.Block.Embedded
import CommentMarkup.Proofs.Block.Literal
import CommentMarkup.Proofs.Line.Escaped

/-!
# Tight and loose lists

Blank lines between two items of a list belong to the first of them up to the first empty one, and
are passed over from there on. `readDocument_spacedList` says that items with any such lines between
them are one list, and that an empty line between two items is what makes it loose.
-/

namespace CommentMarkup

open Text

/-- Letters and digits with spaces between them. -/
structure IsPhrase (t : Text) : Prop where
  plain : ∀ c ∈ t, c.isAlphanum ∨ c = ' '
  starts : t.startsWith Char.isAlphanum
  ends : t.endsWith Char.isAlphanum

/-- A further item of a list, with the blank lines between it and the item before. -/
structure SpacedItem where
  gap : List Text
  phrase : Text
  indents : ∀ l ∈ gap, ∀ c ∈ l, isIndent c
  isPhrase : IsPhrase phrase

def bulletLine (t : Text) : Text := '-' :: ' ' :: t

def spacedLines : List SpacedItem → List Text
  | [] => []
  | item :: others => item.gap ++ bulletLine item.phrase :: spacedLines others

/-- The number of blank lines that stay in the item before them: those before the first empty
one. -/
def keptLines (gap : List Text) : Nat := (gap.takeWhile fun l => !l.isEmpty).length

def spacedItems : Nat → Text → List SpacedItem → List RawItem
  | offset, first, [] => [⟨offset, .plain, [first]⟩]
  | offset, first, item :: others =>
    ⟨offset, .plain, first :: List.replicate (keptLines item.gap) [' ']⟩ ::
      spacedItems (offset + (item.gap.length + 1)) item.phrase others

def phraseItem (t : Text) : Item Block := ⟨.plain, [.paragraph (.unread t)]⟩

/-! ### Phrases -/

namespace IsPhrase

variable {t : Text} (phrase : IsPhrase t)

include phrase

theorem isFramed : isFramed t := by
  obtain ⟨c, u, eq, letter⟩ := startsWith_iff.mp phrase.starts
  obtain ⟨v, d, eq', letter'⟩ := endsWith_iff.mp phrase.ends
  rw [CommentMarkup.isFramed, Bool.and_eq_true, startsWith_iff, endsWith_iff]
  have first := not_isSpace_of_isAlphanum letter
  have last := not_isSpace_of_isAlphanum letter'
  exact ⟨⟨c, u, eq, by simpa using first⟩, ⟨v, d, eq', by simpa using last⟩⟩

theorem inked : t.startsWith fun c => !isSpace c := by
  have framed := phrase.isFramed
  rw [CommentMarkup.isFramed, Bool.and_eq_true] at framed
  exact framed.1

theorem escapeMarkup_eq : escapeMarkup t = t := by
  have each : ∀ c ∈ t, escapeMarkupChar c = [c] := by
    intro c member
    apply escapeMarkupChar_plain
    rcases phrase.plain c member with letter | rfl
    · simp [isPunctuation, letter]
    · decide
  rw [escapeMarkup, List.flatMap_congr each, List.flatMap_singleton']

theorem isTextLine : isTextLine Options.default.fence .item t := by
  apply isTextLine_item
  have text := isTextLine_escapeMarkup phrase.isFramed
  rwa [phrase.escapeMarkup_eq] at text

theorem notMem {c : Char} (unplain : ¬ (c.isAlphanum ∨ c = ' ')) : c ∉ t :=
  fun member => unplain (phrase.plain c member)

theorem isLine : IsLine t where
  whole := phrase.notMem (by decide)
  bare := endsWith_of_notMem (phrase.notMem (by decide))

theorem ne_nil : t ≠ [] := by
  rintro rfl
  exact absurd phrase.starts Bool.false_ne_true

theorem paragraph_eq : paragraph [t] = .paragraph (.unread t) := by
  have trimmed : t.trimStart.trimEnd = t := trim_framed phrase.isFramed
  rw [paragraph, paragraphText, List.map_singleton, unlines_singleton, trimmed]

theorem splitTask_eq : splitTask t = (.plain, t) := by
  obtain ⟨c, u, rfl, letter⟩ := startsWith_iff.mp phrase.starts
  have other : '[' ≠ c := by
    rintro rfl
    exact absurd letter (by decide)
  simp [splitTask, taskBoxes, afterTaskBox?, dropLead?, other]

theorem unruled : ¬ isRule (bulletLine t) := by
  obtain ⟨c, u, rfl, letter⟩ := startsWith_iff.mp phrase.starts
  have ink := not_isSpace_of_isAlphanum letter
  have other : c ≠ '-' := by
    rintro rfl
    exact absurd letter (by decide)
  simp [isRule, bulletLine, ink, other, show isSpace '-' = false by decide,
    show isSpace ' ' = true by decide]

end IsPhrase

theorem bulletLine_filled (t : Text) : ¬ isBlank (bulletLine t) := Bool.false_ne_true

/-! ### Between two items -/

section Gap

variable {gap ls : List Text} (indents : ∀ l ∈ gap, ∀ c ∈ l, isIndent c) (t : Text)

include indents

theorem isBlank_gap : ∀ l ∈ gap, l.isBlank := by
  intro l member
  rw [isBlank, List.all_eq_true]
  intro c inside
  exact isSpace_of_isIndent (indents l member c inside)

theorem resumesAfter_gap : resumesAfter 0 (gap ++ bulletLine t :: ls) = false := by
  have found : (gap ++ bulletLine t :: ls).find? (fun l => !l.isBlank) = some (bulletLine t) := by
    rw [List.find?_append, List.find?_eq_none.mpr (by simpa using isBlank_gap indents)]
    rfl
  rw [resumesAfter, found]
  rfl

/-- The item in front of the gap goes on up to the first empty line. -/
theorem itemLines_gap :
    itemLines 0 2 (gap ++ bulletLine t :: ls) = List.replicate (keptLines gap) [' '] := by
  induction gap with
  | nil => rfl
  | cons l gap ih =>
    rw [List.forall_mem_cons] at indents
    rw [List.cons_append, itemLines]
    by_cases empty : l.isEmpty
    · rw [if_pos empty, resumesAfter_gap indents.2, keptLines,
        List.takeWhile_cons_of_neg (by simpa using empty)]
      rfl
    · have blank : l.isBlank := isBlank_gap (List.forall_mem_cons.mpr indents) l List.mem_cons_self
      rw [if_neg empty, if_pos blank, ih indents.2, keptLines, keptLines,
        List.takeWhile_cons_of_pos (by simpa using empty)]
      rfl

theorem takeWhile_gap : (gap ++ bulletLine t :: ls).takeWhile isBlank = gap := by
  rw [List.takeWhile_append_of_pos (isBlank_gap indents),
    List.takeWhile_cons_of_neg (bulletLine_filled t), List.append_nil]

theorem afterGap_gap : afterGap (gap ++ bulletLine t :: ls) = bulletLine t :: ls := by
  rw [afterGap, takeWhile_gap indents, List.drop_left]

end Gap

/-- What the item leaves of the gap: the lines from the first empty one on. -/
def passedLines (gap : List Text) : List Text := gap.dropWhile fun l => !l.isEmpty

theorem keptLines_add (gap : List Text) :
    keptLines gap + (passedLines gap).length = gap.length := by
  rw [keptLines, passedLines, ← List.length_append, List.takeWhile_append_dropWhile]

theorem passedLines_eq_nil {gap : List Text} : passedLines gap = [] ↔ [] ∉ gap := by
  rw [passedLines, List.dropWhile_eq_nil_iff]
  constructor
  · intro filled empty
    exact absurd (filled [] empty) Bool.false_ne_true
  · intro none l member
    have filled : l ≠ [] := by
      rintro rfl
      exact none member
    simpa using filled

theorem drop_gap (gap ls : List Text) :
    (gap ++ ls).drop (keptLines gap) = passedLines gap ++ ls := by
  have short : keptLines gap ≤ gap.length := by
    have sum := keptLines_add gap
    omega
  rw [List.drop_append_of_le_length short, keptLines, drop_takeWhile_length, passedLines]

/-! ### The list -/

section List

variable {first t : Text} (phrase : IsPhrase first)

include phrase

theorem listMarker_phrase : listMarker? (bulletLine first) = some ⟨0, false, 1, 2, first⟩ :=
  listMarker_bullet (.inl rfl) phrase.inked

/-- An item takes the gap behind it, in one way or the other, and the list goes on at the next
item. Only a gap with an empty line is not all inside the item and makes the list loose. -/
theorem listRun_gap {gap ls : List Text} (indents : ∀ l ∈ gap, ∀ c ∈ l, isIndent c)
    (next : IsPhrase t) (offset : Nat) :
    listRun false offset (bulletLine first :: (gap ++ bulletLine t :: ls)) =
      let item : RawItem := ⟨offset, .plain, first :: List.replicate (keptLines gap) [' ']⟩
      let run := (listRun false (offset + (gap.length + 1)) (bulletLine t :: ls)).cons item
        (gap.length + 1)
      if [] ∈ gap then run.loose else run := by
  have left : (gap ++ bulletLine t :: ls).drop (List.replicate (keptLines gap) [' ']).length =
      passedLines gap ++ bulletLine t :: ls := by
    rw [List.length_replicate, drop_gap]
  have passed : ∀ l ∈ passedLines gap, ∀ c ∈ l, isIndent c := by
    intro l member
    exact indents l ((List.dropWhile_sublist _).mem member)
  have goesOn : startsItem false (bulletLine t :: ls) :=
    startsItem_cons.mpr ⟨_, listMarker_phrase next, rfl⟩
  have whole := keptLines_add gap
  rw [listRun_item (listMarker_phrase phrase) rfl phrase.splitTask_eq (itemLines_gap indents t)
      left, takeWhile_gap passed, afterGap_gap passed, if_pos goesOn, List.length_replicate]
  by_cases empty : [] ∈ gap
  · have some : (passedLines gap).length ≠ 0 := by
      rw [Ne, List.length_eq_zero_iff, passedLines_eq_nil]
      exact not_not_intro empty
    rw [if_neg some, if_pos empty, Nat.add_right_comm, whole]
  · have none : passedLines gap = [] := passedLines_eq_nil.mpr empty
    rw [none, List.length_nil, Nat.add_zero] at whole
    rw [none, List.length_nil, if_pos rfl, if_neg empty, List.nil_append, whole]

theorem listRun_spaced (others : List SpacedItem) (offset : Nat) :
    listRun false offset (bulletLine first :: spacedLines others) =
      ⟨spacedItems offset first others, decide (∀ item ∈ others, [] ∉ item.gap),
        (spacedLines others).length + 1⟩ := by
  induction others generalizing first offset with
  | nil =>
    rw [spacedLines, listRun_single (k := 0) (listMarker_phrase phrase) rfl phrase.splitTask_eq rfl
      rfl]
    rfl
  | cons item others ih =>
    rw [spacedLines, listRun_gap phrase item.indents item.isPhrase, ih item.isPhrase]
    dsimp only
    have size : item.gap.length + 1 + ((spacedLines others).length + 1) =
        (item.gap ++ bulletLine item.phrase :: spacedLines others).length + 1 := by
      rw [List.length_append, List.length_cons]
      omega
    by_cases empty : [] ∈ item.gap
    · rw [if_pos empty, ListRun.cons, ListRun.loose, size]
      simp [spacedItems, empty]
    · rw [if_neg empty, ListRun.cons, size]
      simp [spacedItems, empty]

end List

/-! ### Reading -/

/-- A line of text is a paragraph of its own in front of blank lines. -/
theorem readBlocks_line {fence l : Text} {ctx : Context} {n : Nat} {ls : List Text}
    (text : isTextLine fence ctx l) (blank : ∀ l ∈ ls, l.isBlank) :
    readBlocks fence ctx n (l :: ls) = .ok [paragraph [l]] := by
  have bare : ls.head?.bind underline? = none := by
    cases ls with
    | nil => rfl
    | cons m ls =>
      have trimmed : m.trim = [] := by
        rw [trim, trimStart_blank (blank m List.mem_cons_self)]
        rfl
      simp [underline?, trimmed]
  have alone : paragraphExtent fence ctx ls = 0 := by
    cases ls with
    | nil => rfl
    | cons m ls => simp [paragraphExtent, blank m List.mem_cons_self]
  exact readBlocks_textLine text bare alone (readBlocks_blanks blank)

section Items

variable {t : Text} (phrase : IsPhrase t)

include phrase

theorem lines_phrase (k : Nat) :
    lines (unlines (t :: List.replicate k [' '])) = t :: List.replicate k [' '] := by
  cases k with
  | zero =>
    rw [List.replicate_zero, unlines_singleton]
    exact lines_singleton phrase.isLine.whole phrase.ne_nil
  | succ k =>
    rw [List.replicate_succ', ← List.cons_append]
    apply lines_unlines_concat _ (List.cons_ne_nil _ _)
    intro l member
    rcases List.mem_append.mp member with inside | last
    · rcases List.mem_cons.mp inside with rfl | space
      · exact phrase.isLine
      · rw [List.eq_of_mem_replicate space]
        exact ⟨by decide, rfl⟩
    · rw [List.mem_singleton.mp last]
      exact ⟨by decide, rfl⟩

/-- An item holds its phrase, whatever spaces are left behind it. -/
theorem readItems_phrase {n offset k : Nat} {raws : List RawItem} {items : List (Item Block)}
    (others : readItems Options.default.fence n raws = .ok items) :
    readItems Options.default.fence n (⟨offset, .plain, t :: List.replicate k [' ']⟩ :: raws) =
      .ok (phraseItem t :: items) := by
  have blank : ∀ l ∈ List.replicate k [' '], isBlank l := by
    intro l member
    rw [List.eq_of_mem_replicate member]
    rfl
  rw [readItems, lines_phrase phrase, readBlocks_line phrase.isTextLine blank, phrase.paragraph_eq,
    others]
  rfl

theorem readItems_spacedItems (n offset : Nat) (others : List SpacedItem) :
    readItems Options.default.fence n (spacedItems offset t others) =
      .ok ((t :: others.map SpacedItem.phrase).map phraseItem) := by
  induction others generalizing t offset with
  | nil =>
    apply readItems_phrase (k := 0) phrase
    rw [readItems]
    rfl
  | cons item others ih =>
    exact readItems_phrase phrase (ih item.isPhrase _)

end Items

theorem isLine_bulletLine {t : Text} (phrase : IsPhrase t) : IsLine (bulletLine t) where
  whole := by simpa [bulletLine] using phrase.isLine.whole
  bare := by
    apply endsWith_of_notMem
    simpa [bulletLine] using phrase.notMem (by decide)

theorem isLine_indents {l : Text} (indents : ∀ c ∈ l, isIndent c) : IsLine l where
  whole feed := absurd (indents _ feed) (by decide)
  bare := endsWith_of_notMem fun carriage => absurd (indents _ carriage) (by decide)

theorem isLine_spacedLines (others : List SpacedItem) : ∀ l ∈ spacedLines others, IsLine l := by
  induction others with
  | nil => nofun
  | cons item others ih =>
    rw [spacedLines, List.forall_mem_append, List.forall_mem_cons]
    refine ⟨?_, isLine_bulletLine item.isPhrase, ih⟩
    exact fun l member => isLine_indents (item.indents l member)

/-- The lines end with an item. -/
theorem spacedLines_concat (first : Text) (others : List SpacedItem) :
    ∃ ls t, bulletLine first :: spacedLines others = ls ++ [bulletLine t] := by
  induction others generalizing first with
  | nil => exact ⟨[], first, rfl⟩
  | cons item others ih =>
    obtain ⟨ls, t, eq⟩ := ih item.phrase
    exact ⟨bulletLine first :: (item.gap ++ ls), t, by
      rw [spacedLines, eq, List.cons_append, List.append_assoc]⟩

theorem lines_spaced {first : Text} (phrase : IsPhrase first) (others : List SpacedItem) :
    lines (unlines (bulletLine first :: spacedLines others)) =
      bulletLine first :: spacedLines others := by
  have each : ∀ l ∈ bulletLine first :: spacedLines others, IsLine l :=
    List.forall_mem_cons.mpr ⟨isLine_bulletLine phrase, isLine_spacedLines others⟩
  obtain ⟨ls, t, eq⟩ := spacedLines_concat first others
  rw [eq] at each ⊢
  exact lines_unlines_concat each (List.cons_ne_nil _ _)

/-- Items with any blank lines between them are the items of one list, which is tight if none of
these lines is empty. -/
theorem readDocument_spacedList {first : Text} (phrase : IsPhrase first)
    (others : List SpacedItem) :
    readDocument Options.default.fence (unlines (bulletLine first :: spacedLines others)) =
      .ok [.list false 1 (decide (∀ item ∈ others, [] ∉ item.gap))
        ((first :: others.map SpacedItem.phrase).map phraseItem)] := by
  have step := blockAt_bullet (.inl rfl) .document (spacedLines others) phrase.inked phrase.unruled
  rw [show '-' :: ' ' :: first = bulletLine first from rfl, listRun_spaced phrase] at step
  rw [readDocument, lines_spaced phrase, readBlocks_list (bulletLine_filled first) step,
    readItems_spacedItems phrase, Nat.add_sub_cancel, List.drop_length, readBlocks_nil]
  rfl

/-- The line with a tab stays in the first item, and the empty line after it makes the list
loose. -/
theorem readDocument_spacedList_loose :
    readDocument Options.default.fence "- a\n\t\n\n- b 1\n- c".toList =
      .ok [.list false 1 false
        [phraseItem "a".toList, phraseItem "b 1".toList, phraseItem "c".toList]] := by
  have letter (c : Char) (alphanum : c.isAlphanum) : IsPhrase [c] :=
    ⟨by simpa using .inl alphanum, alphanum, alphanum⟩
  have spaced : IsPhrase ['b', ' ', '1'] := ⟨by simp [show 'b'.isAlphanum by rfl], rfl, rfl⟩
  have tabs : ∀ l ∈ [['\t'], []], ∀ c ∈ l, isIndent c := by simp [isIndent]
  let others : List SpacedItem :=
    [⟨[['\t'], []], ['b', ' ', '1'], tabs, spaced⟩, ⟨[], ['c'], by simp, letter 'c' rfl⟩]
  exact readDocument_spacedList (letter 'a' rfl) others

end CommentMarkup
