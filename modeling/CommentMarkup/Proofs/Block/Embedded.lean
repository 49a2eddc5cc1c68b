import CommentMarkup.Proofs.Block.Local
import CommentMarkup.Proofs.Text.Indent
import CommentMarkup.Proofs.Text.Trim
import Mathlib

/-!
# Texts in list items

A text indented behind a list marker is read as the text itself is read on its own, with one list
around it. Empty lines at the end are left out of the item, and the first section shows that they do
not matter.
-/

namespace CommentMarkup

open Text

/-! ### Empty lines at the end -/

theorem startsFresh_nil : StartsFresh [] := nofun

theorem isClosingFence_nil {fence l : Text} {info : Option Text}
    (opens : openFence? fence l = some info) : isClosingFence fence [] = false := by
  cases fence with
  | nil => cases opens
  | cons => rfl

theorem fencedAt_concat_nil (fence l : Text) (ls : List Text) :
    fencedAt fence l (ls ++ [[]]) = fencedAt fence l ls := by
  cases opens : openFence? fence l with
  | none => rw [fencedAt, fencedAt, opens, Option.map_none, Option.map_none]
  | some info =>
    cases closes : ls.findIdx? (isClosingFence fence) with
    | none =>
      have unclosed : (ls ++ [[]]).findIdx? (isClosingFence fence) = none := by
        rw [List.findIdx?_append, closes, List.findIdx?_singleton, isClosingFence_nil opens]
        rfl
      rw [fencedAt, fencedAt, opens, Option.map_some, Option.map_some, closes, unclosed]
    | some n =>
      apply fencedAt_agree
      intro step found
      rw [fencedAt, opens, Option.map_some, closes] at found
      cases found
      exact fun opened => absurd opened Bool.false_ne_true

theorem rawExtent_concat_nil {tag : Text} {depth : Int} {ls : List Text}
    (unclosed : rawExtent? tag depth ls = none) (deep : 0 < depth ∨ ls ≠ []) :
    rawExtent? tag depth (ls ++ [[]]) = none := by
  induction ls generalizing depth with
  | nil =>
    have inside : ¬ depth ≤ 0 := by simpa using deep
    simp [rawExtent?, depthChange, toLower, inside]
  | cons l ls ih =>
    rw [rawExtent?] at unclosed
    rw [List.cons_append, rawExtent?]
    split at unclosed
    · cases unclosed
    · rename_i inside
      rw [if_neg inside, ih (Option.map_eq_none_iff.mp unclosed) (.inl (by omega)),
        Option.map_none]

theorem rawAt_concat_nil (l : Text) (ls : List Text) : rawAt l (ls ++ [[]]) = rawAt l ls := by
  cases opens : rawTag? l with
  | none => rw [rawAt, rawAt, opens, Option.map_none, Option.map_none]
  | some tag =>
    cases closes : rawExtent? tag 0 (l :: ls) with
    | none =>
      have unclosed := rawExtent_concat_nil closes (.inr (List.cons_ne_nil l ls))
      rw [List.cons_append] at unclosed
      rw [rawAt, rawAt, opens, Option.map_some, Option.map_some, closes, unclosed]
    | some n =>
      apply rawAt_agree
      intro step found
      rw [rawAt, opens, Option.map_some, closes] at found
      cases found
      exact fun opened => absurd opened Bool.false_ne_true

theorem blockAt_concat_nil (fence : Text) (ctx : Context) (l : Text) (ls : List Text) :
    blockAt fence ctx l (ls ++ [[]]) = blockAt fence ctx l ls := by
  have indented : indentedAt ctx l (ls ++ [[]]) = indentedAt ctx l ls := by
    apply indentedAt_agree
    intro step found
    unfold indentedAt at found
    split at found <;> cases found
    exact fun _ => .inr startsFresh_nil
  have list : listAt l (ls ++ [[]]) = listAt l ls := by
    apply listAt_agree
    intro step found
    obtain ⟨m, _, rfl⟩ := Option.map_eq_some_iff.mp found
    exact .inr startsFresh_nil
  unfold blockAt
  rw [fencedAt_concat_nil, indented, rawAt_concat_nil, definitionAt_append, quoteAt_append, list,
    underlinedAt_append, paragraphAt_append]

/-- An empty line at the end changes neither the blocks nor a failure. -/
theorem readBlocks_concat_nil (fence : Text) (ctx : Context) (n : Nat) (ls : List Text) :
    readBlocks fence ctx n (ls ++ [[]]) = readBlocks fence ctx n ls := by
  generalize size : ls.length = k
  induction k using Nat.strongRecOn generalizing ls n with
  | ind k ih =>
  cases ls with
  | nil => rw [List.nil_append, readBlocks_blank rfl, readBlocks_nil, readBlocks_nil]
  | cons l ls =>
    rw [List.length_cons] at size
    rw [List.cons_append]
    by_cases blank : l.isBlank
    · rw [readBlocks_blank blank, readBlocks_blank blank, ih ls.length (by omega) _ _ rfl]
    have found : StepAt fence ctx l ls (blockAt fence ctx l ls) := stepAt rfl
    have same := blockAt_concat_nil fence ctx l ls
    have later (line taken : Nat) (short : taken ≤ ls.length) :
        readBlocks fence ctx line ((ls ++ [[]]).drop taken) =
          readBlocks fence ctx line (ls.drop taken) := by
      rw [List.drop_append_of_le_length short]
      apply ih (ls.drop taken).length
      · rw [List.length_drop]
        omega
      · rfl
    cases step : blockAt fence ctx l ls with
    | leaf block taken =>
      rw [step] at same found
      rw [readBlocks_leaf blank step, readBlocks_leaf blank same, later _ taken found.more_le]
    | list ordered start run =>
      rw [step] at same found
      rw [readBlocks_list blank step, readBlocks_list blank same,
        later _ (run.taken - 1) found.more_le]
    | footnote label body taken =>
      rw [step] at same found
      rw [readBlocks_footnote blank step, readBlocks_footnote blank same,
        later _ taken found.more_le]
    | malformed reason =>
      rw [step] at same
      rw [readBlocks_malformed blank step, readBlocks_malformed blank same]

theorem readBlocks_append_nils (fence : Text) (ctx : Context) (n k : Nat) (ls : List Text) :
    readBlocks fence ctx n (ls ++ List.replicate k []) = readBlocks fence ctx n ls := by
  induction k with
  | zero => rw [List.replicate_zero, List.append_nil]
  | succ k ih => rw [List.replicate_succ', ← List.append_assoc, readBlocks_concat_nil, ih]

theorem isBlank_nils (k : Nat) : ∀ l ∈ List.replicate k ([] : Text), isBlank l := by
  intro l member
  rw [List.eq_of_mem_replicate member]
  rfl

/-- A text is read by its pieces between line feeds. -/
theorem readBlocks_lines (fence : Text) (ctx : Context) (n : Nat) {t : Text} (plain : '\r' ∉ t) :
    readBlocks fence ctx n (lines t) = readBlocks fence ctx n (cutAt (· == '\n') t) := by
  rcases cutAt_feed plain with same | ended
  · rw [same]
  · rw [ended, readBlocks_concat_nil]

/-- The pieces of a text without the empty ones at the end are read as the text is. -/
theorem readBlocks_relines (fence : Text) (ctx : Context) (n : Nat) {t : Text} {ls : List Text}
    {k : Nat} (plain : '\r' ∉ t) (some : ls ≠ [])
    (pieces : cutAt (· == '\n') t = ls ++ List.replicate k []) :
    readBlocks fence ctx n (lines (unlines ls)) = readBlocks fence ctx n (lines t) := by
  have part : ∀ l ∈ ls, l ∈ cutAt (· == '\n') t := by
    intro l member
    rw [pieces]
    exact List.mem_append_left _ member
  have whole : ∀ l ∈ ls, '\n' ∉ l := fun l member inside =>
    (of_mem_cutAt (part l member) inside).2 rfl
  have bare : '\r' ∉ unlines ls := notMem_unlines (by decide) fun l member inside =>
    plain (of_mem_cutAt (part l member) inside).1
  rw [readBlocks_lines fence ctx n bare, cutAt_unlines some whole, readBlocks_lines fence ctx n plain,
    pieces, readBlocks_append_nils]

/-! ### Items -/

def IsBullet (c : Char) : Prop := c = '-' ∨ c = '+' ∨ c = '*'

/-- A further line of an item. Empty lines stay empty. -/
def indented (l : Text) : Text := if l.isEmpty then [] else ' ' :: ' ' :: l

def itemized (mark : Char) : List Text → List Text
  | [] => []
  | l :: ls => (mark :: ' ' :: l) :: ls.map indented

def listItem (mark : Char) (t : Text) : Text := unlines (itemized mark (cutAt (· == '\n') t))

def firstLine (t : Text) : Text := (cutAt (· == '\n') t).headD []

theorem cutAt_firstLine (t : Text) :
    cutAt (· == '\n') t = firstLine t :: (cutAt (· == '\n') t).tail := by
  cases eq : cutAt (· == '\n') t with
  | nil => exact absurd eq (cutAt_ne_nil t)
  | cons l ls => rw [firstLine, eq, List.headD_cons, List.tail_cons]

/-- The text can be put into an item as it is: it starts with ink that is no task box, and its blank
lines are empty. -/
structure Embeddable (t : Text) : Prop where
  plain : '\r' ∉ t
  inked : (firstLine t).startsWith fun c => !isSpace c
  untasked : (splitTask (firstLine t)).1 = .plain
  gaps : ∀ l ∈ cutAt (· == '\n') t, isBlank l → l = []

theorem removeIndent_indented {l : Text} (filled : l ≠ []) : removeIndent 2 (indented l) = l := by
  rw [indented, if_neg (by simpa using filled), removeIndent, removeIndentFrom, if_pos (by decide),
    removeIndentFrom, if_pos (by decide)]
  exact removeIndentFrom_reached (by decide) l

theorem indentColumns_indented {l : Text} (filled : l ≠ []) : 2 ≤ indentColumns (indented l) := by
  rw [indented, if_neg (by simpa using filled), indentColumns, indentFrom, indentFrom]
  exact le_indentFrom 2 l

theorem isBlank_indented (l : Text) : isBlank (indented l) = l.isBlank := by
  unfold indented
  split
  · rename_i empty
    rw [List.isEmpty_iff.mp empty]
  · rfl

theorem resumesAfter_indented {ls : List Text} (filled : ∃ l ∈ ls, ¬ l.isBlank) :
    resumesAfter 0 (ls.map indented) := by
  cases first : (ls.map indented).find? fun l => !l.isBlank with
  | none =>
    obtain ⟨l, member, inked⟩ := filled
    have blank := List.find?_eq_none.mp first (indented l) (List.mem_map_of_mem member)
    rw [isBlank_indented] at blank
    exact absurd (by simpa using blank) inked
  | some m =>
    obtain ⟨l, _, rfl⟩ := List.mem_map.mp (List.mem_of_find?_eq_some first)
    have inked := List.find?_some first
    have filled : l ≠ [] := by
      rintro rfl
      cases inked
    have deep := indentColumns_indented filled
    rw [resumesAfter, first, Option.any_some, decide_eq_true_eq]
    omega

/-- The lines of the item are the lines that were indented, up to empty ones at the end. -/
theorem itemLines_indented {ls : List Text} (gaps : ∀ l ∈ ls, l.isBlank → l = []) :
    ∃ k, ls = itemLines 0 2 (ls.map indented) ++ List.replicate k [] := by
  induction ls with
  | nil => exact ⟨0, rfl⟩
  | cons l ls ih =>
    rw [List.forall_mem_cons] at gaps
    obtain ⟨k, rest⟩ := ih gaps.2
    rw [List.map_cons, itemLines]
    by_cases empty : l = []
    · subst empty
      rw [if_pos (show (indented []).isEmpty = true from rfl)]
      split
      · exact ⟨k, by rw [List.cons_append, ← rest]⟩
      · rename_i ends
        -- no further line has ink, so all of them are empty
        have none : ∀ l ∈ ls, l = [] := by
          intro l member
          apply gaps.2 l member
          by_contra filled
          exact ends (resumesAfter_indented ⟨l, member, filled⟩)
        exact ⟨ls.length + 1, by rw [List.nil_append, List.eq_replicate_iff]; simpa using none⟩
    · have filled : ¬ l.isBlank := fun blank => empty (gaps.1 blank)
      have deep := indentColumns_indented empty
      have some : ¬ (indented l).isEmpty := by
        simp [indented, empty]
      rw [if_neg some, isBlank_indented, if_neg filled, if_neg (by omega),
        removeIndent_indented empty]
      exact ⟨k, by rw [List.cons_append, ← rest]⟩

/-! ### The first line of an item -/

section FirstLine

variable {mark : Char} {first : Text} (bullet : IsBullet mark)

include bullet

theorem not_isSpace_bullet : ¬ isSpace mark := by
  rcases bullet with rfl | rfl | rfl <;> decide

theorem trimStart_bullet (t : Text) : trimStart (mark :: t) = mark :: t :=
  List.dropWhile_cons_of_neg (not_isSpace_bullet bullet)

theorem startsWith_bullet (t : Text) : startsWith (fun c => !isSpace c) (mark :: t) := by
  simpa [startsWith] using not_isSpace_bullet bullet

theorem listMarker_bullet (inked : first.startsWith fun c => !isSpace c) :
    listMarker? (mark :: ' ' :: first) = some ⟨0, false, 1, 2, first⟩ := by
  have known : mark = '-' ∨ mark = '+' ∨ mark = '*' := bullet
  obtain ⟨c, u, rfl, ink⟩ := startsWith_iff.mp inked
  have space : ¬ isSpace c := by simpa using ink
  have indent : ¬ isIndent c := fun indents => space (isSpace_of_isIndent indents)
  have gap : (' ' :: c :: u).takeWhile isIndent = [' '] := by
    rw [List.takeWhile_cons_of_pos (by decide), List.takeWhile_cons_of_neg indent]
  have content : trimStart (' ' :: c :: u) = c :: u := by
    rw [trimStart, List.dropWhile_cons_of_pos (by decide), List.dropWhile_cons_of_neg space]
  unfold listMarker?
  rw [trimStart_bullet bullet, indentColumns_margin (startsWith_bullet bullet _)]
  dsimp only
  rw [if_pos known, ListMarker.before?, if_pos (show endsOr isIndent (' ' :: c :: u) from rfl), gap,
    content]
  rfl

theorem isOutlineLine_bullet (t : Text) : isOutlineLine (mark :: t) = false := by
  have front : trim (mark :: t) <+: mark :: t := by
    rw [trim, trimStart_bullet bullet]
    exact dropEndWhile_isPrefix isSpace _
  have filled : trim (mark :: t) ≠ [] := by
    apply trim_ne_nil
    simp [isBlank, not_isSpace_bullet bullet]
  obtain ⟨c, u, eq⟩ := List.exists_cons_of_ne_nil filled
  rw [eq, List.cons_prefix_cons] at front
  have lower : c.toLower ≠ '[' ∧ c.toLower ≠ '!' := by
    rw [front.1]
    rcases bullet with rfl | rfl | rfl <;> decide
  simp [isOutlineLine, eq, toLower, lower]

theorem blockAt_bullet (ctx : Context) (ls : List Text)
    (inked : first.startsWith fun c => !isSpace c) (unruled : ¬ isRule (mark :: ' ' :: first)) :
    blockAt Options.default.fence ctx (mark :: ' ' :: first) ls =
      .list false 1 (listRun false 0 ((mark :: ' ' :: first) :: ls)) := by
  apply blockAt_list (m := ⟨0, false, 1, 2, first⟩) _ _ _ _ _ unruled _ _
    (listMarker_bullet bullet inked)
  · rcases bullet with rfl | rfl | rfl <;> rfl
  · rw [isCodeLine_margin (startsWith_bullet bullet _)]
    exact Bool.false_ne_true
  · rw [isOutlineLine_bullet bullet]
    exact Bool.false_ne_true
  · rcases bullet with rfl | rfl | rfl <;> rfl
  · rcases bullet with rfl | rfl | rfl <;> rfl
  · rcases bullet with rfl | rfl | rfl <;> rfl
  · rcases bullet with rfl | rfl | rfl <;> exact Bool.false_ne_true

end FirstLine

theorem splitTask_plain {content : Text} (plain : (splitTask content).1 = .plain) :
    splitTask content = (.plain, content) := by
  unfold splitTask at plain ⊢
  split
  · rename_i found
    rw [found] at plain
    cases plain
  · rfl

/-- An item with nothing but empty lines behind it is a list of its own. -/
theorem listRun_single {ordered : Bool} {offset : Nat} {l first : Text} {rest : List Text}
    {m : ListMarker} (marked : listMarker? l = some m) (same : m.ordered = ordered)
    {bullet : Bullet} (split : splitTask m.content = (bullet, first)) {body : List Text} {k : Nat}
    (lines : itemLines m.indent m.contentColumn rest = body)
    (left : rest.drop body.length = List.replicate k []) :
    listRun ordered offset (l :: rest) =
      ⟨[⟨offset, bullet, first :: body⟩], true, body.length + 1⟩ := by
  rw [listRun_item marked same split lines left, blank_afterGap (isBlank_nils k),
    List.takeWhile_eq_self_iff.mpr (isBlank_nils k), List.length_replicate]
  split
  · rename_i none
    rw [none, List.replicate_zero, listRun_unmarked rfl]
    rfl
  · rfl

/-! ### Texts of items -/

theorem notMem_itemized {c mark : Char} {ls : List Text} (marked : c ≠ mark) (space : c ≠ ' ')
    (each : ∀ l ∈ ls, c ∉ l) : ∀ l ∈ itemized mark ls, c ∉ l := by
  cases ls with
  | nil => nofun
  | cons l ls =>
    rw [List.forall_mem_cons] at each
    refine List.forall_mem_cons.mpr ⟨by simp [marked, space, each.1], fun k member => ?_⟩
    obtain ⟨inner, inside, rfl⟩ := List.mem_map.mp member
    unfold indented
    split
    · exact List.not_mem_nil
    · simp [space, each.2 inner inside]

section Items

variable {mark : Char} {t : Text} (bullet : IsBullet mark) (embeddable : Embeddable t)

include bullet

theorem cutAt_listItem (t : Text) :
    cutAt (· == '\n') (listItem mark t) = itemized mark (cutAt (· == '\n') t) := by
  have feed : '\n' ≠ mark := by
    rcases bullet with rfl | rfl | rfl <;> decide
  apply cutAt_unlines
  · rw [cutAt_firstLine]
    exact List.cons_ne_nil _ _
  · apply notMem_itemized feed (by decide)
    exact fun l member inside => (of_mem_cutAt member inside).2 rfl

theorem firstLine_listItem (t : Text) :
    firstLine (listItem mark t) = mark :: ' ' :: firstLine t := by
  rw [firstLine, cutAt_listItem bullet, cutAt_firstLine]
  rfl

include embeddable

theorem Embeddable.listItem : Embeddable (listItem mark t) where
  plain := by
    have carriage : '\r' ≠ mark := by
      rcases bullet with rfl | rfl | rfl <;> decide
    apply notMem_unlines (by decide) (notMem_itemized carriage (by decide) _)
    exact fun l member inside => embeddable.plain (of_mem_cutAt member inside).1
  inked := by
    rw [firstLine_listItem bullet]
    exact startsWith_bullet bullet _
  untasked := by
    rw [firstLine_listItem bullet]
    rcases bullet with rfl | rfl | rfl <;> rfl
  gaps := by
    have gaps := embeddable.gaps
    rw [cutAt_listItem bullet]
    rw [cutAt_firstLine, List.forall_mem_cons] at gaps
    rw [cutAt_firstLine, itemized, List.forall_mem_cons, List.forall_mem_map]
    refine ⟨fun blank => ?_, fun l member blank => ?_⟩
    · simp [isBlank, not_isSpace_bullet bullet] at blank
    · rw [isBlank_indented] at blank
      rw [gaps.2 l member blank]
      rfl

/-- The item is read as a list that holds what the text itself is read as. -/
theorem readBlocks_listItem (ctx : Context) (unruled : ¬ isRule (mark :: ' ' :: firstLine t)) :
    readBlocks Options.default.fence ctx 1 (lines (listItem mark t)) =
      (readFragment Options.default.fence t).map fun blocks =>
        [.list false 1 true [⟨.plain, blocks⟩]] := by
  have gaps := embeddable.gaps
  rw [cutAt_firstLine, List.forall_mem_cons] at gaps
  have pieces := cutAt_firstLine t
  generalize (cutAt (· == '\n') t).tail = rest at gaps pieces
  obtain ⟨k, whole⟩ := itemLines_indented gaps.2
  generalize body : itemLines 0 2 (rest.map indented) = inner at whole
  have left : (rest.map indented).drop inner.length = List.replicate k [] := by
    rw [whole, List.map_append, List.drop_left' (by rw [List.length_map]), List.map_replicate]
    rfl
  have step := blockAt_bullet bullet ctx (rest.map indented) embeddable.inked unruled
  rw [listRun_single (listMarker_bullet bullet embeddable.inked) rfl
    (splitTask_plain embeddable.untasked) body left] at step
  have filled : ¬ Text.isBlank (mark :: ' ' :: firstLine t) := by
    simp [isBlank, not_isSpace_bullet bullet]
  have item : readBlocks Options.default.fence .item 1 (lines (unlines (firstLine t :: inner))) =
      readFragment Options.default.fence t :=
    readBlocks_relines _ _ _ embeddable.plain (List.cons_ne_nil _ _) (by rw [pieces, whole]; rfl)
  have behind : readBlocks Options.default.fence ctx (1 + (inner.length + 1))
      ((rest.map indented).drop inner.length) = .ok [] := by
    rw [left]
    exact readBlocks_blanks (isBlank_nils k)
  rw [readBlocks_lines _ _ _ (embeddable.listItem bullet).plain, cutAt_listItem bullet, pieces,
    itemized, readBlocks_list filled step, readItems, readItems]
  dsimp only
  rw [Nat.add_zero, item, Nat.add_sub_cancel, behind]
  cases readFragment Options.default.fence t <;> rfl

end Items

/-! ### Nesting -/

def nestLists : Nat → List Block → List Block
  | 0, blocks => blocks
  | n + 1, blocks => [.list false 1 true [⟨.plain, nestLists n blocks⟩]]

/-- No marker in front of the text makes a rule of its first line. -/
def Unruled : List Char → Text → Prop
  | [], _ => True
  | mark :: marks, t =>
    ¬ isRule (mark :: ' ' :: firstLine (marks.foldr listItem t)) ∧ Unruled marks t

theorem Embeddable.nested {marks : List Char} {t : Text} (embeddable : Embeddable t)
    (bullets : ∀ mark ∈ marks, IsBullet mark) : Embeddable (marks.foldr CommentMarkup.listItem t) := by
  induction marks with
  | nil => exact embeddable
  | cons mark marks ih =>
    rw [List.forall_mem_cons] at bullets
    exact (ih bullets.2).listItem bullets.1

theorem readFragment_nested {marks : List Char} {t : Text} (embeddable : Embeddable t)
    (bullets : ∀ mark ∈ marks, IsBullet mark) (unruled : Unruled marks t) :
    readFragment Options.default.fence (marks.foldr listItem t) =
      (readFragment Options.default.fence t).map (nestLists marks.length) := by
  induction marks with
  | nil =>
    rw [List.foldr_nil]
    cases readFragment Options.default.fence t <;> rfl
  | cons mark marks ih =>
    rw [List.forall_mem_cons] at bullets
    rw [List.foldr_cons, readFragment,
      readBlocks_listItem bullets.1 (embeddable.nested bullets.2) .item unruled.1,
      ih bullets.2 unruled.2]
    cases readFragment Options.default.fence t <;> rfl

/-- Behind markers a text is read as it is read on its own, with as many lists around it as there are
markers. If it is malformed, so is the item, at the same line and for the same reason. -/
theorem read_nested {mark : Char} {marks : List Char} {t : Text} (embeddable : Embeddable t)
    (bullets : ∀ m ∈ mark :: marks, IsBullet m) (unruled : Unruled (mark :: marks) t) :
    readDocument Options.default.fence ((mark :: marks).foldr listItem t) =
      (readFragment Options.default.fence t).map (nestLists (marks.length + 1)) ∧
    readFragment Options.default.fence ((mark :: marks).foldr listItem t) =
      (readFragment Options.default.fence t).map (nestLists (marks.length + 1)) := by
  have fragment := readFragment_nested embeddable bullets unruled
  refine ⟨?_, fragment⟩
  -- the outermost list is read alike in a document
  rw [List.forall_mem_cons] at bullets
  have inner := embeddable.nested bullets.2
  rw [List.foldr_cons, readFragment, readBlocks_listItem bullets.1 inner .item unruled.1,
    ← readBlocks_listItem bullets.1 inner .document unruled.1] at fragment
  exact fragment

def headingsSample : Text := "# a\n\n# b".toList

def headingsBlocks : List Block := [headingBlock 1 "a".toList, headingBlock 1 "b".toList]

theorem readFragment_headingsSample :
    readFragment Options.default.fence headingsSample = .ok headingsBlocks := by
  have cut : lines headingsSample = ["# a".toList, [], "# b".toList] := by decide
  have first : blockAt Options.default.fence .item "# a".toList [[], "# b".toList] =
      .leaf (headingBlock 1 "a".toList) 0 :=
    blockAt_heading (by decide) (by decide) (by decide) (by decide) (by decide) (by decide)
      (by decide)
  have second : blockAt Options.default.fence .item "# b".toList [] =
      .leaf (headingBlock 1 "b".toList) 0 :=
    blockAt_heading (by decide) (by decide) (by decide) (by decide) (by decide) (by decide)
      (by decide)
  rw [readFragment, cut, readBlocks_leaf (by decide) first, List.drop_zero, readBlocks_blank rfl,
    readBlocks_leaf (by decide) second, List.drop_nil, readBlocks_nil]
  rfl

theorem embeddable_headingsSample : Embeddable headingsSample where
  plain := by decide
  inked := by decide
  untasked := by decide
  gaps := by decide

theorem read_nested_headings :
    readDocument Options.default.fence "- * # a\n\n    # b".toList =
      .ok (nestLists 2 headingsBlocks) := by
  have bullets : ∀ mark ∈ ['-', '*'], IsBullet mark := by simp [IsBullet]
  have unruled : Unruled ['-', '*'] headingsSample := ⟨by decide, by decide, trivial⟩
  have text : ['-', '*'].foldr listItem headingsSample = "- * # a\n\n    # b".toList := by decide
  have nested := (read_nested embeddable_headingsSample bullets unruled).1
  rw [text, readFragment_headingsSample] at nested
  exact nested

end CommentMarkup
