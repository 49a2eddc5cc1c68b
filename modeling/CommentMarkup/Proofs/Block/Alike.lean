import CommentMarkup.Proofs.Block.Lookahead
import CommentMarkup.Proofs.Block.Reading
import CommentMarkup.Proofs.Line.Respelled

/-!
# Texts that are read alike

Whether a line belongs to an item is told by the columns of its indentation. The blocks of a text
depend on nothing but comparisons of these columns: `readBlocks_alike` says so of the body of an
item, where `Alike` relates two texts by the comparisons that reading makes.
-/

namespace CommentMarkup

open Text

/-! ### The relation -/

/-- The two lines have the same text, and the one is deeper than column `i` just if the other is
deeper than column `j`. -/
def Beside (i j : Nat) (k l : Text) : Prop :=
  SameText k l ∧ (i < indentColumns k ↔ j < indentColumns l)

/-- The lines of the item that the marker starts, to be read again. -/
def innerLines (m : ListMarker) (rest : List Text) : List Text :=
  lines (unlines ((splitTask m.content).2 :: itemLines m.indent m.contentColumn rest))

/-- Lines that reading cannot tell apart: the same texts without fences and tags, the same lines
deeper than each list marker and each definition above them, and the same code behind each quote.
All this holds again of the lines of each item, whose columns are counted anew. -/
inductive Alike (fence : Text) : List Text → List Text → Prop
  | nil : Alike fence [] []
  | cons {k l : Text} {ks ls : List Text} (same : SameText k l)
      (unfenced : openFence? fence k = none) (untagged : rawTag? k = none)
      (deeper : (listMarker? k).isSome ∨ (definitionLine? k).isSome →
        List.Forall₂ (Beside (indentColumns k) (indentColumns l)) ks ls)
      (quoted : isQuoteLine k → ks.map isCodeLine = ls.map isCodeLine)
      (item : ∀ m n, listMarker? k = some m → listMarker? l = some n →
        Alike fence (innerLines m ks) (innerLines n ls))
      (rest : Alike fence ks ls) : Alike fence (k :: ks) (l :: ls)

namespace Alike

variable {fence : Text} {ks ls : List Text}

theorem same (alike : Alike fence ks ls) : List.Forall₂ SameText ks ls := by
  induction alike with
  | nil => exact .nil
  | cons same _ _ _ _ _ _ _ ih => exact .cons same ih

theorem drop (alike : Alike fence ks ls) (n : Nat) : Alike fence (ks.drop n) (ls.drop n) := by
  induction alike generalizing n with
  | nil => simpa using Alike.nil
  | cons same unfenced untagged deeper quoted item rest _ ih =>
    cases n with
    | zero => exact .cons same unfenced untagged deeper quoted item rest
    | succ n => exact ih n

end Alike

/-! ### Items -/

section Items

variable {ks ls : List Text} {i j : Nat}

theorem find_same (same : List.Forall₂ (Beside i j) ks ls) :
    Option.Rel (Beside i j) (ks.find? fun l => !l.isBlank) (ls.find? fun l => !l.isBlank) := by
  induction same with
  | nil => exact .none
  | @cons k l ks ls beside _ ih =>
    rw [List.find?_cons, List.find?_cons, beside.1.isBlank]
    cases l.isBlank with
    | true => exact ih
    | false => exact .some beside

theorem resumesAfter_same (same : List.Forall₂ (Beside i j) ks ls) :
    resumesAfter i ks = resumesAfter j ls := by
  have found := find_same same
  unfold resumesAfter
  generalize ks.find? (fun l => !l.isBlank) = a at found ⊢
  generalize ls.find? (fun l => !l.isBlank) = b at found ⊢
  cases found with
  | none => rfl
  | some beside => exact decide_eq_decide.mpr beside.2

/-- An item takes the same lines, to whatever column they are taken back. -/
theorem length_itemLines_same (same : List.Forall₂ (Beside i j) ks ls) (c d : Nat) :
    (itemLines i c ks).length = (itemLines j d ls).length := by
  induction same with
  | nil => rfl
  | @cons k l ks ls beside behind ih =>
    have shallow : indentColumns k ≤ i ↔ indentColumns l ≤ j := by
      have deep := beside.2
      omega
    unfold itemLines
    rw [beside.1.empty, beside.1.isBlank, resumesAfter_same behind]
    simp only [shallow]
    split
    · split
      · rw [List.length_cons, List.length_cons, ih]
      · rfl
    · split
      · rw [List.length_cons, List.length_cons, ih]
      · split
        · rfl
        · rw [List.length_cons, List.length_cons, ih]

theorem length_blank_same (same : List.Forall₂ SameText ks ls) :
    (ks.takeWhile Text.isBlank).length = (ls.takeWhile Text.isBlank).length := by
  induction same with
  | nil => rfl
  | @cons k l ks ls same _ ih =>
    rw [List.takeWhile_cons, List.takeWhile_cons, same.isBlank]
    split
    · rw [List.length_cons, List.length_cons, ih]
    · rfl

theorem startsItem_same (ordered : Bool) (same : List.Forall₂ SameText ks ls) :
    startsItem ordered ks = startsItem ordered ls := by
  cases same with
  | nil => rfl
  | @cons k l ks ls same _ =>
    simp only [startsItem, List.head?_cons, Option.bind_some]
    cases found : listMarker? k with
    | none => rw [same.unmarked found]
    | some a =>
      obtain ⟨b, found', marker⟩ := same.marked found
      rw [found', Option.any_some, Option.any_some, marker.ordered]

end Items

/-! ### Lists -/

section Lists

variable (fence : Text)

structure ItemsAlike (a b : RawItem) : Prop where
  offset : a.offset = b.offset
  bullet : a.bullet = b.bullet
  body : Alike fence (lines (unlines a.body)) (lines (unlines b.body))

structure RunsAlike (a b : ListRun) : Prop where
  items : List.Forall₂ (ItemsAlike fence) a.items b.items
  tight : a.tight = b.tight
  taken : a.taken = b.taken

variable {fence}

theorem RunsAlike.cons {a b : ListRun} (runs : RunsAlike fence a b) {x y : RawItem}
    (items : ItemsAlike fence x y) {m n : Nat} (taken : m = n) :
    RunsAlike fence (a.cons x m) (b.cons y n) where
  items := .cons items runs.items
  tight := runs.tight
  taken := by rw [ListRun.cons, ListRun.cons, taken, runs.taken]

theorem RunsAlike.loose {a b : ListRun} (runs : RunsAlike fence a b) :
    RunsAlike fence a.loose b.loose where
  items := runs.items
  tight := rfl
  taken := runs.taken

theorem Alike.afterGap {ks ls : List Text} (alike : Alike fence ks ls) :
    Alike fence (afterGap ks) (afterGap ls) := by
  rw [CommentMarkup.afterGap, CommentMarkup.afterGap, ← length_blank_same alike.same]
  exact alike.drop _

/-- Texts that are alike start with the same lists. -/
theorem listRun_alike (ordered : Bool) (offset : Nat) {ks ls : List Text}
    (alike : Alike fence ks ls) :
    RunsAlike fence (listRun ordered offset ks) (listRun ordered offset ls) := by
  induction size : ks.length using Nat.strong_induction_on generalizing ks ls offset with
  | _ n ih =>
  by_cases starts : startsItem ordered ks
  · cases alike with
    | nil => cases starts
    | @cons k l ks ls same _ _ deeper _ item rest =>
      obtain ⟨a, marked, kind⟩ := startsItem_cons.mp starts
      obtain ⟨b, marked', marker⟩ := same.marked marked
      have kind' : b.ordered = ordered := by rw [← marker.ordered, kind]
      have body := item a b marked marked'
      have beside := deeper (.inl (by rw [marked]; rfl))
      rw [← listMarker_indent marked, ← listMarker_indent marked'] at beside
      have length := length_itemLines_same beside a.contentColumn b.contentColumn
      cases split : splitTask a.content with
      | mk bullet first =>
      have split' : splitTask b.content = (bullet, first) := by rw [← marker.content, split]
      rw [innerLines, innerLines, split, split'] at body
      generalize lines : itemLines a.indent a.contentColumn ks = inner at body length
      generalize lines' : itemLines b.indent b.contentColumn ls = inner' at body length
      have items : ItemsAlike fence ⟨offset, bullet, first :: inner⟩
          ⟨offset, bullet, first :: inner'⟩ := ⟨rfl, rfl, body⟩
      have after := rest.drop inner.length
      have shorter : (ks.drop inner.length).length < n := by
        rw [← size, List.length_drop, List.length_cons]
        omega
      rw [listRun_item marked kind split lines rfl, listRun_item marked' kind' split' lines' rfl,
        ← length, ← length_blank_same after.same, ← startsItem_same ordered after.afterGap.same]
      split
      · exact (ih _ shorter _ after rfl).cons items rfl
      · split
        · have fewer : (CommentMarkup.afterGap (ks.drop inner.length)).length < n := by
            rw [CommentMarkup.afterGap, List.length_drop]
            omega
          exact ((ih _ fewer _ after.afterGap rfl).cons items rfl).loose
        · exact ⟨.cons items .nil, rfl, rfl⟩
  · have ends := startsItem_same ordered alike.same
    rw [listRun_unmarked (by simpa using starts), listRun_unmarked (by simpa [ends] using starts)]
    exact ⟨.nil, rfl, rfl⟩

end Lists

/-! ### Other blocks -/

section Leaves

variable {ks ls : List Text}

theorem map_trimStart_same (same : List.Forall₂ SameText ks ls) :
    ks.map Text.trimStart = ls.map Text.trimStart := by
  induction same with
  | nil => rfl
  | cons same _ ih => rw [List.map_cons, List.map_cons, same.text, ih]

theorem paragraph_same (same : List.Forall₂ SameText ks ls) : paragraph ks = paragraph ls := by
  rw [paragraph, paragraph, paragraphText, paragraphText, map_trimStart_same same]

theorem underline_same (same : List.Forall₂ SameText ks ls) :
    ks.head?.bind underline? = ls.head?.bind underline? := by
  cases same with
  | nil => rfl
  | cons same _ => exact same.underline

theorem paragraphExtent_same (fence : Text) (same : List.Forall₂ SameText ks ls) :
    paragraphExtent fence .item ks = paragraphExtent fence .item ls := by
  induction same with
  | nil => rfl
  | cons same behind ih =>
    rw [paragraphExtent, paragraphExtent, same.isBlank,
      same.interruptsParagraph fence .item (absurd · (by decide)), underline_same behind, ih]

/-! #### Quotes -/

theorem quoteLines_same (fence : Text) (inText : Bool) (same : List.Forall₂ SameText ks ls)
    (code : ks.map isCodeLine = ls.map isCodeLine) :
    List.Forall₂ SameText (quoteLines fence inText ks) (quoteLines fence inText ls) := by
  induction same generalizing inText with
  | nil => exact .nil
  | @cons k l ks ls same _ ih =>
    rw [List.map_cons, List.map_cons, List.cons.injEq] at code
    rw [quoteLines, quoteLines, ← same.isQuoteLine, ← same.isBlank,
      ← same.interruptsParagraph fence .document fun _ => code.1]
    by_cases quoted : isQuoteLine k
    · rw [if_pos quoted, if_pos quoted, same.dropQuoteMark quoted]
      exact .cons ⟨rfl, rfl⟩ (ih _ code.2)
    · rw [if_neg quoted, if_neg quoted]
      split
      · exact .nil
      · exact .cons same (ih _ code.2)

theorem cutAt_same (same : List.Forall₂ SameText ks ls) :
    List.Forall₂ (List.Forall₂ SameText) (cutAt Text.isBlank ks) (cutAt Text.isBlank ls) := by
  induction same with
  | nil => exact .cons .nil .nil
  | @cons k l ks ls same _ ih =>
    rw [cutAt, cutAt, ← same.isBlank]
    split
    · exact .cons .nil ih
    · generalize cutAt Text.isBlank ks = groups at ih ⊢
      generalize cutAt Text.isBlank ls = groups' at ih ⊢
      cases ih with
      | nil => exact .cons (.cons same .nil) .nil
      | cons group others => exact .cons (.cons same group) others

theorem quoteParagraphs_same (same : List.Forall₂ SameText ks ls) :
    quoteParagraphs ks = quoteParagraphs ls := by
  have cut := cutAt_same same
  unfold quoteParagraphs
  generalize cutAt Text.isBlank ks = groups at cut ⊢
  generalize cutAt Text.isBlank ls = groups' at cut ⊢
  induction cut with
  | nil => rfl
  | @cons group group' groups groups' first _ ih =>
    have empty : group.isEmpty = group'.isEmpty := by cases first <;> rfl
    rw [List.filter_cons, List.filter_cons, empty]
    split
    · rw [List.map_cons, List.map_cons, paragraph_same first, ih]
    · exact ih

/-! #### Definitions -/

variable {k l : Text}

theorem linkTarget_same (beside : List.Forall₂ (Beside (indentColumns k) (indentColumns l)) ks ls)
    (rest : Text) : linkTarget? k rest ks.head? = linkTarget? l rest ls.head? := by
  have title : ((ks.head?.filter fun next => indentColumns k < indentColumns next).bind
        fun next => title? next.trim) =
      (ls.head?.filter fun next => indentColumns l < indentColumns next).bind
        fun next => title? next.trim := by
    cases beside with
    | nil => rfl
    | cons first _ =>
      simp only [List.head?_cons, Option.filter_some, decide_eq_decide.mpr first.2]
      split
      · exact congrArg title? first.1.trim
      · rfl
  unfold linkTarget?
  simp only [title]

theorem continues_same
    (beside : List.Forall₂ (Beside (indentColumns k) (indentColumns l)) ks ls) :
    List.Forall₂ SameText (ks.takeWhile (continuesFootnote k))
      (ls.takeWhile (continuesFootnote l)) := by
  induction beside with
  | nil => exact .nil
  | @cons k' l' _ _ first _ ih =>
    have continuing : continuesFootnote k k' = continuesFootnote l l' := by
      rw [continuesFootnote, continuesFootnote, first.1.isBlank, first.1.definitionLine,
        decide_eq_decide.mpr first.2]
    rw [List.takeWhile_cons, List.takeWhile_cons, continuing]
    split
    · exact .cons first.1 ih
    · exact .nil

theorem map_trim_same (same : List.Forall₂ SameText ks ls) :
    ks.map Text.trim = ls.map Text.trim := by
  induction same with
  | nil => rfl
  | cons same _ ih => rw [List.map_cons, List.map_cons, same.trim, ih]

theorem definitionAt_same (same : SameText k l) (deeper : (definitionLine? k).isSome →
      List.Forall₂ (Beside (indentColumns k) (indentColumns l)) ks ls) :
    definitionAt k ks = definitionAt l ls := by
  unfold definitionAt
  rw [← same.definitionLine]
  cases defines : definitionLine? k with
  | none => rfl
  | some d =>
    have beside := deeper (by rw [defines]; rfl)
    have continued := continues_same beside
    dsimp only [Option.bind_some]
    rw [linkTarget_same beside, map_trim_same continued,
      continued.length_eq]

end Leaves

/-! ### Steps -/

inductive StepsAlike (fence : Text) : Step → Step → Prop
  | same (step : Step) : StepsAlike fence step step
  | list (ordered : Bool) (start : Nat) {a b : ListRun} (runs : RunsAlike fence a b) :
      StepsAlike fence (.list ordered start a) (.list ordered start b)

section Steps

variable {fence k l : Text} {ks ls : List Text}

theorem rel_same (x : Option Step) : Option.Rel (StepsAlike fence) x x := by
  cases x with
  | none => exact .none
  | some step => exact .some (.same step)

theorem rel_orElse {x x' y y' : Option Step} (first : Option.Rel (StepsAlike fence) x x')
    (second : Option.Rel (StepsAlike fence) y y') :
    Option.Rel (StepsAlike fence) (x <|> y) (x' <|> y') := by
  cases first with
  | none => exact second
  | some step => exact .some step

theorem rel_getD {x x' : Option Step} (steps : Option.Rel (StepsAlike fence) x x') (last : Step) :
    StepsAlike fence (x.getD last) (x'.getD last) := by
  cases steps with
  | none => exact .same last
  | some step => exact step

theorem listAt_alike (alike : Alike fence (k :: ks) (l :: ls)) :
    Option.Rel (StepsAlike fence) (listAt k ks) (listAt l ls) := by
  cases alike with
  | cons same unfenced untagged deeper quoted item rest =>
    unfold listAt
    cases marked : listMarker? k with
    | none =>
      rw [same.unmarked marked]
      exact .none
    | some a =>
      obtain ⟨b, marked', marker⟩ := same.marked marked
      rw [marked', Option.map_some, Option.map_some, ← marker.ordered, ← marker.number]
      have whole := Alike.cons same unfenced untagged deeper quoted item rest
      exact .some (.list _ _ (listRun_alike _ _ whole))

theorem quoteAt_same (same : SameText k l) (behind : List.Forall₂ SameText ks ls)
    (code : isQuoteLine k → ks.map isCodeLine = ls.map isCodeLine) :
    quoteAt fence k ks = quoteAt fence l ls := by
  unfold quoteAt
  by_cases quoted : isQuoteLine k
  · have quoted' : isQuoteLine l := by rwa [← same.isQuoteLine]
    have lines : List.Forall₂ SameText (quoteLines fence false (k :: ks))
        (quoteLines fence false (l :: ls)) := by
      rw [quoteLines, quoteLines, if_pos quoted, if_pos quoted', same.dropQuoteMark quoted]
      exact .cons ⟨rfl, rfl⟩ (quoteLines_same fence _ behind (code quoted))
    rw [if_pos quoted, if_pos quoted']
    dsimp only
    rw [quoteParagraphs_same lines, lines.length_eq]
  · rw [if_neg quoted, if_neg (by rwa [← same.isQuoteLine])]

theorem paragraphAt_same (same : SameText k l) (behind : List.Forall₂ SameText ks ls) :
    paragraphAt fence .item k ks = paragraphAt fence .item l ls := by
  unfold paragraphAt
  dsimp only
  rw [← paragraphExtent_same fence behind,
    paragraph_same (.cons same (List.forall₂_take _ behind))]

/-- The same block starts at the first lines of texts that are alike. -/
theorem blockAt_alike (alike : Alike fence (k :: ks) (l :: ls)) :
    StepsAlike fence (blockAt fence .item k ks) (blockAt fence .item l ls) := by
  have list := listAt_alike alike
  cases alike with
  | cons same unfenced untagged deeper quoted item rest =>
    have fenced : fencedAt fence k ks = fencedAt fence l ls := by
      rw [fencedAt, fencedAt, ← same.openFence, unfenced]
      rfl
    have raw : rawAt k ks = rawAt l ls := by
      rw [rawAt, rawAt, ← same.rawTag, untagged]
      rfl
    have indented : indentedAt .item k ks = indentedAt .item l ls := rfl
    have outline : outlineAt k = outlineAt l := by rw [outlineAt, outlineAt, same.isOutlineLine]
    have definition := definitionAt_same same fun defines => deeper (.inr defines)
    have rule : ruleAt k = ruleAt l := by rw [ruleAt, ruleAt, same.isRule]
    have heading : headingAt k = headingAt l := by rw [headingAt, headingAt, same.heading]
    have quote : quoteAt fence k ks = quoteAt fence l ls := quoteAt_same same rest.same quoted
    have underlined : underlinedAt k ks = underlinedAt l ls := by
      rw [underlinedAt, underlinedAt, underline_same rest.same, same.trim]
    unfold blockAt
    rw [fenced, indented, outline, raw, definition, rule, heading, quote, underlined,
      paragraphAt_same same rest.same]
    exact rel_getD (rel_orElse (rel_same _) <| rel_orElse (rel_same _) <| rel_orElse (rel_same _) <|
      rel_orElse (rel_same _) <| rel_orElse (rel_same _) <| rel_orElse (rel_same _) <|
      rel_orElse (rel_same _) <| rel_orElse (rel_same _) <| rel_orElse list (rel_same _)) _

end Steps

/-! ### Reading -/

/-- What starts at the first line of the one text starts at that of the other. -/
theorem Alike.step {fence k : Text} {ks ls : List Text} {step : Step}
    (alike : Alike fence (k :: ks) ls) (filled : ¬ k.isBlank)
    (found : blockAt fence .item k ks = step) :
    ∃ l rest step', ls = l :: rest ∧ ¬ l.isBlank ∧ blockAt fence .item l rest = step' ∧
      StepsAlike fence step step' := by
  cases ls with
  | nil => cases alike
  | cons l rest =>
    have filled' : ¬ l.isBlank := by
      cases alike with
      | cons same => rwa [← same.isBlank]
    exact ⟨l, rest, _, rfl, filled', rfl, found ▸ blockAt_alike alike⟩

/-- Texts that are alike have the same blocks. -/
theorem readBlocks_alike {fence : Text} {n : Nat} {ks ls : List Text} (alike : Alike fence ks ls) :
    readBlocks fence .item n ks = readBlocks fence .item n ls := by
  suffices ∀ ctx n ks, ctx = .item → ∀ ls, Alike fence ks ls →
      readBlocks fence ctx n ks = readBlocks fence ctx n ls from this .item n ks rfl ls alike
  clear alike ls ks n
  apply readBlocks.induct fence
    (fun ctx n ks => ctx = .item → ∀ ls, Alike fence ks ls →
      readBlocks fence ctx n ks = readBlocks fence ctx n ls)
    (fun n items => ∀ items', List.Forall₂ (ItemsAlike fence) items items' →
      readItems fence n items = readItems fence n items')
  case case1 =>
    rintro _ n rfl ls alike
    cases alike
    rfl
  case case2 =>
    rintro _ n k ks blank ih rfl ls alike
    cases alike with
    | @cons _ l _ ls same _ _ _ _ _ rest =>
      rw [readBlocks_blank blank, readBlocks_blank (by rwa [← same.isBlank])]
      exact ih rfl ls rest
  case case3 =>
    rintro _ n k ks filled block more step ih rfl ls alike
    obtain ⟨l, rest, step', rfl, filled', found, steps⟩ := alike.step filled step
    cases steps with
    | same =>
      rw [readBlocks_leaf filled step, readBlocks_leaf filled' found,
        ih rfl _ (alike.drop (more + 1))]
      rfl
  case case4 =>
    rintro _ n k ks filled ordered start run step inner ih rfl ls alike
    obtain ⟨l, rest, step', rfl, filled', found, steps⟩ := alike.step filled step
    cases steps with
    | same =>
      rw [readBlocks_list filled step, readBlocks_list filled' found,
        ih rfl _ (alike.drop (run.taken - 1 + 1))]
      rfl
    | list _ _ runs =>
      rw [readBlocks_list filled step, readBlocks_list filled' found, inner _ runs.items,
        ih rfl _ (alike.drop (run.taken - 1 + 1)), runs.taken, runs.tight]
      rfl
  case case5 =>
    rintro _ n k ks filled label body more step inner ih rfl ls alike
    obtain ⟨l, rest, step', rfl, filled', found, steps⟩ := alike.step filled step
    cases steps with
    | same =>
      rw [readBlocks_footnote filled step, readBlocks_footnote filled' found,
        ih rfl _ (alike.drop (more + 1))]
      rfl
  case case6 =>
    rintro _ n k ks filled reason step rfl ls alike
    obtain ⟨l, rest, step', rfl, filled', found, steps⟩ := alike.step filled step
    cases steps with
    | same => rw [readBlocks_malformed filled step, readBlocks_malformed filled' found]
  case case7 =>
    intro n items' items
    cases items
    rfl
  case case8 =>
    intro n a as inner ih items' items
    cases items with
    | @cons _ b _ bs item others =>
      rw [readItems, readItems, ← item.offset, ← item.bullet, inner rfl _ item.body, ih bs others]

end CommentMarkup
