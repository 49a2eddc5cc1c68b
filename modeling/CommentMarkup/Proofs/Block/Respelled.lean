import CommentMarkup.Options
import CommentMarkup.Proofs.Block.Alike
import CommentMarkup.Proofs.Block.Inner
import CommentMarkup.Proofs.Block.TextLine

/-!
# Lists and the spelling of indentation

Two texts that spell the same columns in spaces and tabs in different ways have the same lists as
long as this goes on inside their items: `readFragment_respelled`. An item counts the columns anew,
from the column that its lines are taken back to, and there a tab can fall short of its stop:
`tabs_recounted`. Where no tab does, the spelling makes no difference: `readFragment_steady`.
-/

namespace CommentMarkup

open Text

/-! ### The same columns -/

section Columns

variable {fence k l : Text} {ks ls : List Text}

/-- Where the columns are the same, all comparisons between them are. -/
theorem Alike.of_columns (first : SameColumns k l) (behind : List.Forall₂ SameColumns ks ls)
    (unfenced : openFence? fence k = none) (untagged : rawTag? k = none)
    (quoted : isQuoteLine k → ks.map isCodeLine = ls.map isCodeLine)
    (item : ∀ m, listMarker? k = some m → Alike fence (innerLines m ks) (innerLines m ls))
    (rest : Alike fence ks ls) : Alike fence (k :: ks) (l :: ls) := by
  refine .cons first.sameText unfenced untagged (fun _ => ?_) quoted ?_ rest
  · exact behind.imp fun _ _ same => ⟨same.sameText, by rw [first.columns, same.columns]⟩
  · intro m n marked marked'
    rw [← first.listMarker, marked] at marked'
    cases marked'
    exact item m marked

def itemBodies : List Text → List (List Text)
  | [] => []
  | l :: ls => ((listMarker? l).map fun m => innerLines m ls).toList ++ itemBodies ls

theorem alike_of_itemBodies (columns : List.Forall₂ SameColumns ks ls)
    (plain : ∀ k ∈ ks, openFence? fence k = none ∧ rawTag? k = none)
    (quotes : (∃ k ∈ ks, isQuoteLine k) → ks.map isCodeLine = ls.map isCodeLine)
    (items : List.Forall₂ (Alike fence) (itemBodies ks) (itemBodies ls)) : Alike fence ks ls := by
  induction columns with
  | nil => exact .nil
  | @cons k l ks ls first behind ih =>
    rw [List.forall_mem_cons] at plain
    rw [itemBodies, itemBodies, ← first.listMarker] at items
    have code (quote : ∃ m ∈ k :: ks, isQuoteLine m) : ks.map isCodeLine = ls.map isCodeLine :=
      (List.cons.inj (quotes quote)).2
    have later (rest : List.Forall₂ (Alike fence) (itemBodies ks) (itemBodies ls)) :=
      ih plain.2 (fun ⟨m, member, quote⟩ => code ⟨m, List.mem_cons_of_mem k member, quote⟩) rest
    have here (quote : isQuoteLine k) := code ⟨k, List.mem_cons_self, quote⟩
    cases marked : listMarker? k with
    | none =>
      rw [marked] at items
      exact .of_columns first behind plain.1.1 plain.1.2 here
        (fun m found => by rw [marked] at found; cases found) (later items)
    | some m =>
      rw [marked] at items
      cases items with
      | cons item rest =>
        refine .of_columns first behind plain.1.1 plain.1.2 here ?_ (later rest)
        intro n found
        rw [marked] at found
        cases found
        exact item

/-! ### Tabs on their stops -/

/-- Taking the lines of an item back moves no tab that is left off its stop, here and in the items
inside. There is no fence and no tag, and behind a quote no code. -/
inductive Steady (fence : Text) : List Text → Prop
  | nil : Steady fence []
  | cons {l : Text} {ls : List Text} (unfenced : openFence? fence l = none)
      (untagged : rawTag? l = none)
      (uncoded : isQuoteLine l → ∀ k ∈ ls, isCodeLine k = false)
      (kept : ∀ m, listMarker? l = some m →
        ∀ k ∈ ls.take (itemLines m.indent m.contentColumn ls).length,
          KeepsStops m.contentColumn k)
      (item : ∀ m, listMarker? l = some m → Steady fence (innerLines m ls))
      (rest : Steady fence ls) : Steady fence (l :: ls)

theorem itemLines_columns (indent : Nat) {content : Nat} (same : List.Forall₂ SameColumns ks ls)
    (kept : ∀ k ∈ ks.take (itemLines indent content ks).length, KeepsStops content k)
    (kept' : ∀ l ∈ ls.take (itemLines indent content ls).length, KeepsStops content l) :
    List.Forall₂ SameColumns (itemLines indent content ks) (itemLines indent content ls) := by
  induction same with
  | nil => exact .nil
  | @cons k l ks ls first behind ih =>
    have beside : List.Forall₂ (Beside indent indent) ks ls :=
      behind.imp fun _ _ same => ⟨same.sameText, by rw [same.columns]⟩
    have resumes := resumesAfter_same beside
    unfold itemLines at kept kept' ⊢
    rw [← first.empty, ← first.sameText.isBlank, ← first.columns, ← resumes] at kept' ⊢
    by_cases empty : k.isEmpty
    · simp only [if_pos empty] at kept kept' ⊢
      by_cases goesOn : resumesAfter indent ks
      · simp only [if_pos goesOn, List.length_cons, List.take_succ_cons, List.forall_mem_cons]
          at kept kept' ⊢
        exact .cons (.of_text rfl rfl) (ih kept.2 kept'.2)
      · simp only [if_neg goesOn]
        exact .nil
    · simp only [if_neg empty] at kept kept' ⊢
      by_cases blank : k.isBlank
      · simp only [if_pos blank, List.length_cons, List.take_succ_cons, List.forall_mem_cons]
          at kept kept' ⊢
        exact .cons (.of_text rfl rfl) (ih kept.2 kept'.2)
      · simp only [if_neg blank] at kept kept' ⊢
        by_cases shallow : indentColumns k ≤ indent
        · simp only [if_pos shallow]
          exact .nil
        · simp only [if_neg shallow, List.length_cons, List.take_succ_cons, List.forall_mem_cons]
            at kept kept' ⊢
          exact .cons (first.removeIndent kept.1 kept'.1) (ih kept.2 kept'.2)

theorem relines_columns (same : List.Forall₂ SameColumns ks ls) (whole : ∀ k ∈ ks, '\n' ∉ k)
    (whole' : ∀ l ∈ ls, '\n' ∉ l) :
    List.Forall₂ SameColumns (lines (unlines ks)) (lines (unlines ls)) := by
  induction same with
  | nil => exact .nil
  | @cons k l ks ls first behind ih =>
    rw [List.forall_mem_cons] at whole whole'
    cases behind with
    | nil =>
      rw [unlines_singleton, unlines_singleton]
      by_cases empty : k.isEmpty
      · have empty' : l.isEmpty := by rwa [← first.empty]
        rw [List.isEmpty_iff.mp empty, List.isEmpty_iff.mp empty']
        exact .nil
      · have filled' : ¬ l.isEmpty := by rwa [← first.empty]
        rw [lines_singleton whole.1 (by simpa using empty),
          lines_singleton whole'.1 (by simpa using filled')]
        exact .cons first .nil
    | cons second behind =>
      rw [lines_unlines_cons whole.1, lines_unlines_cons whole'.1]
      exact .cons first.dropReturn (ih whole.2 whole'.2)

theorem whole_innerLines {m : ListMarker} (marked : listMarker? l = some m)
    (whole : ∀ k ∈ l :: ls, '\n' ∉ k) :
    ∀ k ∈ (splitTask m.content).2 :: itemLines m.indent m.contentColumn ls, '\n' ∉ k := by
  apply hereditary_whole.cuttings (cuttings_item marked rfl ls)
  intro k member
  rcases List.mem_cons.mp member with rfl | behind
  · exact whole k List.mem_cons_self
  · exact whole k (List.mem_cons_of_mem l (List.mem_of_mem_take behind))

/-- With every tab on its stop, texts with the same columns are alike. -/
theorem alike_of_steady (same : List.Forall₂ SameColumns ks ls) (whole : ∀ k ∈ ks, '\n' ∉ k)
    (whole' : ∀ l ∈ ls, '\n' ∉ l) (steady : Steady fence ks) (steady' : Steady fence ls) :
    Alike fence ks ls := by
  induction steady generalizing ls with
  | nil =>
    cases same
    exact .nil
  | @cons k ks unfenced untagged uncoded kept _ _ inner ih =>
    cases same with
    | @cons _ l _ ls first behind =>
      cases steady' with
      | cons _ _ uncoded' kept' item' rest' =>
        have rest := ih behind (fun m member => whole m (List.mem_cons_of_mem k member))
          (fun m member => whole' m (List.mem_cons_of_mem l member)) rest'
        refine .of_columns first behind unfenced untagged ?_ ?_ rest
        · intro quoted
          have quoted' : isQuoteLine l := by rwa [← first.sameText.isQuoteLine]
          rw [List.map_eq_replicate_iff.mpr (uncoded quoted),
            List.map_eq_replicate_iff.mpr (uncoded' quoted'), behind.length_eq]
        · intro m marked
          have marked' : listMarker? l = some m := by rw [← first.listMarker, marked]
          have taken := itemLines_columns m.indent behind (kept m marked) (kept' m marked')
          have bodies : List.Forall₂ SameColumns (innerLines m ks) (innerLines m ls) :=
            relines_columns (.cons (.of_text rfl rfl) taken) (whole_innerLines marked whole)
              (whole_innerLines marked' whole')
          exact inner m marked bodies (lines_whole _) (lines_whole _) (item' m marked')

end Columns

/-- Texts with the same columns have the same blocks, if the lines of their items are alike again
once they are taken back, where their columns are counted anew. -/
theorem readFragment_respelled {fence s t : Text}
    (columns : List.Forall₂ SameColumns (lines s) (lines t))
    (plain : ∀ l ∈ lines s, openFence? fence l = none ∧ rawTag? l = none)
    (quotes : (∃ l ∈ lines s, isQuoteLine l) →
      (lines s).map isCodeLine = (lines t).map isCodeLine)
    (items : List.Forall₂ (Alike fence) (itemBodies (lines s)) (itemBodies (lines t))) :
    readFragment fence s = readFragment fence t :=
  readBlocks_alike (alike_of_itemBodies columns plain quotes items)

/-- Texts with the same columns and every tab on its stop have the same blocks. -/
theorem readFragment_steady {fence s t : Text}
    (columns : List.Forall₂ SameColumns (lines s) (lines t)) (steady : Steady fence (lines s))
    (steady' : Steady fence (lines t)) : readFragment fence s = readFragment fence t :=
  readBlocks_alike (alike_of_steady columns (lines_whole s) (lines_whole t) steady steady')

/-! ### Samples -/

/-- A line that is only text, on both sides. -/
theorem Alike.word {fence w : Text} {ks ls : List Text} (unfenced : openFence? fence w = none)
    (untagged : rawTag? w = none) (unmarked : listMarker? w = none)
    (undefined : definitionLine? w = none) (unquoted : isQuoteLine w = false)
    (rest : Alike fence ks ls) : Alike fence (w :: ks) (w :: ls) := by
  refine .cons ⟨rfl, rfl⟩ unfenced untagged ?_ ?_ ?_ rest
  · simp [unmarked, undefined]
  · simp [unquoted]
  · simp [unmarked]

/-- An item on both sides. -/
theorem Alike.bullet {fence k l : Text} {ks ls : List Text} {m n : ListMarker}
    (same : SameText k l) (unfenced : openFence? fence k = none) (untagged : rawTag? k = none)
    (unquoted : isQuoteLine k = false) (marked : listMarker? k = some m)
    (marked' : listMarker? l = some n)
    (deeper : List.Forall₂ (Beside (indentColumns k) (indentColumns l)) ks ls)
    (item : Alike fence (innerLines m ks) (innerLines n ls)) (rest : Alike fence ks ls) :
    Alike fence (k :: ks) (l :: ls) := by
  refine .cons same unfenced untagged (fun _ => deeper) ?_ ?_ rest
  · simp [unquoted]
  · intro m' n' found found'
    rw [marked] at found
    rw [marked'] at found'
    cases found
    cases found'
    exact item

def tabbedSample : Text := "- a\n\t- b\n\t\t- c".toList

def spacedSample : Text := "- a\n    - b\n        - c".toList

/-- The inner tabs of the one text count fewer columns at the second level than the spaces of the
other, which makes no difference to the lists. -/
theorem readFragment_tabbedSample :
    (List.Forall₂ SameColumns (lines tabbedSample) (lines spacedSample) ∧
      (∀ l ∈ lines tabbedSample, openFence? Options.default.fence l = none ∧ rawTag? l = none) ∧
      (¬ ∃ l ∈ lines tabbedSample, isQuoteLine l) ∧
      List.Forall₂ (Alike Options.default.fence) (itemBodies (lines tabbedSample))
        (itemBodies (lines spacedSample))) ∧
    readFragment Options.default.fence tabbedSample =
      readFragment Options.default.fence spacedSample := by
  have columns : List.Forall₂ SameColumns (lines tabbedSample) (lines spacedSample) :=
    .cons ⟨rfl, rfl, rfl⟩ (.cons ⟨rfl, rfl, rfl⟩ (.cons ⟨rfl, rfl, rfl⟩ .nil))
  have plain : ∀ l ∈ lines tabbedSample,
      openFence? Options.default.fence l = none ∧ rawTag? l = none := by decide
  have unquoted : ¬ ∃ l ∈ lines tabbedSample, isQuoteLine l := by decide
  have word {c : Char} (letter : c ∈ ['a', 'b', 'c']) {ks ls : List Text}
      (rest : Alike Options.default.fence ks ls) :
      Alike Options.default.fence ([c] :: ks) ([c] :: ls) := by
    simp only [List.mem_cons, List.not_mem_nil, or_false] at letter
    rcases letter with rfl | rfl | rfl <;>
      exact .word (by decide) (by decide) (by decide) (by decide) (by decide) rest
  have last : Alike Options.default.fence ["c".toList] ["c".toList] := word (by decide) .nil
  -- two columns are left of the second tab in the item of the third line, and four of the spaces
  have inner : Alike Options.default.fence ["b".toList, "- c".toList]
      ["b".toList, "  - c".toList] := by
    apply word (by decide)
    exact .bullet (m := ⟨0, false, 1, 2, "c".toList⟩) (n := ⟨2, false, 1, 4, "c".toList⟩)
      ⟨rfl, rfl⟩ (by decide) (by decide) (by decide) (by decide) (by decide) .nil last .nil
  have outer : Alike Options.default.fence ["a".toList, "  - b".toList, "  \t- c".toList]
      ["a".toList, "  - b".toList, "      - c".toList] := by
    have behind : Alike Options.default.fence ["  \t- c".toList] ["      - c".toList] :=
      .bullet (m := ⟨4, false, 1, 6, "c".toList⟩) (n := ⟨6, false, 1, 8, "c".toList⟩)
        ⟨rfl, rfl⟩ (by decide) (by decide) (by decide) (by decide) (by decide) .nil last .nil
    apply word (by decide)
    exact .bullet (m := ⟨2, false, 1, 4, "b".toList⟩) (n := ⟨2, false, 1, 4, "b".toList⟩)
      ⟨rfl, rfl⟩ (by decide) (by decide) (by decide) (by decide) (by decide)
      (.cons ⟨⟨rfl, rfl⟩, by decide⟩ .nil) inner behind
  have second : Alike Options.default.fence ["b".toList, "  - c".toList]
      ["b".toList, "  - c".toList] := by
    apply word (by decide)
    exact .bullet (m := ⟨2, false, 1, 4, "c".toList⟩) (n := ⟨2, false, 1, 4, "c".toList⟩)
      ⟨rfl, rfl⟩ (by decide) (by decide) (by decide) (by decide) (by decide) .nil last .nil
  have items : List.Forall₂ (Alike Options.default.fence) (itemBodies (lines tabbedSample))
      (itemBodies (lines spacedSample)) := .cons outer (.cons second (.cons last .nil))
  exact ⟨⟨columns, plain, unquoted, items⟩,
    readFragment_respelled columns plain (fun quoted => absurd quoted unquoted) items⟩

/-! ### A tab off its stop -/

def deepSample : Text := "- a\n      - b\n        - c".toList

/-- The same columns, the last eight of them as two tabs. -/
def deepTabbedSample : Text := "- a\n      - b\n\t\t- c".toList

def bulletList (items : List (List Block)) : Block :=
  .list false 1 true (items.map (Item.mk .plain))

def wordBlock (c : Char) : Block := paragraph [[c]]

def deepBlocks : List Block :=
  [bulletList [[wordBlock 'a', bulletList [[wordBlock 'b', bulletList [[wordBlock 'c']]]]]]]

def deepTabbedBlocks : List Block :=
  [bulletList [[wordBlock 'a', bulletList [[wordBlock 'b'], [wordBlock 'c']]]]]

/-! #### Reading bullets -/

section Bullets

variable {n : Nat} {ls : List Text}

theorem readItems_bullets {offset : Nat} {body : List Text} {rest : List RawItem}
    {blocks : List Block} {items : List (List Block)} (cut : lines (unlines body) = body)
    (inner : readBlocks Options.default.fence .item (n + offset) body = .ok blocks)
    (others : readItems Options.default.fence n rest = .ok (items.map (Item.mk .plain))) :
    readItems Options.default.fence n (⟨offset, .plain, body⟩ :: rest) =
      .ok ((blocks :: items).map (Item.mk .plain)) := by
  rw [readItems, cut, inner, others]
  rfl

theorem readItems_none :
    readItems Options.default.fence n [] = .ok (([] : List (List Block)).map (Item.mk .plain)) := by
  rw [readItems]
  rfl

theorem readBlocks_bullets {l : Text} {m : ListMarker} (marked : listMarker? l = some m)
    (bullet : m.ordered = false ∧ m.number = 1)
    (plain : openFence? Options.default.fence l = none ∧ rawTag? l = none ∧
      definitionLine? l = none ∧ heading? l = none)
    (bare : ¬ l.isBlank ∧ ¬ isOutlineLine l ∧ ¬ isRule l ∧ ¬ isQuoteLine l)
    {raws : List RawItem} {taken : Nat} (run : listRun false 0 (l :: ls) = ⟨raws, true, taken⟩)
    (all : taken = ls.length + 1) {items : List (List Block)}
    (read : readItems Options.default.fence n raws = .ok (items.map (Item.mk .plain))) :
    readBlocks Options.default.fence .item n (l :: ls) = .ok [bulletList items] := by
  obtain ⟨fenced, raw, definition, heading⟩ := plain
  obtain ⟨filled, outline, rule, quote⟩ := bare
  have step : blockAt Options.default.fence .item l ls = .list false 1 ⟨raws, true, taken⟩ := by
    simp [blockAt, fencedAt, fenced, indentedAt, outlineAt, outline, rawAt, raw, definitionAt,
      definition, ruleAt, rule, headingAt, heading, quoteAt, quote, listAt, marked, bullet, run]
  rw [readBlocks_list filled step, read, all, Nat.add_sub_cancel, List.drop_length, readBlocks_nil]
  rfl

end Bullets

theorem lines_deepSample :
    lines deepSample = ["- a".toList, "      - b".toList, "        - c".toList] := by decide

theorem lines_deepTabbedSample :
    lines deepTabbedSample = ["- a".toList, "      - b".toList, "\t\t- c".toList] := by decide

theorem readFragment_deepSample :
    readFragment Options.default.fence deepSample = .ok deepBlocks := by
  have outer : listRun false 0 ["- a".toList, "      - b".toList, "        - c".toList] =
      ⟨[⟨0, .plain, ["a".toList, "    - b".toList, "      - c".toList]⟩], true, 3⟩ := by cbv
  have middle : listRun false 0 ["    - b".toList, "      - c".toList] =
      ⟨[⟨0, .plain, ["b".toList, "- c".toList]⟩], true, 2⟩ := by cbv
  have inner : listRun false 0 ["- c".toList] = ⟨[⟨0, .plain, ["c".toList]⟩], true, 1⟩ := by cbv
  rw [readFragment, lines_deepSample, deepBlocks]
  refine readBlocks_bullets (m := ⟨0, false, 1, 2, "a".toList⟩) (by decide) ⟨rfl, rfl⟩
    (by decide) (by decide) outer rfl (readItems_bullets (by decide) ?_ readItems_none)
  refine readBlocks_textLine (by decide) (by decide) (by decide) ?_
  refine readBlocks_bullets (m := ⟨4, false, 1, 6, "b".toList⟩) (by decide) ⟨rfl, rfl⟩
    (by decide) (by decide) middle rfl (readItems_bullets (by decide) ?_ readItems_none)
  refine readBlocks_textLine (by decide) (by decide) (by decide) ?_
  refine readBlocks_bullets (m := ⟨0, false, 1, 2, "c".toList⟩) (by decide) ⟨rfl, rfl⟩
    (by decide) (by decide) inner rfl (readItems_bullets (by decide) ?_ readItems_none)
  exact readBlocks_textLine (by decide) rfl rfl readBlocks_nil

theorem readFragment_deepTabbedSample :
    readFragment Options.default.fence deepTabbedSample = .ok deepTabbedBlocks := by
  have outer : listRun false 0 ["- a".toList, "      - b".toList, "\t\t- c".toList] =
      ⟨[⟨0, .plain, ["a".toList, "    - b".toList, "  \t- c".toList]⟩], true, 3⟩ := by cbv
  have inner : listRun false 0 ["    - b".toList, "  \t- c".toList] =
      ⟨[⟨0, .plain, ["b".toList]⟩, ⟨1, .plain, ["c".toList]⟩], true, 2⟩ := by cbv
  rw [readFragment, lines_deepTabbedSample, deepTabbedBlocks]
  refine readBlocks_bullets (m := ⟨0, false, 1, 2, "a".toList⟩) (by decide) ⟨rfl, rfl⟩
    (by decide) (by decide) outer rfl (readItems_bullets (by decide) ?_ readItems_none)
  refine readBlocks_textLine (by decide) (by decide) (by decide) ?_
  refine readBlocks_bullets (m := ⟨4, false, 1, 6, "b".toList⟩) (by decide) ⟨rfl, rfl⟩
    (by decide) (by decide) inner rfl
    (readItems_bullets (by decide) ?_ (readItems_bullets (by decide) ?_ readItems_none))
  · exact readBlocks_textLine (by decide) rfl rfl readBlocks_nil
  · exact readBlocks_textLine (by decide) rfl rfl readBlocks_nil

/-- The second tab moves to another stop once the line is taken back to column two, so that the
last item goes up by one level. -/
theorem tabs_recounted :
    (List.Forall₂ SameColumns (lines deepSample) (lines deepTabbedSample) ∧
      ((lines deepSample).head?.bind listMarker?).map ListMarker.indent = some 0 ∧
      '<' ∉ deepSample ∧ '\x60' ∉ deepSample) ∧
    readFragment Options.default.fence deepSample = .ok deepBlocks ∧
    readFragment Options.default.fence deepTabbedSample = .ok deepTabbedBlocks ∧
    deepBlocks ≠ deepTabbedBlocks := by
  refine ⟨⟨?_, by decide, by decide, by decide⟩, readFragment_deepSample,
    readFragment_deepTabbedSample, ?_⟩
  · rw [lines_deepSample, lines_deepTabbedSample]
    exact .cons ⟨rfl, rfl, rfl⟩ (.cons ⟨rfl, rfl, rfl⟩ (.cons ⟨rfl, rfl, rfl⟩ .nil))
  · simp [deepBlocks, deepTabbedBlocks, bulletList]

end CommentMarkup
