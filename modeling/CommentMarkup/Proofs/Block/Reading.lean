import CommentMarkup.Block.Reader
import Mathlib.Data.List.Forall2

/-!
# Induction over reading

How `readBlocks` goes on after each step, and the induction that every fact about all blocks of a
text uses: `readBlocks_induction` has one case for each way in which reading goes on.
-/

namespace CommentMarkup

theorem bind_ok {ε α β : Type} {x : Except ε α} {f : α → Except ε β} {b : β}
    (h : x >>= f = .ok b) : ∃ a, x = .ok a ∧ f a = .ok b := by
  cases x with
  | error e => cases h
  | ok a => exact ⟨a, rfl, h⟩

section Equations

variable {fence : Text} {ctx : Context} {n : Nat} {l : Text} {ls : List Text}

theorem readBlocks_nil : readBlocks fence ctx n [] = .ok [] := by
  rw [readBlocks]

theorem readBlocks_blank (blank : l.isBlank) :
    readBlocks fence ctx n (l :: ls) = readBlocks fence ctx (n + 1) ls := by
  rw [readBlocks, if_pos blank]

theorem readBlocks_leaf (filled : ¬ l.isBlank) {block : Block} {more : Nat}
    (step : blockAt fence ctx l ls = .leaf block more) :
    readBlocks fence ctx n (l :: ls) =
      (do
        let blocks ← readBlocks fence ctx (n + (more + 1)) (ls.drop more)
        return block :: blocks) := by
  rw [readBlocks, if_neg filled]
  split <;> rename_i other
  · rw [step] at other
    cases other
    rfl
  all_goals
    rw [step] at other
    cases other

theorem readBlocks_list (filled : ¬ l.isBlank) {ordered : Bool} {start : Nat} {run : ListRun}
    (step : blockAt fence ctx l ls = .list ordered start run) :
    readBlocks fence ctx n (l :: ls) =
      (do
        let items ← readItems fence n run.items
        let blocks ← readBlocks fence ctx (n + run.taken) (ls.drop (run.taken - 1))
        return .list ordered start run.tight items :: blocks) := by
  rw [readBlocks, if_neg filled]
  split <;> rename_i other
  · rw [step] at other
    cases other
  · rw [step] at other
    cases other
    rfl
  all_goals
    rw [step] at other
    cases other

theorem readBlocks_footnote (filled : ¬ l.isBlank) {label : Text} {body : List Text} {more : Nat}
    (step : blockAt fence ctx l ls = .footnote label body more) :
    readBlocks fence ctx n (l :: ls) =
      (do
        let inner ← readBlocks fence .item n (lines (unlines body))
        let blocks ← readBlocks fence ctx (n + (more + 1)) (ls.drop more)
        return .footnoteDef label inner :: blocks) := by
  rw [readBlocks, if_neg filled]
  split <;> rename_i other
  · rw [step] at other
    cases other
  · rw [step] at other
    cases other
  · rw [step] at other
    cases other
    rfl
  · rw [step] at other
    cases other

theorem readBlocks_malformed (filled : ¬ l.isBlank) {reason : Reason}
    (step : blockAt fence ctx l ls = .malformed reason) :
    readBlocks fence ctx n (l :: ls) = .error ⟨n, reason⟩ := by
  rw [readBlocks, if_neg filled]
  split <;> rename_i other
  all_goals
    rw [step] at other
    cases other
  rfl

theorem readDocument_single (cut : lines l = [l]) (filled : ¬ l.isBlank) {block : Block}
    (step : blockAt fence .document l [] = .leaf block 0) : readDocument fence l = .ok [block] := by
  rw [readDocument, cut, readBlocks_leaf filled step, List.drop_nil, readBlocks_nil]
  rfl

end Equations

def ItemsRead (motive : Context → List Text → List Block → Prop) :
    List RawItem → List (Item Block) → Prop :=
  List.Forall₂ fun raw item =>
    item.bullet = raw.bullet ∧ motive .item (lines (unlines raw.body)) item.blocks

/-- What holds of each way to go on holds of all blocks that are read. -/
theorem readBlocks_induction {fence : Text} {motive : Context → List Text → List Block → Prop}
    (nil : ∀ ctx, motive ctx [] [])
    (blank : ∀ ctx l ls blocks, l.isBlank → motive ctx ls blocks → motive ctx (l :: ls) blocks)
    (leaf : ∀ ctx l ls block more blocks, ¬ l.isBlank →
      blockAt fence ctx l ls = .leaf block more → motive ctx (ls.drop more) blocks →
      motive ctx (l :: ls) (block :: blocks))
    (list : ∀ ctx l ls ordered start run items blocks, ¬ l.isBlank →
      blockAt fence ctx l ls = .list ordered start run → ItemsRead motive run.items items →
      motive ctx (ls.drop (run.taken - 1)) blocks →
      motive ctx (l :: ls) (.list ordered start run.tight items :: blocks))
    (footnote : ∀ ctx l ls label body more inner blocks, ¬ l.isBlank →
      blockAt fence ctx l ls = .footnote label body more →
      motive .item (lines (unlines body)) inner → motive ctx (ls.drop more) blocks →
      motive ctx (l :: ls) (.footnoteDef label inner :: blocks))
    {ctx : Context} {n : Nat} {ls : List Text} {blocks : List Block}
    (h : readBlocks fence ctx n ls = .ok blocks) : motive ctx ls blocks := by
  revert h
  revert blocks
  apply readBlocks.induct fence
    (fun ctx n ls => ∀ {blocks}, readBlocks fence ctx n ls = .ok blocks → motive ctx ls blocks)
    (fun n raws => ∀ items, readItems fence n raws = .ok items → ItemsRead motive raws items)
  case case1 =>
    intro ctx n blocks h
    rw [readBlocks_nil] at h
    cases h
    exact nil ctx
  case case2 =>
    intro ctx n l rest isBlank ih blocks h
    rw [readBlocks_blank isBlank] at h
    exact blank ctx l rest blocks isBlank (ih h)
  case case3 =>
    intro ctx n l rest filled block more step ih blocks h
    rw [readBlocks_leaf filled step] at h
    obtain ⟨others, after, h⟩ := bind_ok h
    cases h
    exact leaf ctx l rest block more others filled step (ih after)
  case case4 =>
    intro ctx n l rest filled ordered start run step inner ih blocks h
    rw [readBlocks_list filled step] at h
    obtain ⟨items, read, h⟩ := bind_ok h
    obtain ⟨others, after, h⟩ := bind_ok h
    cases h
    exact list ctx l rest ordered start run items others filled step (inner items read) (ih after)
  case case5 =>
    intro ctx n l rest filled label body more step inner ih blocks h
    rw [readBlocks_footnote filled step] at h
    obtain ⟨bodyBlocks, read, h⟩ := bind_ok h
    obtain ⟨others, after, h⟩ := bind_ok h
    cases h
    exact footnote ctx l rest label body more bodyBlocks others filled step (inner read) (ih after)
  case case6 =>
    intro ctx n l rest filled reason step blocks h
    rw [readBlocks_malformed filled step] at h
    cases h
  case case7 =>
    intro n items h
    rw [readItems] at h
    cases h
    exact .nil
  case case8 =>
    intro n raw rest inner ih items h
    rw [readItems] at h
    obtain ⟨blocks, read, h⟩ := bind_ok h
    obtain ⟨others, after, h⟩ := bind_ok h
    cases h
    exact .cons ⟨rfl, inner read⟩ (ih others after)

/-! ### Rules -/

theorem orElse_getD {x y : Option Step} {last step : Step} (h : (x <|> y).getD last = step) :
    x = some step ∨ y.getD last = step := by
  cases x with
  | none => exact .inr h
  | some found => exact .inl (congrArg some h)

/-- The block at a line is what one of the rules makes of it, or a paragraph. -/
theorem blockAt_cases {fence : Text} {ctx : Context} {l : Text} {ls : List Text} {step : Step}
    (h : blockAt fence ctx l ls = step) :
    fencedAt fence l ls = some step ∨ indentedAt ctx l ls = some step ∨
      outlineAt l = some step ∨ rawAt l ls = some step ∨ definitionAt l ls = some step ∨
      ruleAt l = some step ∨ headingAt l = some step ∨ quoteAt fence l ls = some step ∨
      listAt l ls = some step ∨ underlinedAt l ls = some step ∨
      paragraphAt fence ctx l ls = step := by
  unfold blockAt at h
  iterate 9
    rcases orElse_getD h with found | h
    · simp only [found, true_or, or_true]
  cases under : underlinedAt l ls with
  | none =>
    rw [under] at h
    simp only [show paragraphAt fence ctx l ls = step from h, or_true]
  | some found =>
    rw [under] at h
    simp only [show found = step from h, true_or, or_true]

inductive StepAt (fence : Text) (ctx : Context) (l : Text) (ls : List Text) : Step → Prop
  | fenced {info : Option Text} {n : Nat} (opens : openFence? fence l = some info)
      (closes : ls.findIdx? (isClosingFence fence) = some n) :
      StepAt fence ctx l ls (.leaf (.code (.fenced info)
        (literalText ((ls.take n).map (removeIndent (indentColumns l))))) (n + 1))
  | unclosedFence {info : Option Text} (opens : openFence? fence l = some info)
      (unclosed : ls.findIdx? (isClosingFence fence) = none) :
      StepAt fence ctx l ls (.malformed .unterminatedFence)
  | indented (document : ctx = .document) (code : isCodeLine l) :
      StepAt fence ctx l ls (.leaf
        (.code (if isTabbed l then .tabIndented else .spaceIndented)
          (literalText (dropCodeIndent l :: codeLines (isTabbed l) ls)))
        (codeLines (isTabbed l) ls).length)
  | outline (marked : isOutlineLine l) : StepAt fence ctx l ls (.leaf .outline 0)
  | raw {tag : Text} {n : Nat} (opens : rawTag? l = some tag)
      (closes : rawExtent? tag 0 (l :: ls) = some n) :
      StepAt fence ctx l ls
        (.leaf (.rawHtml tag (neutralizeTags (unlines ((l :: ls).take n)))) (n - 1))
  | unclosedTag {tag : Text} (opens : rawTag? l = some tag)
      (unclosed : rawExtent? tag 0 (l :: ls) = none) :
      StepAt fence ctx l ls (.malformed (.unterminatedTag tag))
  | abbreviation {d : DefinitionLine} (defines : definitionLine? l = some d)
      (kind : d.kind = .abbreviation) :
      StepAt fence ctx l ls (.leaf (.abbreviationDef d.label d.rest.trim) 0)
  | link {d : DefinitionLine} {target : Target} {more : Nat} (defines : definitionLine? l = some d)
      (kind : d.kind = .link) (proper : linkTarget? l d.rest ls.head? = some (target, more)) :
      StepAt fence ctx l ls (.leaf (.referenceDef d.label target) more)
  | footnote {d : DefinitionLine} (defines : definitionLine? l = some d)
      (kind : d.kind = .footnote) :
      StepAt fence ctx l ls (.footnote d.label
        (d.rest.trim :: (ls.takeWhile (continuesFootnote l)).map Text.trim)
        (ls.takeWhile (continuesFootnote l)).length)
  | rule (marked : isRule l) : StepAt fence ctx l ls (.leaf .rule 0)
  | heading {level : Nat} {text : Text} (marked : heading? l = some (level, text)) :
      StepAt fence ctx l ls (.leaf (headingBlock level text) 0)
  | quote (marked : isQuoteLine l) :
      StepAt fence ctx l ls (.leaf (.quote (quoteParagraphs (quoteLines fence false (l :: ls))))
        ((quoteLines fence false (l :: ls)).length - 1))
  | list {m : ListMarker} (marked : listMarker? l = some m) :
      StepAt fence ctx l ls (.list m.ordered m.number (listRun m.ordered 0 (l :: ls)))
  | underlined {level : Nat} (under : ls.head?.bind underline? = some level) :
      StepAt fence ctx l ls (.leaf (headingBlock level l.trim) 1)
  | paragraph :
      StepAt fence ctx l ls (.leaf
        (paragraph (l :: ls.take (paragraphExtent fence ctx ls))) (paragraphExtent fence ctx ls))

theorem stepAt {fence : Text} {ctx : Context} {l : Text} {ls : List Text} {step : Step}
    (h : blockAt fence ctx l ls = step) : StepAt fence ctx l ls step := by
  rcases blockAt_cases h with h | h | h | h | h | h | h | h | h | h | h
  · obtain ⟨info, opens, h⟩ := Option.map_eq_some_iff.mp h
    split at h <;> rename_i close <;> cases h
    · exact .unclosedFence opens close
    · exact .fenced opens close
  · unfold indentedAt at h
    split at h <;> cases h
    rename_i code
    simp only [Bool.and_eq_true, beq_iff_eq] at code
    exact .indented code.1 code.2
  · unfold outlineAt at h
    split at h <;> cases h
    exact .outline ‹_›
  · obtain ⟨tag, opens, h⟩ := Option.map_eq_some_iff.mp h
    split at h <;> rename_i close <;> cases h
    · exact .unclosedTag opens close
    · exact .raw opens close
  · obtain ⟨d, defines, h⟩ := Option.bind_eq_some_iff.mp h
    split at h <;> rename_i kind
    · cases h
      exact .abbreviation defines kind
    · obtain ⟨⟨target, taken⟩, proper, h⟩ := Option.map_eq_some_iff.mp h
      cases h
      exact .link defines kind proper
    · cases h
      exact .footnote defines kind
  · unfold ruleAt at h
    split at h <;> cases h
    exact .rule ‹_›
  · obtain ⟨⟨level, text⟩, marked, h⟩ := Option.map_eq_some_iff.mp h
    cases h
    exact .heading marked
  · unfold quoteAt at h
    split at h <;> cases h
    exact .quote ‹_›
  · obtain ⟨m, marked, h⟩ := Option.map_eq_some_iff.mp h
    cases h
    exact .list marked
  · obtain ⟨level, under, h⟩ := Option.map_eq_some_iff.mp h
    cases h
    exact .underlined under
  · cases h
    exact .paragraph

theorem listRun_taken_pos {l : Text} {m : ListMarker} (hm : listMarker? l = some m) (offset : Nat)
    (ls : List Text) : 0 < (listRun m.ordered offset (l :: ls)).taken := by
  unfold listRun
  simp only [hm, bne_self_eq_false, Bool.false_eq_true, if_false]
  split
  · simp only [ListRun.cons]
    omega
  · split
    · simp only [ListRun.cons, ListRun.loose]
      omega
    · exact Nat.succ_pos _

end CommentMarkup
