import CommentMarkup.Proofs.Block.Local
import CommentMarkup.Proofs.Block.Shape
import CommentMarkup.Proofs.Line.Escaped
import CommentMarkup.Proofs.Text.Indent

/-!
# Code holds its lines

Whatever stands between two fences, or is indented as code, becomes the literal text of one block,
line for line: no other rule looks inside. `code_verbatim` says this for both kinds of code.
-/

namespace CommentMarkup

open Text

/-! ### Lines -/

theorem lines_literalText {ls : List Text} (each : ∀ l ∈ ls, IsLine l) (t : Text) :
    lines (literalText ls ++ t) = ls ++ lines t := by
  induction ls with
  | nil => rfl
  | cons l ls ih =>
    rw [List.forall_mem_cons] at each
    have split : literalText (l :: ls) ++ t = l ++ '\n' :: (literalText ls ++ t) := by
      simp [literalText]
    rw [split, lines_isLine each.1, ih each.2, List.cons_append]

/-- Lines are found again in the text that they make, if the last one is not empty. -/
theorem lines_unlines_concat {ls : List Text} {last : Text} (each : ∀ l ∈ ls ++ [last], IsLine l)
    (filled : last ≠ []) : lines (unlines (ls ++ [last])) = ls ++ [last] := by
  rw [List.forall_mem_append, List.forall_mem_singleton] at each
  rw [unlines_concat, lines_literalText each.1, lines_singleton each.2.whole filled]

/-! ### Fences -/

def fencedText (fence : Text) (code : List Text) (rest : Text) : Text :=
  fence ++ '\n' :: (literalText code ++ (fence ++ '\n' :: rest))

theorem blockAt_fenced {fence l : Text} {ls : List Text} {info : Option Text} {n : Nat}
    (ctx : Context) (opens : openFence? fence l = some info)
    (closes : ls.findIdx? (isClosingFence fence) = some n) :
    blockAt fence ctx l ls = .leaf (.code (.fenced info)
      (literalText ((ls.take n).map (removeIndent (indentColumns l))))) (n + 1) := by
  have found : fencedAt fence l ls = some (.leaf (.code (.fenced info)
      (literalText ((ls.take n).map (removeIndent (indentColumns l))))) (n + 1)) := by
    rw [fencedAt, opens, Option.map_some, closes]
  rw [blockAt, found]
  rfl

section Fence

variable {fence : Text} (filled : fence ≠ []) (ink : ∀ c ∈ fence, ¬ isSpace c)

include filled ink

theorem startsWith_fence : fence.startsWith fun c => !isSpace c := by
  obtain ⟨c, u, rfl⟩ := List.exists_cons_of_ne_nil filled
  simpa [startsWith] using ink c List.mem_cons_self

theorem trimStart_fence : fence.trimStart = fence := by
  obtain ⟨c, u, rfl⟩ := List.exists_cons_of_ne_nil filled
  exact List.dropWhile_cons_of_neg (ink c List.mem_cons_self)

theorem openFence_fence : openFence? fence fence = some none := by
  obtain ⟨c, u, rfl⟩ := List.exists_cons_of_ne_nil filled
  have rest : dropLead? (c :: u) (c :: u) = some [] := dropLead_iff.mpr (List.append_nil _).symm
  rw [openFence?, trimStart_fence filled ink, rest]
  rfl

theorem isClosingFence_fence : isClosingFence fence fence := by
  have ending : fence.trimEnd = fence := by
    apply trimEnd_inked
    obtain ⟨u, c, eq⟩ := List.eq_nil_or_concat fence |>.resolve_left filled
    exact endsWith_iff.mpr ⟨u, c, by simpa using eq, by simpa using ink c (by simp [eq])⟩
  rw [isClosingFence, trim, trimStart_fence filled ink, ending, beq_self_eq_true]

omit filled in
theorem isLine_fence : IsLine fence where
  whole feed := ink '\n' feed (by decide)
  bare := endsWith_of_notMem fun carriage => ink '\r' carriage (by decide)

/-- A fence closes with the first line that is a fence, and all lines before it are code. -/
theorem blockAt_fence (ctx : Context) {code : List Text} (open_ : ∀ l ∈ code, l.trim ≠ fence)
    (ls : List Text) :
    blockAt fence ctx fence (code ++ fence :: ls) =
      .leaf (.code (.fenced none) (literalText code)) (code.length + 1) := by
  have closes : (code ++ fence :: ls).findIdx? (isClosingFence fence) = some code.length := by
    have inside : code.findIdx? (isClosingFence fence) = none := by
      rw [List.findIdx?_eq_none_iff]
      exact fun l member => by simpa [isClosingFence] using open_ l member
    rw [List.findIdx?_append, inside, List.findIdx?_cons, isClosingFence_fence filled ink]
    simp
  rw [blockAt_fenced ctx (openFence_fence filled ink) closes, List.take_left,
    indentColumns_margin (startsWith_fence filled ink), List.map_congr_left fun l _ =>
      removeIndent_zero l, List.map_id']

theorem readDocument_fencedText {code : List Text}
    (each : ∀ l ∈ code, IsLine l ∧ l.trim ≠ fence) (rest : Text) :
    readDocument fence (fencedText fence code rest) =
      match readDocument fence rest with
      | .ok blocks => .ok (.code (.fenced none) (literalText code) :: blocks)
      | .error ⟨line, reason⟩ => .error ⟨line + (code.length + 2), reason⟩ := by
  have line := isLine_fence ink
  have cut : lines (fencedText fence code rest) = fence :: (code ++ fence :: lines rest) := by
    rw [fencedText, lines_isLine line, lines_literalText fun l member => (each l member).1,
      lines_isLine line]
  have some : ¬ fence.isBlank := by
    obtain ⟨c, u, rfl⟩ := List.exists_cons_of_ne_nil filled
    simp [isBlank, ink c List.mem_cons_self]
  have step := blockAt_fence filled ink .document (fun l member => (each l member).2) (lines rest)
  have behind : (code ++ fence :: lines rest).drop (code.length + 1) = lines rest := by
    simp
  rw [readDocument, cut, readBlocks_leaf some step, behind, readBlocks_below, readDocument]
  cases readBlocks fence .document 1 (lines rest) <;> rfl

end Fence

/-! ### Indentation -/

def codeMark (tabbed : Bool) : Text := if tabbed then ['\t'] else codeIndent

/-- The line as indented code. Empty lines stay empty. -/
def codeIndented (tabbed : Bool) (l : Text) : Text :=
  if l.isEmpty then [] else codeMark tabbed ++ l

/-- Lines that can be indented as code: the first and the last one have content, all other blank
lines are empty, and the first one does not open a fence. -/
structure Indentable (fence : Text) (ls : List Text) : Prop where
  line : ∀ l ∈ ls, IsLine l
  gaps : ∀ l ∈ ls, l.isBlank → l = []
  first : ∃ l, ls.head? = some l ∧ ¬ l.isBlank ∧ openFence? fence l = none
  last : ∃ l, ls.getLast? = some l ∧ ¬ l.isBlank

section Indented

variable {tabbed : Bool} {l : Text}

theorem isBlank_codeMark (tabbed : Bool) : (codeMark tabbed).isBlank := by
  cases tabbed <;> decide

theorem isBlank_codeIndented (tabbed : Bool) (l : Text) :
    isBlank (codeIndented tabbed l) = l.isBlank := by
  unfold codeIndented
  split
  · rename_i empty
    rw [List.isEmpty_iff.mp empty]
  · have mark : (codeMark tabbed).all isSpace := isBlank_codeMark tabbed
    rw [isBlank, List.all_append, mark, Bool.true_and]
    rfl

theorem codeIndented_filled (filled : l ≠ []) : codeIndented tabbed l = codeMark tabbed ++ l := by
  rw [codeIndented, if_neg (by simpa using filled)]

theorem isTabbed_codeIndented (filled : l ≠ []) : isTabbed (codeIndented tabbed l) = tabbed := by
  rw [codeIndented_filled filled]
  cases tabbed <;> rfl

theorem isCodeLine_codeIndented (filled : ¬ l.isBlank) : isCodeLine (codeIndented tabbed l) := by
  have some : l ≠ [] := by
    rintro rfl
    exact filled rfl
  have inked : isBlank (codeIndented tabbed l) = false := by
    rw [isBlank_codeIndented]
    simpa using filled
  rw [isCodeLine, inked, codeIndented_filled some]
  cases tabbed <;> rfl

theorem dropCodeIndent_codeIndented (filled : l ≠ []) :
    dropCodeIndent (codeIndented tabbed l) = l := by
  rw [dropCodeIndent, isTabbed_codeIndented filled, codeIndented_filled filled]
  cases tabbed with
  | true => rfl
  | false => rw [if_neg Bool.false_ne_true, codeMark, if_neg Bool.false_ne_true,
      dropLead_iff.mpr rfl, Option.getD_some]

theorem openFence_codeIndented {fence : Text} (filled : l ≠ []) :
    openFence? fence (codeIndented tabbed l) = openFence? fence l := by
  have mark := List.all_eq_true.mp (isBlank_codeMark tabbed)
  have same : trimStart (codeIndented tabbed l) = l.trimStart := by
    rw [codeIndented_filled filled, trimStart, List.dropWhile_append_of_pos mark, trimStart]
  unfold openFence?
  rw [same]

theorem isLine_codeIndented (line : IsLine l) : IsLine (codeIndented tabbed l) := by
  by_cases empty : l = []
  · subst empty
    exact line
  · rw [codeIndented_filled empty]
    refine ⟨?_, ?_⟩
    · have mark : '\n' ∉ codeMark tabbed := by cases tabbed <;> decide
      simpa [mark] using line.whole
    · obtain ⟨u, c, rfl⟩ := List.eq_nil_or_concat l |>.resolve_left empty
      have bare := line.bare
      simp only [List.concat_eq_append, endsWith, List.reverse_append, List.reverse_singleton,
        startsWith, List.cons_append, List.nil_append] at bare ⊢
      exact bare

/-- Indented lines, the last of which has content, are code up to their end. -/
theorem codeLines_codeIndented {ls : List Text} (gaps : ∀ l ∈ ls, l.isBlank → l = [])
    (last : ∀ l, ls.getLast? = some l → ¬ l.isBlank) :
    codeLines tabbed (ls.map (codeIndented tabbed)) = ls := by
  have run : codeRun tabbed (ls.map (codeIndented tabbed)) = ls.map (codeIndented tabbed) := by
    rw [codeRun, List.takeWhile_eq_self_iff, List.forall_mem_map]
    intro l member
    by_cases blank : l.isBlank
    · rw [isBlank_codeIndented, blank, Bool.true_or]
    · have some : l ≠ [] := by
        rintro rfl
        exact blank rfl
      rw [continuesCode, isCodeLine_codeIndented blank, isTabbed_codeIndented some]
      simp
  have whole : ((ls.map (codeIndented tabbed)).reverse.dropWhile isBlank).reverse =
      ls.map (codeIndented tabbed) := by
    rcases List.eq_nil_or_concat ls with rfl | ⟨front, l, rfl⟩
    · rfl
    · have filled := last l (by simp)
      rw [← isBlank_codeIndented tabbed] at filled
      simp only [List.concat_eq_append, List.map_append, List.map_singleton, List.reverse_append,
        List.reverse_singleton, List.singleton_append]
      rw [List.dropWhile_cons_of_neg filled]
      simp
  have back : ∀ l ∈ ls, (if isBlank (codeIndented tabbed l) then ([] : Text)
      else dropCodeIndent (codeIndented tabbed l)) = l := by
    intro l member
    rw [isBlank_codeIndented]
    split
    · rename_i blank
      exact (gaps l member blank).symm
    · rename_i filled
      apply dropCodeIndent_codeIndented
      rintro rfl
      exact filled rfl
  rw [codeLines, ← codeRun, run, whole, List.map_map]
  exact (List.map_congr_left back).trans (List.map_id' ls)

end Indented

theorem readDocument_codeIndented {fence : Text} (tabbed : Bool) {ls : List Text}
    (indentable : Indentable fence ls) :
    readDocument fence (unlines (ls.map (codeIndented tabbed))) =
      .ok [.code (if tabbed then .tabIndented else .spaceIndented) (literalText ls)] := by
  obtain ⟨first, head, filled, fenced⟩ := indentable.first
  obtain ⟨others, rfl⟩ := List.head?_eq_some_iff.mp head
  have some : first ≠ [] := by
    rintro rfl
    exact filled rfl
  have cut : lines (unlines ((first :: others).map (codeIndented tabbed))) =
      (first :: others).map (codeIndented tabbed) := by
    obtain ⟨last, ending, inked⟩ := indentable.last
    obtain ⟨front, eq⟩ := List.getLast?_eq_some_iff.mp ending
    have line := indentable.line
    rw [eq] at line ⊢
    rw [List.map_append, List.map_singleton]
    apply lines_unlines_concat
    · rw [← List.map_singleton, ← List.map_append, List.forall_mem_map]
      exact fun l member => isLine_codeIndented (line l member)
    · intro empty
      rw [← isBlank_codeIndented tabbed, empty] at inked
      exact inked rfl
  have code : codeLines tabbed (others.map (codeIndented tabbed)) = others := by
    apply codeLines_codeIndented
    · exact fun l member => indentable.gaps l (List.mem_cons_of_mem _ member)
    · intro l ending
      obtain ⟨last, whole, inked⟩ := indentable.last
      rw [List.getLast?_cons, ending] at whole
      cases whole
      exact inked
  have step : blockAt fence .document (codeIndented tabbed first)
      (others.map (codeIndented tabbed)) =
        .leaf (.code (if tabbed then .tabIndented else .spaceIndented)
          (literalText (first :: others))) others.length := by
    have unfenced : fencedAt fence (codeIndented tabbed first)
        (others.map (codeIndented tabbed)) = none := by
      rw [fencedAt, openFence_codeIndented some, fenced, Option.map_none]
    rw [blockAt, unfenced, indentedAt, isCodeLine_codeIndented filled,
      isTabbed_codeIndented some, code, dropCodeIndent_codeIndented some]
    rfl
  have inked : ¬ isBlank (codeIndented tabbed first) := by rwa [isBlank_codeIndented]
  rw [readDocument, cut, List.map_cons, readBlocks_leaf inked step,
    List.drop_of_length_le (by rw [List.length_map]), readBlocks_nil]
  rfl

/-- Code is kept line for line, whatever the lines look like. Between two fences it ends at the
first line that is a fence, and what stands behind is read on its own; indented lines are one block
of their kind of indentation. -/
theorem code_verbatim (fence : Text) :
    (fence ≠ [] → (∀ c ∈ fence, ¬ isSpace c) → ∀ code rest,
      (∀ l ∈ code, IsLine l ∧ l.trim ≠ fence) →
        readDocument fence (fencedText fence code rest) =
          match readDocument fence rest with
          | .ok blocks => .ok (.code (.fenced none) (literalText code) :: blocks)
          | .error ⟨line, reason⟩ => .error ⟨line + (code.length + 2), reason⟩) ∧
    ∀ ls, Indentable fence ls → ∀ tabbed,
      readDocument fence (unlines (ls.map (codeIndented tabbed))) =
        .ok [.code (if tabbed then .tabIndented else .spaceIndented) (literalText ls)] :=
  ⟨fun filled ink _ rest each => readDocument_fencedText filled ink each rest,
    fun _ indentable tabbed => readDocument_codeIndented tabbed indentable⟩

def markersSample : List Text := ["- a".toList, "[b]: c".toList]

def indentedSample : List Text := ["# a".toList, [], "\tb".toList]

theorem indentable_sample : Indentable "---".toList indentedSample where
  line := by
    rw [indentedSample, List.forall_mem_cons, List.forall_mem_cons, List.forall_mem_singleton]
    exact ⟨⟨by decide, by decide⟩, ⟨by decide, by decide⟩, ⟨by decide, by decide⟩⟩
  gaps := by decide
  first := ⟨_, rfl, by decide, by decide⟩
  last := ⟨_, rfl, by decide⟩

theorem code_verbatim_hyphens :
    readDocument "---".toList "---\n- a\n[b]: c\n---\nx".toList =
      .ok [.code (.fenced none) "- a\n[b]: c\n".toList, paragraph ["x".toList]] ∧
    readDocument "---".toList "\t# a\n\n\t\tb".toList =
      .ok [.code .tabIndented "# a\n\n\tb\n".toList] := by
  obtain ⟨fenced, indented⟩ := code_verbatim "---".toList
  have ink : ∀ c ∈ "---".toList, ¬ isSpace c := by simpa using (by decide : ¬ isSpace '-')
  have code : ∀ l ∈ markersSample, IsLine l ∧ trim l ≠ "---".toList := by
    rw [markersSample, List.forall_mem_cons, List.forall_mem_singleton]
    exact ⟨⟨⟨by decide, by decide⟩, by decide⟩, ⟨by decide, by decide⟩, by decide⟩
  have rest : readDocument "---".toList "x".toList = .ok [paragraph ["x".toList]] := by
    have step : blockAt "---".toList .document "x".toList [] = .leaf (paragraph ["x".toList]) 0 :=
      blockAt_text (by decide +kernel) rfl
    exact readDocument_single (by decide) (by decide) step
  have whole := fenced (by decide) ink markersSample "x".toList code
  rw [rest] at whole
  exact ⟨whole, indented indentedSample indentable_sample true⟩

end CommentMarkup
