import CommentMarkup.Options
import CommentMarkup.Proofs.Block.Inner
import CommentMarkup.Proofs.Block.TextLine
import CommentMarkup.Proofs.Line.Shape
import CommentMarkup.Proofs.Tree.Nested
import Mathlib

/-!
# Shapes of blocks

What every block of a tree satisfies that is read from a text: `blocks_shaped`. The rules for single
lines give a block its own shape, and what is read inside it is an item or a footnote, where no
indented code stands.
-/

namespace CommentMarkup

open Text

/-! ### Shapes -/

/-- The source of a paragraph: lines that start with ink, and no white space at the end. -/
structure IsParagraphText (t : Text) : Prop where
  filled : t ≠ []
  line : ∀ l ∈ cutAt (· == '\n') t, ¬ isBlank l ∧ ¬ startsWith isSpace l
  ending : ¬ t.endsWith isSpace

def Block.isParagraph : Block → Bool
  | .paragraph _ => true
  | _ => false

def Block.isIndentedCode : Block → Bool
  | .code .tabIndented _ | .code .spaceIndented _ => true
  | _ => false

def Block.Shaped : Block → Prop
  | .heading level content anchor =>
    (1 ≤ level ∧ level ≤ 6) ∧ IsTrimmed content.source ∧ '\n' ∉ content.source ∧
      content.spans = [] ∧ anchor = []
  | .paragraph content => IsParagraphText content.source ∧ content.spans = []
  | .list ordered start _ items =>
    items ≠ [] ∧ (if ordered then start ≤ 999999999 else start = 1) ∧
      ∀ inner ∈ itemsNested items, ¬ inner.isIndentedCode
  | .quote blocks => ∀ inner ∈ blocks, inner.isParagraph
  | .rawHtml tag _ => tag ∈ blockTags
  | .abbreviationDef term _ => IsLabel term
  | .referenceDef label target => IsLabel label ∧ target.url ≠ []
  | .footnoteDef label body => IsLabel label ∧ ∀ inner ∈ CommentMarkup.nested body, ¬ inner.isIndentedCode
  | .code .. | .rule | .outline => True

structure Block.Fits (ctx : Context) (block : Block) : Prop where
  shaped : block.Shaped
  unindented : ctx = .item → ¬ block.isIndentedCode

/-- What fits inside an item or footnote fits where that stands. -/
theorem Block.Fits.outer {ctx : Context} {block : Block} (fits : block.Fits .item) :
    block.Fits ctx := ⟨fits.shaped, fun _ => fits.unindented rfl⟩

/-! ### Paragraphs and quotes -/

theorem unlines_concat (ls : List Text) (l : Text) : unlines (ls ++ [l]) = literalText ls ++ l := by
  induction ls with
  | nil => simp [unlines, literalText]
  | cons k ls ih =>
    have behind : unlines (k :: (ls ++ [l])) = k ++ '\n' :: unlines (ls ++ [l]) := by
      cases ls <;> exact unlines_cons_cons _ _ _
    rw [List.cons_append, behind, ih]
    simp [literalText]

/-- Only the last line of a paragraph is trimmed at its end. -/
theorem paragraphText_concat (ls : List Text) {l : Text} (filled : ¬ l.isBlank) :
    paragraphText (ls ++ [l]) = unlines (ls.map trimStart ++ [l.trim]) := by
  have ink : ¬ l.trimStart.isBlank := by
    rwa [isBlank_iff_inkCount, inkCount_trimStart, ← isBlank_iff_inkCount]
  rw [paragraphText, List.map_append, List.map_singleton, unlines_concat, trimEnd_append _ ink,
    unlines_concat, trim]

theorem isParagraphText_paragraphText {ls : List Text} (some : ls ≠ [])
    (filled : ∀ l ∈ ls, ¬ l.isBlank) (whole : ∀ l ∈ ls, '\n' ∉ l) :
    IsParagraphText (paragraphText ls) := by
  obtain ⟨front, last, rfl⟩ : ∃ front last, ls = front ++ [last] :=
    ⟨_, _, (List.dropLast_concat_getLast some).symm⟩
  have lastFilled : ¬ last.isBlank := filled last (by simp)
  have cut : cutAt (· == '\n') (paragraphText (front ++ [last])) =
      front.map trimStart ++ [last.trim] := by
    rw [paragraphText_concat front lastFilled]
    apply cutAt_unlines (by simp)
    intro l member
    rcases List.mem_append.mp member with early | late
    · obtain ⟨k, inside, rfl⟩ := List.mem_map.mp early
      exact fun feed => whole k (List.mem_append_left _ inside)
        ((List.dropWhile_suffix isSpace).subset feed)
    · rw [List.mem_singleton.mp late]
      exact fun feed => whole last (by simp) (last.trim_infix.subset feed)
  have inked : ∀ l ∈ cutAt (· == '\n') (paragraphText (front ++ [last])),
      startsWith (fun c => !isSpace c) l := by
    rw [cut]
    intro l member
    rcases List.mem_append.mp member with early | late
    · obtain ⟨k, inside, rfl⟩ := List.mem_map.mp early
      exact startsWith_trimStart (filled k (List.mem_append_left _ inside))
    · rw [List.mem_singleton.mp late]
      exact startsWith_trim lastFilled
  refine ⟨?_, fun l member => ?_, not_endsWith_dropEndWhile isSpace _⟩
  · intro empty
    rw [empty] at inked
    exact Bool.false_ne_true (inked [] List.mem_cons_self)
  · obtain ⟨c, u, rfl, ink⟩ := startsWith_iff.mp (inked l member)
    have ink' : isSpace c = false := by simpa using ink
    simp [isBlank, startsWith, ink']

theorem mem_quoteParagraphs {ls : List Text} {block : Block} (member : block ∈ quoteParagraphs ls) :
    ∃ group, block = paragraph group ∧ group ≠ [] ∧ ∀ l ∈ group, l ∈ ls ∧ ¬ l.isBlank := by
  obtain ⟨group, found, rfl⟩ := List.mem_map.mp member
  obtain ⟨piece, filled⟩ := List.mem_filter.mp found
  exact ⟨group, rfl, by simpa using filled, fun l inner => of_mem_cutAt piece inner⟩

theorem nested_paragraphs (groups : List (List Text)) :
    nested (groups.map paragraph) = groups.map paragraph := by
  induction groups with
  | nil => rfl
  | cons group groups ih =>
    rw [List.map_cons, nested, ih]
    rfl

/-! ### Single blocks -/

section Step

variable {fence : Text} {ctx : Context} {l : Text} {ls : List Text}

theorem paragraph_fits {ls : List Text} (some : ls ≠ []) (filled : ∀ l ∈ ls, ¬ l.isBlank)
    (whole : ∀ l ∈ ls, '\n' ∉ l) : (paragraph ls).Fits ctx :=
  ⟨⟨isParagraphText_paragraphText some filled whole, rfl⟩, fun _ => Bool.false_ne_true⟩

theorem heading_fits {level : Nat} {text : Text} (bounds : 1 ≤ level ∧ level ≤ 6)
    (trimmed : text.IsTrimmed) (whole : '\n' ∉ text) : (headingBlock level text).Fits ctx :=
  ⟨⟨bounds, trimmed, whole, rfl, rfl⟩, fun _ => Bool.false_ne_true⟩

theorem paragraphExtent_filled (fence : Text) (ctx : Context) (ls : List Text) :
    ∀ l ∈ ls.take (paragraphExtent fence ctx ls), ¬ l.isBlank := by
  induction ls with
  | nil => simp
  | cons l ls ih =>
    rw [paragraphExtent]
    split
    · simp
    · rename_i goesOn
      simp only [Bool.or_eq_true, not_or] at goesOn
      exact List.forall_mem_cons.mpr ⟨goesOn.1.1, ih⟩

/-- What a rule makes of a line and the lines after it fits in its place. -/
theorem leaf_fits (filled : ¬ l.isBlank) (whole : ∀ k ∈ l :: ls, '\n' ∉ k) {block : Block}
    {more : Nat} (step : blockAt fence ctx l ls = .leaf block more) :
    ∀ inner ∈ block.nested, inner.Fits ctx := by
  have first : '\n' ∉ l := whole l List.mem_cons_self
  have single {b : Block} (fits : b.Fits ctx) : ∀ inner ∈ [b], inner.Fits ctx := by
    rwa [List.forall_mem_singleton]
  cases stepAt step with
  | fenced => exact single ⟨trivial, fun _ => Bool.false_ne_true⟩
  | indented document => exact single ⟨trivial, fun item => nomatch document.symm.trans item⟩
  | outline | rule => exact single ⟨trivial, fun _ => Bool.false_ne_true⟩
  | @raw tag _ opens =>
    have known : tag ∈ blockTags := by
      simpa [isBlockTag] using (Option.filter_eq_some_iff.mp opens).2
    exact single ⟨known, fun _ => Bool.false_ne_true⟩
  | abbreviation defines =>
    exact single ⟨isLabel_definitionLine defines, fun _ => Bool.false_ne_true⟩
  | link defines _ proper =>
    exact single ⟨⟨isLabel_definitionLine defines, linkTarget_url proper⟩,
      fun _ => Bool.false_ne_true⟩
  | heading marked =>
    obtain ⟨bounds, trimmed⟩ := heading_shape marked
    exact single (heading_fits bounds trimmed fun feed =>
      first ((strips_heading marked).isInfix.subset feed))
  | underlined under =>
    obtain ⟨below, _, level⟩ := Option.bind_eq_some_iff.mp under
    exact single (heading_fits (underline_level level) (isTrimmed_trim l) fun feed =>
      first (l.trim_infix.subset feed))
  | quote marked =>
    have lines : ∀ k ∈ quoteLines fence false (l :: ls), '\n' ∉ k :=
      hereditary_whole.cuttings (cuttings_quote fence marked ls) (forall_mem_taken whole _)
    intro inner member
    rcases List.mem_cons.mp member with rfl | inside
    · refine ⟨fun block listed => ?_, fun _ => Bool.false_ne_true⟩
      obtain ⟨group, rfl, _⟩ := mem_quoteParagraphs listed
      rfl
    · rw [quoteParagraphs, nested_paragraphs] at inside
      obtain ⟨group, rfl, some, each⟩ := mem_quoteParagraphs inside
      exact paragraph_fits some (fun k listed => (each k listed).2)
        fun k listed => lines k (each k listed).1
  | paragraph =>
    have inked : ∀ k ∈ l :: ls.take (paragraphExtent fence ctx ls), ¬ isBlank k :=
      List.forall_mem_cons.mpr ⟨filled, paragraphExtent_filled fence ctx ls⟩
    exact single (paragraph_fits (List.cons_ne_nil _ _) inked (forall_mem_taken whole _))

theorem list_fits {ordered : Bool} {start : Nat} {run : ListRun} {items : List (Item Block)}
    (step : blockAt fence ctx l ls = .list ordered start run) (some : run.items ≠ [] → items ≠ [])
    (inside : ∀ inner ∈ itemsNested items, inner.Fits .item) :
    ∀ inner ∈ Block.nested (.list ordered start run.tight items), inner.Fits ctx := by
  cases stepAt step with
  | list marked =>
    refine List.forall_mem_cons.mpr ⟨⟨⟨some (listRun_items_ne_nil marked 0 ls),
      listMarker_number marked, ?_⟩, fun _ => Bool.false_ne_true⟩, ?_⟩
    · exact fun inner member => (inside inner member).unindented rfl
    · exact fun inner member => (inside inner member).outer

theorem footnote_fits {label : Text} {body : List Text} {more : Nat} {blocks : List Block}
    (step : blockAt fence ctx l ls = .footnote label body more)
    (inside : ∀ inner ∈ nested blocks, inner.Fits .item) :
    ∀ inner ∈ Block.nested (.footnoteDef label blocks), inner.Fits ctx := by
  cases stepAt step with
  | footnote defines =>
    refine List.forall_mem_cons.mpr ⟨⟨⟨isLabel_definitionLine defines, ?_⟩,
      fun _ => Bool.false_ne_true⟩, ?_⟩
    · exact fun inner member => (inside inner member).unindented rfl
    · exact fun inner member => (inside inner member).outer

end Step

/-! ### Whole texts -/

theorem items_fit {raws : List RawItem} {items : List (Item Block)}
    (whole : ∀ raw ∈ raws, ∀ l ∈ lines (unlines raw.body), '\n' ∉ l)
    (read : ItemsRead (fun ctx ls blocks => (∀ l ∈ ls, '\n' ∉ l) →
      ∀ block ∈ nested blocks, block.Fits ctx) raws items) :
    ∀ inner ∈ itemsNested items, inner.Fits .item := by
  induction read with
  | nil => nofun
  | @cons raw item raws items inner _ ih =>
    rw [List.forall_mem_cons] at whole
    rw [itemsNested]
    exact List.forall_mem_append.mpr ⟨inner.2 whole.1, ih whole.2⟩

/-- Every block that is read from lines fits in its place, at any depth. -/
theorem readBlocks_fit {fence : Text} {ctx : Context} {n : Nat} {ls : List Text}
    {blocks : List Block} (whole : ∀ l ∈ ls, '\n' ∉ l)
    (read : readBlocks fence ctx n ls = .ok blocks) : ∀ block ∈ nested blocks, block.Fits ctx := by
  refine readBlocks_induction (motive := fun ctx ls blocks => (∀ l ∈ ls, '\n' ∉ l) →
    ∀ block ∈ nested blocks, block.Fits ctx) ?_ ?_ ?_ ?_ ?_ read whole
  · nofun
  · intro _ l ls blocks _ ih whole
    exact ih fun k member => whole k (List.mem_cons_of_mem _ member)
  · intro ctx l ls block more blocks filled step ih whole
    have others := ih (forall_mem_behind whole _)
    exact List.forall_mem_append.mpr ⟨leaf_fits filled whole step, others⟩
  · intro ctx l ls ordered start run items blocks _ step inner ih whole
    have others := ih (forall_mem_behind whole _)
    have some : run.items ≠ [] → items ≠ [] := by
      rintro some rfl
      exact some (List.forall₂_nil_right_iff.mp inner)
    have inside := items_fit (hereditary_whole.list whole step) inner
    exact List.forall_mem_append.mpr ⟨list_fits step some inside, others⟩
  · intro ctx l ls label body more inner blocks _ step ihInner ih whole
    have others := ih (forall_mem_behind whole _)
    have inside := ihInner (hereditary_whole.footnote whole step)
    exact List.forall_mem_append.mpr ⟨footnote_fits step inside, others⟩

/-- Every block that is read from a text has its shape, at any depth, and outside the flow of a
document none is indented code. -/
theorem blocks_shaped (fence text : Text) :
    (∀ blocks, readDocument fence text = .ok blocks → ∀ block ∈ nested blocks, block.Shaped) ∧
    ∀ blocks, readFragment fence text = .ok blocks →
      ∀ block ∈ nested blocks, block.Shaped ∧ ¬ block.isIndentedCode := by
  have whole := lines_whole text
  refine ⟨fun blocks read block member => (readBlocks_fit whole read block member).shaped,
    fun blocks read block member => ?_⟩
  have fits := readBlocks_fit whole read block member
  exact ⟨fits.shaped, fits.unindented rfl⟩

def shapedSample : Text := "7. # T ##\n[^n]: *[c]: d".toList

def shapedBlocks : List Block :=
  [.list true 7 true [⟨.plain, [headingBlock 1 "T".toList]⟩],
    .footnoteDef "n".toList [.abbreviationDef "c".toList "d".toList]]

theorem readBlocks_shapedSample (ctx : Context) :
    readBlocks Options.default.fence ctx 1 (lines shapedSample) = .ok shapedBlocks := by
  have cut : lines shapedSample = ["7. # T ##".toList, "[^n]: *[c]: d".toList] := by decide
  have list : blockAt Options.default.fence ctx "7. # T ##".toList ["[^n]: *[c]: d".toList] =
      .list true 7 ⟨[⟨0, .plain, ["# T ##".toList]⟩], true, 1⟩ := by
    have run : listRun true 0 ["7. # T ##".toList, "[^n]: *[c]: d".toList] =
        ⟨[⟨0, .plain, ["# T ##".toList]⟩], true, 1⟩ := by cbv
    have marked : listMarker? "7. # T ##".toList = some ⟨0, true, 7, 3, "# T ##".toList⟩ := by
      decide +kernel
    rw [blockAt_list (by decide) (by decide) (by decide) (by decide) (by decide) (by decide)
      (by decide) (by decide) marked, run]
  have item : lines (unlines ["# T ##".toList]) = ["# T ##".toList] := by decide
  have heading : blockAt Options.default.fence .item "# T ##".toList [] =
      .leaf (headingBlock 1 "T".toList) 0 :=
    blockAt_heading (by decide) (by decide) (by decide) (by decide) (by decide) (by decide)
      (by decide)
  have note : blockAt Options.default.fence ctx "[^n]: *[c]: d".toList [] =
      .footnote "n".toList ["*[c]: d".toList] 0 :=
    blockAt_definition (by decide) (by decide) (by decide) (by decide) (by cbv)
  have body : lines (unlines ["*[c]: d".toList]) = ["*[c]: d".toList] := by decide
  have term : blockAt Options.default.fence .item "*[c]: d".toList [] =
      .leaf (.abbreviationDef "c".toList "d".toList) 0 :=
    blockAt_definition (by decide) (by decide) (by decide) (by decide) (by cbv)
  rw [cut, readBlocks_list (by decide) list, readItems, item, readBlocks_leaf (by decide) heading,
    List.drop_nil, readBlocks_nil, readItems]
  dsimp only
  rw [List.drop_zero, readBlocks_footnote (by decide) note, body,
    readBlocks_leaf (by decide) term, List.drop_nil, readBlocks_nil, readBlocks_nil]
  rfl

theorem blocks_shaped_sample :
    (readDocument Options.default.fence shapedSample = .ok shapedBlocks ∧
      (headingBlock 1 "T".toList).Shaped) ∧
    readFragment Options.default.fence shapedSample = .ok shapedBlocks ∧
      (Block.abbreviationDef "c".toList "d".toList).Shaped := by
  have read : readDocument Options.default.fence shapedSample = .ok shapedBlocks :=
    readBlocks_shapedSample .document
  have readFree : readFragment Options.default.fence shapedSample = .ok shapedBlocks :=
    readBlocks_shapedSample .item
  obtain ⟨document, fragment⟩ := blocks_shaped Options.default.fence shapedSample
  refine ⟨⟨read, document _ read _ ?_⟩, readFree, (fragment _ readFree _ ?_).1⟩
  · simp [shapedBlocks, headingBlock, nested, Block.nested, itemsNested]
  · simp [shapedBlocks, nested, Block.nested, itemsNested]

end CommentMarkup
