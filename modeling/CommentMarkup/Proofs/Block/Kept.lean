import CommentMarkup.Proofs.Block.Inner
import CommentMarkup.Proofs.Block.TextLine
import CommentMarkup.Proofs.Html.Tag
import CommentMarkup.Proofs.Line.Definition
import CommentMarkup.Proofs.Line.Fence
import CommentMarkup.Proofs.Line.Strip
import Mathlib

/-!
# Reading loses nothing

The strings in the blocks of a text, read in document order, hold the foreign characters of the
text, each once and in their order.
-/

namespace CommentMarkup

open Text

mutual

def Block.strings : Block → Text
  | .heading _ content _ | .paragraph content => content.source
  | .list _ _ _ items => itemStrings items
  | .quote blocks => strings blocks
  | .code (.fenced info) literal => info.getD [] ++ literal
  | .code _ literal => literal
  | .rule | .outline => []
  | .rawHtml _ html => html
  | .abbreviationDef term expansion => term ++ expansion
  | .referenceDef label target => label ++ target.url ++ target.title.getD []
  | .footnoteDef label blocks => label ++ strings blocks

def strings : List Block → Text
  | [] => []
  | block :: blocks => block.strings ++ strings blocks

def itemStrings : List (Item Block) → Text
  | [] => []
  | ⟨_, blocks⟩ :: items => strings blocks ++ itemStrings items

end

theorem flatMap_take_drop {α β : Type} (f : α → List β) (n : Nat) (l : List α) :
    (l.take n).flatMap f ++ (l.drop n).flatMap f = l.flatMap f := by
  rw [← List.flatMap_append, List.take_append_drop]

/-! ### Leaves -/

theorem foreign_literalText (ls : List Text) : foreign (literalText ls) = ls.flatMap foreign := by
  induction ls with
  | nil => rfl
  | cons l ls ih =>
    have feed : foreign ['\n'] = [] := by decide
    rw [literalText, List.flatMap_cons, foreign_append, foreign_append, feed, List.append_nil,
      ← literalText, ih, List.flatMap_cons]

theorem foreign_paragraphText (ls : List Text) :
    foreign (paragraphText ls) = ls.flatMap foreign := by
  have cut := Cuttings.map (fun l => remains_of_strips (strips_trimStart l)) ls
  rw [paragraphText, (strips_trimEnd _).foreign, foreign_unlines, cut.foreign]

theorem foreign_quoteParagraphs (ls : List Text) :
    foreign (strings (quoteParagraphs ls)) = ls.flatMap foreign := by
  have shown (groups : List (List Text)) :
      foreign (strings (groups.map paragraph)) = groups.flatMap fun ls => ls.flatMap foreign := by
    induction groups with
    | nil => rfl
    | cons group groups ih =>
      rw [List.map_cons, strings, foreign_append, ih, List.flatMap_cons, ← foreign_paragraphText]
      rfl
  have filled (groups : List (List Text)) :
      ((groups.filter fun group => !group.isEmpty).flatMap fun ls => ls.flatMap foreign) =
        groups.flatMap fun ls => ls.flatMap foreign := by
    induction groups with
    | nil => rfl
    | cons group groups ih =>
      cases group with
      | nil => simpa using ih
      | cons l group => simpa using ih
  rw [quoteParagraphs, shown, filled]
  induction ls with
  | nil => rfl
  | cons l ls ih =>
    by_cases blank : l.isBlank
    · rw [cutAt_cons_pos blank, List.flatMap_cons, ih, List.flatMap_cons,
        (plain_of_isBlank blank).foreign]
      rfl
    · obtain ⟨group, groups, eq, whole⟩ := cutAt_cons_neg (p := Text.isBlank) blank ls
      rw [whole, List.flatMap_cons, List.flatMap_cons, List.flatMap_cons, ← ih, eq,
        List.flatMap_cons, List.append_assoc]

theorem foreign_fenced {fence l : Text} {ls : List Text} {info : Option Text} {n : Nat}
    (solid : SolidFence fence) (one : OneInfoWord fence l) (opens : openFence? fence l = some info)
    (closes : ls.findIdx? (isClosingFence fence) = some n) :
    foreign (info.getD [] ++ literalText ((ls.take n).map (removeIndent (indentColumns l)))) ++
      (ls.drop (n + 1)).flatMap foreign = (l :: ls).flatMap foreign := by
  obtain ⟨inRange, closing, _⟩ := List.findIdx?_eq_some_iff_getElem.mp closes
  have cut := Cuttings.map (remains_removeIndent (indentColumns l)) (ls.take n)
  have parts := flatMap_take_drop foreign n ls
  rw [List.drop_eq_getElem_cons inRange, List.flatMap_cons, foreign_isClosingFence solid closing,
    List.nil_append] at parts
  rw [foreign_append, foreign_openFence solid one opens, foreign_literalText, cut.foreign,
    List.append_assoc, parts, List.flatMap_cons]

/-- A finished block holds what the lines that it takes hold. -/
theorem leaf_strings {fence : Text} {ctx : Context} {l : Text} {ls : List Text} {block : Block}
    {more : Nat} (solid : SolidFence fence) (one : OneInfoWord fence l)
    (step : blockAt fence ctx l ls = .leaf block more) :
    block.strings.foreign ++ (ls.drop more).flatMap foreign = (l :: ls).flatMap foreign := by
  rw [List.flatMap_cons]
  cases stepAt step with
  | fenced opens closes => exact foreign_fenced solid one opens closes
  | indented document code =>
    have cut := Cuttings.keep (remains_of_strips (strips_dropCodeIndent l))
      (cuttings_codeLines (isTabbed l) ls)
    have shown : (Block.code (if isTabbed l then .tabIndented else .spaceIndented)
        (literalText (dropCodeIndent l :: codeLines (isTabbed l) ls))).strings =
          literalText (dropCodeIndent l :: codeLines (isTabbed l) ls) := by
      split <;> rfl
    rw [shown, foreign_literalText, cut.foreign_drop, List.flatMap_cons]
  | outline marked => rw [foreign_isOutlineLine marked]; rfl
  | @raw tag n opens closes =>
    obtain ⟨k, rfl⟩ := Nat.exists_eq_add_one_of_ne_zero
      (Nat.pos_iff_ne_zero.mp (rawExtent_pos closes))
    rw [Block.strings, foreign_neutralizeTags, foreign_unlines, List.take_succ_cons,
      Nat.add_sub_cancel, List.flatMap_cons, List.append_assoc, flatMap_take_drop]
  | abbreviation defines kind =>
    rw [Block.strings, foreign_append, (strips_trim _).foreign, foreign_definitionLine defines]
    rfl
  | @link d target _ defines kind proper =>
    rw [Block.strings, foreign_append, foreign_append, List.append_assoc d.label.foreign,
      foreign_linkTarget proper, ← foreign_definitionLine defines, List.append_assoc,
      List.append_assoc, List.append_assoc, flatMap_take_drop]
  | rule marked => rw [foreign_isRule marked]; rfl
  | heading marked => rw [← (strips_heading marked).foreign]; rfl
  | quote marked =>
    rw [Block.strings, foreign_quoteParagraphs, (cuttings_quote fence marked ls).foreign_drop,
      List.flatMap_cons]
  | @underlined level under =>
    obtain ⟨below, first, equals⟩ := Option.bind_eq_some_iff.mp under
    obtain ⟨others, rfl⟩ := List.head?_eq_some_iff.mp first
    rw [List.flatMap_cons, foreign_underline equals, ← (strips_trim l).foreign]
    rfl
  | paragraph =>
    have shown (lines : List Text) : (paragraph lines).strings = paragraphText lines := rfl
    rw [shown, foreign_paragraphText, List.flatMap_cons, List.append_assoc, flatMap_take_drop]

theorem footnote_strings {fence : Text} {ctx : Context} {l label : Text} {ls body : List Text}
    {more : Nat} (step : blockAt fence ctx l ls = .footnote label body more) :
    label.foreign ++ body.flatMap foreign ++ (ls.drop more).flatMap foreign =
      (l :: ls).flatMap foreign := by
  cases stepAt step with
  | @footnote d defines kind =>
    have cut := Cuttings.map (fun l => remains_of_strips (strips_trim l))
      (ls.takeWhile (continuesFootnote l))
    have parts := flatMap_take_drop foreign (ls.takeWhile (continuesFootnote l)).length ls
    rw [← List.prefix_iff_eq_take.mp (List.takeWhile_prefix _)] at parts
    rw [List.flatMap_cons, (strips_trim _).foreign, cut.foreign, List.append_assoc,
      List.append_assoc, parts, ← List.append_assoc, foreign_definitionLine defines,
      List.flatMap_cons]

/-! ### Whole texts -/

theorem OneInfoWord.hereditary {fence : Text} (solid : SolidFence fence) :
    Hereditary (OneInfoWord fence) where
  part one inside := one.of_infix inside
  space one := one.space solid

theorem items_strings {fence : Text} {raws : List RawItem} {items : List (Item Block)}
    (one : ∀ raw ∈ raws, ∀ l ∈ lines (unlines raw.body), OneInfoWord fence l)
    (read : ItemsRead (fun _ ls blocks => (∀ l ∈ ls, OneInfoWord fence l) →
      foreign (strings blocks) = ls.flatMap foreign) raws items) :
    foreign (itemStrings items) = (raws.flatMap RawItem.body).flatMap foreign := by
  induction read with
  | nil => rfl
  | @cons raw item raws items inner _ ih =>
    have first := inner.2 (one raw List.mem_cons_self)
    have others := ih fun raw member => one raw (List.mem_cons_of_mem _ member)
    rw [itemStrings, foreign_append, first, foreign_relines, others, List.flatMap_cons,
      List.flatMap_append]

/-- The strings in the blocks that are read hold the foreign characters of the lines. -/
theorem readBlocks_strings {fence : Text} (solid : SolidFence fence) {ctx : Context} {n : Nat}
    {ls : List Text} {blocks : List Block} (one : ∀ l ∈ ls, OneInfoWord fence l)
    (h : readBlocks fence ctx n ls = .ok blocks) :
    foreign (strings blocks) = ls.flatMap foreign := by
  have inherited := OneInfoWord.hereditary solid
  refine readBlocks_induction (motive := fun _ ls blocks => (∀ l ∈ ls, OneInfoWord fence l) →
    foreign (strings blocks) = ls.flatMap foreign) ?_ ?_ ?_ ?_ ?_ h one
  · intro _ _
    rfl
  · intro _ l ls blocks blank ih one
    rw [ih fun k member => one k (List.mem_cons_of_mem _ member), List.flatMap_cons,
      (plain_of_isBlank blank).foreign]
    rfl
  · intro _ l ls block more blocks _ step ih one
    have rest := ih (forall_mem_behind one _)
    rw [strings, foreign_append, rest]
    exact leaf_strings solid (one l List.mem_cons_self) step
  · intro _ l ls ordered start run items blocks _ step read ih one
    have rest := ih (forall_mem_behind one _)
    rw [strings, foreign_append, rest, Block.strings,
      items_strings (inherited.list one step) read]
    exact (cuttings_list step).foreign_drop
  · intro _ l ls label body more inner blocks _ step ihInner ih one
    have rest := ih (forall_mem_behind one _)
    rw [strings, foreign_append, rest, Block.strings, foreign_append,
      ihInner (inherited.footnote one step), foreign_relines]
    exact footnote_strings step

/-- Reading a text loses, repeats and reorders none of its foreign characters. -/
theorem readDocument_strings {text : Text} {blocks : List Block}
    (one : ∀ l ∈ lines text, OneInfoWord Options.default.fence l)
    (h : readDocument Options.default.fence text = .ok blocks) :
    foreign (strings blocks) = foreign text := by
  rw [readBlocks_strings solidFence_default one h, foreign_lines]

def fencedSample : Text := "é\n\n\x60\x60\x60ü\nö\n\x60\x60\x60".toList

def fencedSampleBlocks : List Block :=
  [paragraph ["é".toList], .code (.fenced (some "ü".toList)) "ö\n".toList]

theorem readDocument_fencedSample :
    readDocument Options.default.fence fencedSample = .ok fencedSampleBlocks := by
  have cut : lines fencedSample = ["é".toList, [], tick :: tick :: tick :: "ü".toList,
      "ö".toList, [tick, tick, tick]] := by decide
  have leading : blockAt Options.default.fence .document "é".toList
      [[], tick :: tick :: tick :: "ü".toList, "ö".toList, [tick, tick, tick]] =
        .leaf (paragraph ["é".toList]) 0 :=
    blockAt_text (by cbv) (by cbv)
  have opens : fencedAt Options.default.fence (tick :: tick :: tick :: "ü".toList)
      ["ö".toList, [tick, tick, tick]] =
        some (.leaf (.code (.fenced (some "ü".toList)) "ö\n".toList) 2) := by
    cbv
  have fenced : blockAt Options.default.fence .document (tick :: tick :: tick :: "ü".toList)
      ["ö".toList, [tick, tick, tick]] =
        .leaf (.code (.fenced (some "ü".toList)) "ö\n".toList) 2 := by
    rw [blockAt, opens]
    rfl
  rw [readDocument, cut, readBlocks_leaf (by decide) leading, List.drop_zero,
    readBlocks_blank rfl, readBlocks_leaf (by decide) fenced, List.drop_succ_cons,
    List.drop_succ_cons, List.drop_zero, readBlocks_nil]
  rfl

theorem readDocument_strings_fencedSample :
    foreign (strings fencedSampleBlocks) = "éüö".toList := by
  have few : ∀ l ∈ lines fencedSample, (words l).length ≤ 1 := by decide
  have one : ∀ l ∈ lines fencedSample, OneInfoWord Options.default.fence l :=
    fun l member => .of_words (few l member)
  rw [readDocument_strings one readDocument_fencedSample]
  decide

end CommentMarkup
