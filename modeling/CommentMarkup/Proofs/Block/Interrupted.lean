import CommentMarkup.Proofs.Block.Shape

/-!
# Interrupted paragraphs

A paragraph ends at a line that may start another block, and the rules of blocks are then tried on
that line. `paragraphs_apart_iff` says when the two disagree: only at a line with the label of a
link definition but no target, which ends a paragraph and starts the next one.
-/

namespace CommentMarkup

open Text

/-- The line starts like the definition of a link, but what follows its label is no target. -/
def LacksTarget (l : Text) : Prop :=
  ∃ d, definitionLine? l = some d ∧ d.kind = .link ∧ linkTarget? l d.rest none = none

/-! ### Definitions without a target -/

/-- Only the title of a link may stand on the next line. -/
theorem linkTarget_eq_none {l rest : Text} (next : Option Text) :
    linkTarget? l rest next = none ↔ linkTarget? l rest none = none := by
  unfold linkTarget?
  cases splitTarget? rest with
  | none => rfl
  | some target =>
    simp only [Option.bind_eq_bind, Option.bind_some]
    split
    · constructor
      all_goals
        intro absent
        split at absent <;> cases absent
    · rfl

theorem kind_ofBody {kind : LabelKind} {body : Text} {d : DefinitionLine}
    (h : DefinitionLine.ofBody? kind body = some d) : d.kind = kind := by
  unfold DefinitionLine.ofBody? at h
  split at h
  · cases h
  · dsimp only at h
    split at h <;> cases h
    rfl

theorem colon_mem_ofBody {kind : LabelKind} {body : Text} {d : DefinitionLine}
    (h : DefinitionLine.ofBody? kind body = some d) : ':' ∈ body := by
  unfold DefinitionLine.ofBody? at h
  split at h
  · cases h
  · rename_i n found
    rw [← find_split found]
    simp

theorem definitionLine_link {l : Text} {d : DefinitionLine} (defines : definitionLine? l = some d)
    (link : d.kind = .link) : ∃ body, l.trimStart = '[' :: body ∧ ':' ∈ body := by
  unfold definitionLine? at defines
  split at defines
  · rw [kind_ofBody defines] at link
    cases link
  · rw [kind_ofBody defines] at link
    cases link
  · rename_i body _ starts
    exact ⟨body, starts, colon_mem_ofBody defines⟩
  · cases defines

section Bracket

variable {l body : Text} (starts : l.trimStart = '[' :: body)

include starts

theorem rawTag_bracket : rawTag? l = none := by
  rw [rawTag?, starts]
  rfl

theorem isRule_bracket : isRule l = false := by
  have bracket : '[' ∈ l.filter fun c => !isSpace c := by
    have inside : '[' ∈ l.trimStart := by
      rw [starts]
      exact List.mem_cons_self
    exact List.mem_filter.mpr ⟨(List.dropWhile_suffix isSpace).subset inside, by decide⟩
  have apart {d : Char} (other : ('[' == d) = false) :
      (l.filter fun c => !isSpace c).all (· == d) = false := by
    rw [List.all_eq_false]
    exact ⟨'[', bracket, by simp [other]⟩
  rw [isRule, apart rfl, apart rfl, apart rfl]
  simp

theorem heading_bracket : heading? l = none := by
  rw [heading?, starts]
  rfl

theorem isQuoteLine_bracket : isQuoteLine l = false := by
  rw [isQuoteLine, starts]
  rfl

theorem listMarker_bracket : listMarker? l = none := by
  unfold listMarker?
  rw [starts]
  rfl

/-- A line with a colon is not the place of the outline. -/
theorem isOutlineLine_bracket (colon : ':' ∈ body) : isOutlineLine l = false := by
  obtain ⟨behind, blank, whole⟩ := exists_trimEnd l.trimStart
  have inside : ':' ∈ l.trim := by
    have member : ':' ∈ l.trimStart := by
      rw [starts]
      exact List.mem_cons_of_mem _ colon
    rw [whole] at member
    rcases List.mem_append.mp member with here | late
    · exact here
    · exact absurd (List.all_eq_true.mp blank _ late) (by decide)
  have lower : ':' ∈ l.trim.toLower := List.mem_map.mpr ⟨':', inside, by decide⟩
  rw [isOutlineLine, Bool.or_eq_false_iff, beq_eq_false_iff_ne, beq_eq_false_iff_ne]
  constructor
  · intro same
    rw [same] at lower
    exact absurd lower (by decide)
  · intro same
    rw [same] at lower
    exact absurd lower (by decide)

end Bracket

/-! ### Rules and interruptions -/

def Step.isParagraph : Step → Bool
  | .leaf block _ => block.isParagraph
  | _ => false

theorem Step.isParagraph_iff {step : Step} :
    step.isParagraph ↔ ∃ content more, step = .leaf (.paragraph content) more := by
  constructor
  · intro paragraph
    cases step with
    | leaf block more =>
      cases block with
      | paragraph content => exact ⟨content, more, rfl⟩
      | _ => cases paragraph
    | _ => cases paragraph
  · rintro ⟨content, more, rfl⟩
    rfl

section Choice

variable {x y : Option Step} {last : Step}

/-- A rule that makes no paragraphs has nothing to say where a paragraph starts. -/
theorem none_of_paragraph (paragraph : ((x <|> y).getD last).isParagraph)
    (other : ∀ step, x = some step → ¬ step.isParagraph) :
    x = none ∧ (y.getD last).isParagraph := by
  cases x with
  | none => exact ⟨rfl, paragraph⟩
  | some step => exact absurd paragraph (other step rfl)

theorem map_of_paragraph {α : Type} {found : Option α} {make : α → Step}
    (paragraph : ((found.map make <|> y).getD last).isParagraph)
    (other : ∀ a, ¬ (make a).isParagraph) : found = none ∧ (y.getD last).isParagraph := by
  cases found with
  | none => exact ⟨rfl, paragraph⟩
  | some a => exact absurd paragraph (other a)

theorem if_of_paragraph {test : Bool} {step : Step}
    (paragraph : (((if test then some step else none) <|> y).getD last).isParagraph)
    (other : ¬ step.isParagraph) : test = false ∧ (y.getD last).isParagraph := by
  cases test with
  | false => exact ⟨rfl, paragraph⟩
  | true => exact absurd paragraph other

end Choice

section Rules

variable {fence : Text} {ctx : Context} {l : Text} {ls : List Text}

theorem not_paragraph_definition {step : Step} (found : definitionAt l ls = some step) :
    ¬ step.isParagraph := by
  obtain ⟨d, _, found⟩ := Option.bind_eq_some_iff.mp found
  split at found
  · cases found
    exact Bool.false_ne_true
  · obtain ⟨_, _, rfl⟩ := Option.map_eq_some_iff.mp found
    exact Bool.false_ne_true
  · cases found
    exact Bool.false_ne_true

/-- A paragraph starts where no other rule applies. -/
theorem rules_of_paragraph (paragraph : (blockAt fence ctx l ls).isParagraph) :
    openFence? fence l = none ∧ (ctx == .document && isCodeLine l) = false ∧
      isOutlineLine l = false ∧ rawTag? l = none ∧ definitionAt l ls = none ∧ isRule l = false ∧
      heading? l = none ∧ isQuoteLine l = false ∧ listMarker? l = none ∧
      ls.head?.bind underline? = none := by
  unfold blockAt at paragraph
  obtain ⟨fenced, paragraph⟩ := map_of_paragraph paragraph fun info => by
    split <;> exact Bool.false_ne_true
  obtain ⟨code, paragraph⟩ := if_of_paragraph paragraph Bool.false_ne_true
  obtain ⟨outline, paragraph⟩ := if_of_paragraph paragraph Bool.false_ne_true
  obtain ⟨raw, paragraph⟩ := map_of_paragraph paragraph fun tag => by
    split <;> exact Bool.false_ne_true
  obtain ⟨definition, paragraph⟩ :=
    none_of_paragraph paragraph fun _ found => not_paragraph_definition found
  obtain ⟨rule, paragraph⟩ := if_of_paragraph paragraph Bool.false_ne_true
  obtain ⟨heading, paragraph⟩ := map_of_paragraph paragraph fun _ => Bool.false_ne_true
  obtain ⟨quote, paragraph⟩ := if_of_paragraph paragraph Bool.false_ne_true
  obtain ⟨list, paragraph⟩ := map_of_paragraph paragraph fun _ => Bool.false_ne_true
  have under : ls.head?.bind underline? = none := by
    cases found : ls.head?.bind underline? with
    | none => rfl
    | some level =>
      rw [underlinedAt, found] at paragraph
      cases paragraph
  exact ⟨fenced, code, outline, raw, definition, rule, heading, quote, list, under⟩

theorem definitionAt_eq_none : definitionAt l ls = none ↔
    ∀ d, definitionLine? l = some d → LacksTarget l := by
  unfold definitionAt
  cases found : definitionLine? l with
  | none => exact ⟨nofun, fun _ => rfl⟩
  | some d =>
    rw [Option.bind_some]
    have same {d' : DefinitionLine} (other : definitionLine? l = some d') : d' = d := by
      rw [found] at other
      cases other
      rfl
    split
    · rename_i kind
      refine iff_of_false (Option.some_ne_none _) fun all => ?_
      obtain ⟨d', other, link, _⟩ := all d rfl
      rw [same other, kind] at link
      cases link
    · rename_i kind
      rw [Option.map_eq_none_iff, linkTarget_eq_none]
      constructor
      · exact fun lacks _ _ => ⟨d, found, kind, lacks⟩
      · intro all
        obtain ⟨d', other, _, lacks⟩ := all d rfl
        rwa [same other] at lacks
    · rename_i kind
      refine iff_of_false (Option.some_ne_none _) fun all => ?_
      obtain ⟨d', other, link, _⟩ := all d rfl
      rw [same other, kind] at link
      cases link

/-- A line that interrupts a paragraph starts another one just if it lacks a target and neither a
fence nor code nor an underline makes something else of it. -/
theorem interrupts_paragraph_iff (interrupts : interruptsParagraph fence ctx l) :
    (blockAt fence ctx l ls).isParagraph ↔
      LacksTarget l ∧ openFence? fence l = none ∧ ¬ (ctx = .document ∧ isCodeLine l) ∧
        ls.head?.bind underline? = none := by
  constructor
  · intro paragraph
    obtain ⟨fenced, coded, outline, raw, definition, rule, heading, quote, list, under⟩ :=
      rules_of_paragraph paragraph
    refine ⟨?_, fenced, by simpa using coded, under⟩
    have defines : (definitionLine? l).isSome := by
      simpa [interruptsParagraph, fenced, coded, outline, raw, rule, heading, quote, list]
        using interrupts
    obtain ⟨d, found⟩ := Option.isSome_iff_exists.mp defines
    exact definitionAt_eq_none.mp definition d found
  · rintro ⟨lacks, fenced, code, under⟩
    have definition : definitionAt l ls = none := definitionAt_eq_none.mpr fun _ _ => lacks
    obtain ⟨d, defines, link, _⟩ := lacks
    obtain ⟨body, starts, colon⟩ := definitionLine_link defines link
    have coded : indentedAt ctx l ls = none := by
      rw [indentedAt, if_neg]
      simpa using code
    have step : blockAt fence ctx l ls = paragraphAt fence ctx l ls := by
      simp [blockAt, fencedAt, fenced, coded, outlineAt, isOutlineLine_bracket starts colon, rawAt,
        rawTag_bracket starts, definition, ruleAt, isRule_bracket starts, headingAt,
        heading_bracket starts, quoteAt, isQuoteLine_bracket starts, listAt,
        listMarker_bracket starts, underlinedAt, under]
    rw [step]
    rfl

/-! ### Neighbours -/

theorem leaf_paragraph {block : Block} {more : Nat}
    (step : blockAt fence ctx l ls = .leaf block more) (paragraph : block.isParagraph) :
    block = CommentMarkup.paragraph (l :: ls.take (paragraphExtent fence ctx ls)) ∧
      more = paragraphExtent fence ctx ls := by
  cases stepAt step with
  | paragraph => exact ⟨rfl, rfl⟩
  | _ => cases paragraph

theorem paragraphExtent_stop {rest : List Text}
    (stop : ls.drop (paragraphExtent fence ctx ls) = l :: rest) :
    l.isBlank ∨ interruptsParagraph fence ctx l ∨ rest.head?.bind underline? ≠ none := by
  induction ls with
  | nil => cases stop
  | cons k ls ih =>
    rw [paragraphExtent] at stop
    split at stop
    · rename_i ends
      cases stop
      rw [Bool.or_eq_true, Bool.or_eq_true, or_assoc] at ends
      exact ends.imp_right fun h => h.imp_right Option.isSome_iff_ne_none.mp
    · exact ih stop

end Rules

def Follows (ls : List Text) (before after : Block) : Prop :=
  before.isParagraph → after.isParagraph →
    ∃ l ∈ ls, LacksTarget l ∧ ∃ others, after = paragraph (l :: others)

theorem Follows.mono {ls more : List Text} (part : ls ⊆ more) {before after : Block}
    (follows : Follows ls before after) : Follows more before after := by
  intro first second
  obtain ⟨l, member, lacks⟩ := follows first second
  exact ⟨l, part member, lacks⟩

structure Neighbours (fence : Text) (ctx : Context) (ls : List Text) (blocks : List Block) :
    Prop where
  first : ∀ block ∈ blocks.head?, block.isParagraph →
    ∃ l rest more, ls = l :: rest ∧ blockAt fence ctx l rest = .leaf block more
  chain : blocks.IsChain (Follows ls)

namespace Neighbours

variable {fence : Text} {ctx : Context} {l : Text} {ls : List Text} {blocks : List Block}

/-- Any block but a paragraph may be followed by anything. -/
theorem other {block : Block} (other : ¬ block.isParagraph) {n : Nat}
    (behind : Neighbours fence ctx (ls.drop n) blocks) :
    Neighbours fence ctx (l :: ls) (block :: blocks) where
  first b member paragraph := by
    rw [List.head?_cons, Option.mem_some_iff] at member
    exact absurd (member ▸ paragraph) other
  chain := by
    refine List.isChain_cons.mpr ⟨fun _ _ first => absurd first other, ?_⟩
    have part : ls.drop n ⊆ l :: ls := fun k member =>
      List.mem_cons_of_mem l (List.mem_of_mem_drop member)
    exact behind.chain.imp fun _ _ => Follows.mono part

/-- The line that ends a paragraph starts a paragraph only if it lacks a target. -/
theorem leaf {block : Block} {more : Nat} (filled : ∀ k ∈ ls, ¬ k.isBlank)
    (step : blockAt fence ctx l ls = .leaf block more)
    (behind : Neighbours fence ctx (ls.drop more) blocks) :
    Neighbours fence ctx (l :: ls) (block :: blocks) where
  first b member _ := by
    rw [List.head?_cons, Option.mem_some_iff] at member
    exact ⟨l, ls, more, rfl, member ▸ step⟩
  chain := by
    have part : ls.drop more ⊆ l :: ls := fun k member =>
      List.mem_cons_of_mem l (List.mem_of_mem_drop member)
    refine List.isChain_cons.mpr ⟨fun after member first second => ?_,
      behind.chain.imp fun _ _ => Follows.mono part⟩
    obtain ⟨k, rest, taken, eq, next⟩ := behind.first after member second
    have inside : k ∈ ls.drop more := by
      rw [eq]
      exact List.mem_cons_self
    have starts : (blockAt fence ctx k rest).isParagraph := by rwa [next]
    have lacks : LacksTarget k := by
      rw [(leaf_paragraph step first).2] at eq
      rcases paragraphExtent_stop eq with blank | interrupts | under
      · exact absurd blank (filled k (List.mem_of_mem_drop inside))
      · exact ((interrupts_paragraph_iff interrupts).mp starts).1
      · exact absurd (rules_of_paragraph starts).2.2.2.2.2.2.2.2.2 under
    exact ⟨k, part inside, lacks, _, (leaf_paragraph next second).1⟩

end Neighbours

theorem readBlocks_neighbours {fence : Text} {ctx : Context} {n : Nat} {ls : List Text}
    {blocks : List Block} (filled : ∀ l ∈ ls, ¬ l.isBlank)
    (read : readBlocks fence ctx n ls = .ok blocks) : Neighbours fence ctx ls blocks := by
  have later {l : Text} {ls : List Text} (filled : ∀ k ∈ l :: ls, ¬ k.isBlank) (n : Nat) :
      ∀ k ∈ ls.drop n, ¬ k.isBlank := fun k member =>
    filled k (List.mem_cons_of_mem l (List.mem_of_mem_drop member))
  refine readBlocks_induction (motive := fun ctx ls blocks => (∀ l ∈ ls, ¬ l.isBlank) →
    Neighbours fence ctx ls blocks) ?_ ?_ ?_ ?_ ?_ read filled
  · exact fun _ _ => ⟨nofun, .nil⟩
  · exact fun _ l _ _ blank _ filled => absurd blank (filled l List.mem_cons_self)
  · intro ctx l ls block more blocks _ step ih filled
    exact (ih (later filled more)).leaf (fun k member => filled k (List.mem_cons_of_mem l member))
      step
  · intro ctx l ls ordered start run items blocks _ _ _ ih filled
    exact (ih (later filled _)).other Bool.false_ne_true
  · intro ctx l ls label body more inner blocks _ _ _ ih filled
    exact (ih (later filled _)).other Bool.false_ne_true

/-- A line that interrupts a paragraph starts a block of another kind unless it lacks a target, and
in a text without blank lines two paragraphs stand next to each other just where the second one
starts with such a line. -/
theorem paragraphs_apart_iff (fence : Text) :
    (∀ ctx l ls, interruptsParagraph fence ctx l →
      ((∃ content more, blockAt fence ctx l ls = .leaf (.paragraph content) more) ↔
        LacksTarget l ∧ openFence? fence l = none ∧ ¬ (ctx = .document ∧ isCodeLine l) ∧
          ls.head?.bind underline? = none)) ∧
    ∀ text blocks, (∀ l ∈ lines text, ¬ l.isBlank) → readDocument fence text = .ok blocks →
      ((∃ front content content' back,
          blocks = front ++ .paragraph content :: .paragraph content' :: back) ↔
        ∃ front content l others back, l ∈ lines text ∧ LacksTarget l ∧
          blocks = front ++ .paragraph content :: paragraph (l :: others) :: back) := by
  refine ⟨fun ctx l ls interrupts => ?_, fun text blocks filled read => ⟨?_, ?_⟩⟩
  · rw [← Step.isParagraph_iff]
    exact interrupts_paragraph_iff interrupts
  · rintro ⟨front, content, content', back, rfl⟩
    have chain := (readBlocks_neighbours filled read).chain
    obtain ⟨l, member, lacks, others, eq⟩ := (List.isChain_append_cons_cons.mp chain).2.1 rfl rfl
    exact ⟨front, content, l, others, back, member, lacks, by rw [eq]⟩
  · rintro ⟨front, content, l, others, back, _, _, eq⟩
    exact ⟨front, content, _, back, eq⟩

def untargetedSample : Text := "a\n[b]:".toList

theorem lacksTarget_sample : LacksTarget "[b]:".toList :=
  ⟨⟨.link, "b".toList, []⟩, by decide, rfl, by decide⟩

theorem readDocument_untargetedSample :
    readDocument Options.default.fence untargetedSample =
      .ok [paragraph ["a".toList], paragraph ["[b]:".toList]] := by
  have cut : lines untargetedSample = ["a".toList, "[b]:".toList] := by decide
  have first : blockAt Options.default.fence .document "a".toList ["[b]:".toList] =
      .leaf (paragraph ["a".toList]) 0 :=
    blockAt_text (by decide +kernel) (by decide)
  have second : blockAt Options.default.fence .document "[b]:".toList [] =
      .leaf (paragraph ["[b]:".toList]) 0 := by cbv
  rw [readDocument, cut, readBlocks_leaf (by decide) first, List.drop_zero,
    readBlocks_leaf (by decide) second, List.drop_nil, readBlocks_nil]
  rfl

theorem paragraphs_apart_sample :
    (∃ content more, blockAt Options.default.fence .document "[b]:".toList [] =
      .leaf (.paragraph content) more) ∧
    ∃ front content l others back, l ∈ lines untargetedSample ∧ LacksTarget l ∧
      [paragraph ["a".toList], paragraph ["[b]:".toList]] =
        front ++ .paragraph content :: paragraph (l :: others) :: back := by
  obtain ⟨interrupted, neighbours⟩ := paragraphs_apart_iff Options.default.fence
  have filled : ∀ l ∈ lines untargetedSample, ¬ l.isBlank := by decide
  refine ⟨(interrupted _ _ _ (by decide +kernel)).mpr ⟨lacksTarget_sample, by decide, nofun, rfl⟩,
    (neighbours _ _ filled readDocument_untargetedSample).mp ⟨[], _, _, [], rfl⟩⟩

/-- The label ends the paragraph above it, but no other rule takes it. -/
theorem paragraphs_neighbour :
    ¬ ∀ fence text blocks, (∀ l ∈ lines text, ¬ l.isBlank) →
      readDocument fence text = .ok blocks →
        ∀ front content content' back,
          blocks ≠ front ++ .paragraph content :: .paragraph content' :: back := by
  intro apart
  have filled : ∀ l ∈ lines untargetedSample, ¬ l.isBlank := by decide
  exact apart _ _ _ filled readDocument_untargetedSample [] _ _ [] rfl

end CommentMarkup
