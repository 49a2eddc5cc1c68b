import CommentMarkup.Proofs.Definition.Counted
import CommentMarkup.Proofs.Footnote.Bodies
import CommentMarkup.Proofs.Footnote.Failing
import CommentMarkup.Proofs.Footnote.Numbering
import CommentMarkup.Proofs.Inline.Linked
import CommentMarkup.Proofs.Tree.Unresolved

/-!
# Registered footnotes

First references register footnotes, with the body that their label names in the tables or with the
content of the bracket. Resolution copies these bodies and fills them in, as it does with the flow
of the document: `resolution_fills_in`.
-/

namespace CommentMarkup

/-! ### Registration -/

/-- The label that a span introduces, if it is the first reference to a footnote. -/
def Inline.introduced? : Inline → Option Text
  | .footnoteRef label _ true => some label
  | _ => none

theorem lasting_introduced : Lasting Inline.introduced? :=
  ⟨fun _ => rfl, fun _ => rfl, fun _ => rfl, fun _ => rfl, fun _ _ => rfl, fun _ _ _ => rfl⟩

theorem Inline.IsLexeme.introduces {span : Inline} (lexeme : span.IsLexeme) :
    inventory Inline.introduced? [span] = [] := by
  cases lexeme <;> rfl

/-- References introduce labels only among the fixed spans. -/
theorem introduced_fixed (spans : List Inline) :
    (fixed spans).filterMap Inline.introduced? = inventory Inline.introduced? spans := by
  rw [fixed, List.filterMap_filter, inventory]
  congr 1
  funext span
  cases span <;> rfl

/-- The body of a footnote is the one that its label names, or its content names none. -/
inductive References.Supplies (references : References) : PendingFootnote → Prop
  | defined {label : Text} {body : List Block} (found : references.footnote? label = some body) :
      Supplies references ⟨label, .defined body⟩
  | inPlace {label content : Text} (undefined : references.footnote? content = none) :
      Supplies references ⟨label, .inPlace content⟩

/-- The notes go on with footnotes of these labels, and the tables supply their bodies. -/
def Registers (references : References) (before : Notes) (labels : List Text) (after : Notes) :
    Prop :=
  ∃ added, after.footnotes = before.footnotes ++ added ∧
    added.map PendingFootnote.label = labels ∧ ∀ pending ∈ added, references.Supplies pending

namespace Registers

variable {references : References} {before after : Notes}

theorem none (same : after.footnotes = before.footnotes) : Registers references before [] after :=
  ⟨[], by rw [same, List.append_nil], rfl, nofun⟩

theorem one {pending : PendingFootnote} (supplied : references.Supplies pending)
    (registered : after.footnotes = before.footnotes ++ [pending]) :
    Registers references before [pending.label] after :=
  ⟨[pending], registered, rfl, List.forall_mem_singleton.mpr supplied⟩

theorem compose {middle : Notes} {a b : List Text} (left : Registers references before a middle)
    (right : Registers references middle b after) : Registers references before (a ++ b) after := by
  obtain ⟨added, footnotes, rfl, supplied⟩ := left
  obtain ⟨added', footnotes', rfl, supplied'⟩ := right
  refine ⟨added ++ added', by rw [footnotes', footnotes, List.append_assoc], List.map_append, ?_⟩
  exact List.forall_mem_append.mpr ⟨supplied, supplied'⟩

theorem kept {labels : List Text} (registers : Registers references before labels after) {k : Nat}
    {pending : PendingFootnote} (present : before.footnotes[k]? = some pending) :
    after.footnotes[k]? = some pending := by
  obtain ⟨added, footnotes, _⟩ := registers
  have inRange := (List.getElem?_eq_some_iff.mp present).1
  rw [footnotes, List.getElem?_append_left inRange, present]

end Registers

section Reading

variable (scope : Scope)

def foundIntroduced (found : Option (Inline × Nat)) : List Text :=
  (foundFixed found).filterMap Inline.introduced?

theorem foundIntroduced_afterLead (lead : Nat) (found : Option (Inline × Nat) × Notes) :
    foundIntroduced (afterLead lead found).1 = foundIntroduced found.1 := by
  obtain ⟨_ | _, _⟩ := found <;> rfl

theorem footnoteRef_registers (content : Text) (notes : Notes) (n : Nat) :
    Registers scope.references notes
      (foundIntroduced ((footnoteRef? scope content notes).1.map (·, n)))
      (footnoteRef? scope content notes).2 := by
  unfold footnoteRef?
  dsimp only
  split
  · exact .none rfl
  split
  · rename_i found
    exact .one (.defined found) rfl
  · rename_i undefined
    split
    · exact .none rfl
    · exact .one (.inPlace undefined) rfl

theorem readFootnote_registers (t : Text) (notes : Notes) :
    Registers scope.references notes (foundIntroduced (readFootnote scope t notes).1)
      (readFootnote scope t notes).2 := by
  unfold readFootnote
  dsimp only
  split
  · exact .none rfl
  split
  · exact .none rfl
  · exact footnoteRef_registers scope _ notes _

/-- Links register nothing, and their texts are read flat, where brackets mean nothing. -/
theorem readLink_registers (image : Bool) (t : Text) (notes : Notes) :
    Registers scope.references notes (foundIntroduced (readLink scope image t notes).1)
      (readLink scope image t notes).2 := by
  have silent : foundIntroduced (readLink scope image t notes).1 = [] := by
    cases found : (readLink scope image t notes).1 with
    | none => rfl
    | some made =>
      obtain ⟨made, n⟩ := made
      obtain ⟨k, target, _, rfl⟩ := readLink_span scope found
      rw [foundIntroduced, foundFixed, introduced_fixed]
      cases image with
      | true => rfl
      | false =>
        exact linkSpan_picked lasting_introduced.textless (fun _ lexeme => lexeme.introduces) scope
          (t.take k) target
  rw [silent]
  exact .none (readLink_footnotes scope image t notes)

theorem readBracket_registers (t : Text) (notes : Notes) :
    Registers scope.references notes (foundIntroduced (readBracket scope t notes).1)
      (readBracket scope t notes).2 := by
  unfold readBracket
  split
  · rw [foundIntroduced_afterLead]
    exact readLink_registers scope true _ notes
  · rw [foundIntroduced_afterLead]
    exact readFootnote_registers scope _ notes
  · rw [foundIntroduced_afterLead]
    exact readLink_registers scope false _ notes
  · exact .none rfl

/-- Each label that reading a text introduces is that of a footnote that it registers. -/
theorem readInline_registers (t : Text) (notes : Notes) :
    Registers scope.references notes (inventory Inline.introduced? (readInline scope t notes).1)
      (readInline scope t notes).2 := by
  rw [readInline]
  dsimp only
  rw [inventory_expandAbbreviations lasting_introduced, ← introduced_fixed, fixed_emphasize]
  refine scan_related (R := fun before _ spans after =>
    Registers scope.references before (spans.filterMap Inline.introduced?) after)
    (fun _ _ => .none rfl) ?_ (fun _ registers => registers) ?_ (readBracket_registers scope)
    none none [] t notes
  · intro _ _ _ _ _ a b left right
    rw [List.filterMap_append]
    exact left.compose right
  · intro notes span lexeme
    rw [introduced_fixed, lexeme.introduces]
    exact .none rfl

theorem resolveStep_registers : Walks (resolveStep scope) fun before _ read after =>
    Registers scope.references before
      ((read.flatMap Block.spans).filterMap Inline.introduced?) after where
  idle notes := .none rfl
  compose left right := by
    rw [List.flatMap_append, List.filterMap_append]
    exact left.compose right
  leaf notes block leaf := by
    cases block with
    | heading level content anchor =>
      refine ⟨rfl, ?_⟩
      rw [List.flatMap_singleton]
      exact readInline_registers scope content.source notes
    | paragraph content =>
      refine ⟨rfl, ?_⟩
      rw [List.flatMap_singleton]
      exact readInline_registers scope content.source notes
    | list | quote => cases leaf
    | _ => exact ⟨rfl, .none rfl⟩
  list notes _ _ _ _ _ := .none rfl
  quote notes _ _ := .none rfl

end Reading

/-! ### Bodies -/

section Bodies

variable {scope : Scope} {fence : Text} {next : Nat} {notes after : Notes}
  {footnotes : List Footnote}

theorem Bodies.registers (bodies : Bodies scope fence next notes footnotes after) :
    Registers scope.references notes
      (((footnotes.flatMap fun note => flow note.blocks).flatMap Block.spans).filterMap
        Inline.introduced?) after := by
  induction bodies with
  | done => exact .none rfl
  | @body next notes after pending blocks others present source rest ih =>
    rw [List.flatMap_cons, List.flatMap_append, List.filterMap_append]
    exact ((resolveStep_registers scope).blocks notes blocks).compose ih

def FilledFrom (fence : Text) (pending : PendingFootnote) (note : Footnote) : Prop :=
  note.label = pending.label ∧ ∃ blocks, pending.source.blocks fence = .ok blocks ∧
    unread note.blocks = unread blocks

/-- A run to the end fills in what is registered at the end, footnote by footnote. -/
theorem Bodies.filled (bodies : Bodies scope fence next notes footnotes after)
    (total : next + footnotes.length = after.footnotes.length) :
    List.Forall₂ (FilledFrom fence) (after.footnotes.drop next) footnotes := by
  induction bodies with
  | done next notes =>
    have none : notes.footnotes.drop next = [] := List.drop_eq_nil_of_le total.ge
    rw [none]
    exact .nil
  | @body next notes after pending blocks others present source rest ih =>
    -- later bodies only append, so the footnote of this turn stays at its index
    have here := (resolveStep_registers scope).blocks notes blocks
    have kept := (here.compose rest.registers).kept present
    obtain ⟨inRange, here⟩ := List.getElem?_eq_some_iff.mp kept
    rw [List.drop_eq_getElem_cons inRange, here]
    rw [List.length_cons] at total
    exact .cons ⟨rfl, blocks, source, (resolveStep_fills id scope).stripped notes blocks⟩
      (ih (by omega))

end Bodies

/-! ### Documents -/

/-- The footnotes that the references of a document register, in the order of their numbers. -/
def registered (options : Options) (blocks : List Block) : List PendingFootnote :=
  let scope := Scope.ofBlocks options blocks
  let read := resolveBlocks scope (.start (References.collect blocks).2)
    (HeadingIndex.assign blocks).1
  (resolveFootnotes scope options.fence read.2).2.footnotes

section Resolved

variable {options : Options} {blocks : List Block} {document : Document}

theorem resolve_unresolved (h : resolve options blocks = .ok document) :
    unresolved document.blocks = unresolved blocks ∧
      definitions document.blocks = definitions blocks := by
  obtain ⟨notes, after, flowing, _⟩ := resolve_runs h
  have resolves := resolveStep_fills (fun _ => []) (.ofBlocks options blocks)
  have walked := congrArg Prod.fst flowing
  dsimp only at walked
  rw [← walked]
  exact ⟨(resolves.stripped _ _).trans (assignStep_fills.stripped _ _),
    (resolves.definitions _ _).trans (assignStep_fills.definitions _ _)⟩

/-- The labels of what is registered are introduced in reading order, the flow before the bodies,
and the footnotes have the bodies that the tables supply. -/
theorem resolve_registered (h : resolve options blocks = .ok document) :
    (registered options blocks).map PendingFootnote.label =
        document.spans.filterMap Inline.introduced? ∧
      (∀ pending ∈ registered options blocks, (References.collect blocks).1.Supplies pending) ∧
      List.Forall₂ (FilledFrom options.fence) (registered options blocks) document.footnotes := by
  obtain ⟨notes, after, flowing, footnotes, _⟩ := resolve_runs h
  have known := (rewrite_gathers (.ofBlocks options blocks) (HeadingIndex.assign blocks).1
    (.start (References.collect blocks).2)).known nofun
  have flows := (resolveStep_registers (.ofBlocks options blocks)).blocks
    (.start (References.collect blocks).2) (HeadingIndex.assign blocks).1
  rw [← resolveBlocks, flowing] at known flows
  have last : registered options blocks = after.footnotes := by
    simp only [registered, flowing, footnotes]
  have bodies := resolveFootnotesFrom_bodies footnotes
  obtain ⟨added, all, labels, supplied⟩ := flows.compose bodies.registers
  rw [← List.filterMap_append, ← List.flatMap_append] at labels
  rw [last]
  refine ⟨?_, ?_, bodies.filled (resolveFootnotes_numbered known footnotes).total⟩
  · rw [all]
    exact labels
  · rw [all]
    exact supplied

end Resolved

/-- The footnote has the label that was registered. Its body without spans is that of the first
definition of this label, or is read from content that labels no definition. -/
inductive FillsIn (blocks : List Block) (fence : Text) : PendingFootnote → Footnote → Prop
  | defined {label known : Text} {body : List Block} {note : Footnote}
      (first : FirstDefinition blocks (.footnote, normalizeLabel label)
        (some (.footnoteDef known body)))
      (labelled : note.label = label) (filled : unread note.blocks = body) :
      FillsIn blocks fence ⟨label, .defined body⟩ note
  | inPlace {label content : Text} {note : Footnote}
      (undefined : FirstDefinition blocks (.footnote, normalizeLabel content) none)
      (labelled : note.label = label)
      (filled : readFragment fence content = .ok (unread note.blocks)) :
      FillsIn blocks fence ⟨label, .inPlace content⟩ note

theorem footnote_first {blocks body : List Block} {label : Text}
    (found : (References.collect blocks).1.footnote? label = some body) :
    ∃ known, .footnoteDef known body ∈ flow blocks ∧
      FirstDefinition blocks (.footnote, normalizeLabel label)
        (some (.footnoteDef known body)) := by
  have first := definitionOf_first blocks (.footnote, normalizeLabel label)
  rw [collect_footnote] at found
  obtain ⟨block, search, holds⟩ := Option.bind_eq_some_iff.mp found
  rw [search] at first
  cases block <;> cases holds
  exact ⟨_, List.mem_of_find?_eq_some search, first⟩

theorem key_footnote {block : Block} {key : Text} (defines : block.key? = some (.footnote, key)) :
    ∃ known body, block = .footnoteDef known body := by
  cases block <;> cases defines
  exact ⟨_, _, rfl⟩

theorem footnote_undefined {blocks : List Block} {label : Text}
    (missing : (References.collect blocks).1.footnote? label = none) :
    FirstDefinition blocks (.footnote, normalizeLabel label) none := by
  have first := definitionOf_first blocks (.footnote, normalizeLabel label)
  rw [collect_footnote] at missing
  generalize definitionOf? (flow blocks) _ = counts at first missing
  cases first with
  | missing undefined => exact .missing undefined
  | found _ defines =>
    obtain ⟨known, body, rfl⟩ := key_footnote defines
    cases missing

def Block.place? : Block → Option (Nat × Text)
  | .heading level _ anchor => some (level, anchor)
  | _ => none

theorem entries_places (blocks : List Block) :
    (entries blocks).map (fun entry => (entry.level, entry.anchor)) =
      (flow blocks).filterMap Block.place? := by
  rw [entries, List.map_filterMap]
  congr 1
  funext block
  cases block <;> rfl

theorem References.Supplies.fillsIn {options : Options} {text : Text} {blocks : List Block}
    (read : readDocument options.fence text = .ok blocks) {pending : PendingFootnote}
    {note : Footnote} (supplied : (References.collect blocks).1.Supplies pending)
    (filled : FilledFrom options.fence pending note) :
    FillsIn blocks options.fence pending note := by
  obtain ⟨labelled, body, source, unfilled⟩ := filled
  cases supplied with
  | defined found =>
    cases source
    obtain ⟨known, defines, first⟩ := footnote_first found
    exact .defined first labelled (unfilled.trans (unread_body read defines))
  | inPlace undefined =>
    refine .inPlace (footnote_undefined undefined) labelled ?_
    rw [unfilled, unread_readBlocks source]
    exact source

/-- Resolution only fills in. Without anchors and spans a document is what was read from its text,
and definitions are untouched. Its entries are its headings, and its footnotes are those registered,
in the order of their first references, with the bodies that count for them. -/
theorem resolution_fills_in {options : Options} {text : Text} {document : Document}
    (h : Document.ofText options text = .ok document) :
    ∃ blocks, readDocument options.fence text = .ok blocks ∧
      unresolved document.blocks = blocks ∧
      definitions document.blocks = definitions blocks ∧
      document.entries.map (fun entry => (entry.level, entry.anchor)) =
        (flow document.blocks).filterMap Block.place? ∧
      List.Forall₂ (FillsIn blocks options.fence) (registered options blocks)
        document.footnotes ∧
      (registered options blocks).map PendingFootnote.label =
        document.spans.filterMap Inline.introduced? := by
  obtain ⟨blocks, read, resolved⟩ := Document.ofText_ok h
  obtain ⟨labels, supplied, filled⟩ := resolve_registered resolved
  obtain ⟨_, _, _, _, listed, _⟩ := resolve_runs resolved
  obtain ⟨unfilled, defined⟩ := resolve_unresolved resolved
  refine ⟨blocks, read, unfilled.trans (unresolved_readBlocks read), defined, ?_, ?_, labels⟩
  · rw [listed, entries_places]
  · have both := (List.forall₂_and_left _ _).mpr ⟨supplied, filled⟩
    exact both.imp fun pending note here => here.1.fillsIn read here.2

def filledSample : Text := "# T[^d]\n[^d]: # e[^x y]".toList

def filledSampleBlocks : List Block :=
  [headingBlock 1 "T[^d]".toList, .footnoteDef "d".toList [headingBlock 1 "e[^x y]".toList]]

theorem readDocument_filledSample :
    readDocument Options.default.fence filledSample = .ok filledSampleBlocks := by
  have cut : lines filledSample = ["# T[^d]".toList, "[^d]: # e[^x y]".toList] := by decide
  have heading : blockAt Options.default.fence .document "# T[^d]".toList
      ["[^d]: # e[^x y]".toList] = .leaf (headingBlock 1 "T[^d]".toList) 0 :=
    blockAt_heading (by decide) (by decide) (by decide) (by decide) (by decide) (by decide)
      (by decide)
  have note : blockAt Options.default.fence .document "[^d]: # e[^x y]".toList [] =
      .footnote "d".toList ["# e[^x y]".toList] 0 :=
    blockAt_definition (by decide) (by decide) (by decide) (by decide) (by cbv)
  have body : lines (unlines ["# e[^x y]".toList]) = ["# e[^x y]".toList] := by decide
  have inner : blockAt Options.default.fence .item "# e[^x y]".toList [] =
      .leaf (headingBlock 1 "e[^x y]".toList) 0 :=
    blockAt_heading (by decide) (by decide) (by decide) (by decide) (by decide) (by decide)
      (by decide)
  rw [readDocument, cut, readBlocks_leaf (by decide) heading, List.drop_zero,
    readBlocks_footnote (by decide) note, body, readBlocks_leaf (by decide) inner, List.drop_nil,
    readBlocks_nil, readBlocks_nil]
  rfl

theorem resolution_fills_in_sample :
    ∃ document first second, Document.ofText Options.default filledSample = .ok document ∧
      unresolved document.blocks = filledSampleBlocks ∧
      (flow document.blocks).filterMap Block.place? = [(1, "t".toList)] ∧
      document.footnotes = [first, second] ∧
      unread first.blocks = [headingBlock 1 "e[^x y]".toList] ∧
      readFragment Options.default.fence "x y".toList = .ok (unread second.blocks) := by
  have read : Document.ofText Options.default filledSample =
      resolve Options.default filledSampleBlocks := by
    rw [Document.ofText, readDocument_filledSample]
    rfl
  -- the two share a run, which is evaluated once for the pair
  have ran : ∃ document, (resolve Options.default filledSampleBlocks,
      registered Options.default filledSampleBlocks) =
        (.ok document, [⟨"d".toList, .defined [headingBlock 1 "e[^x y]".toList]⟩,
          ⟨"2".toList, .inPlace "x y".toList⟩]) ∧
      document.entries.map (fun entry => (entry.level, entry.anchor)) = [(1, "t".toList)] :=
    ⟨_, by cbv, rfl⟩
  obtain ⟨document, both, listed⟩ := ran
  obtain ⟨resolved, noted⟩ := Prod.mk.inj both
  obtain ⟨blocks, same, unfilled, _, entries, footnotes, _⟩ :=
    resolution_fills_in (read.trans resolved)
  rw [readDocument_filledSample] at same
  cases same
  rw [noted] at footnotes
  generalize shown : document.footnotes = notes at footnotes
  obtain _ | ⟨⟨_, _, own⟩, _ | ⟨_ | ⟨_, _, other⟩, _ | _⟩⟩ := footnotes
  exact ⟨document, _, _, read.trans resolved, unfilled, entries.symm.trans listed, shown, own,
    other⟩

end CommentMarkup
