import CommentMarkup.Proofs.Block.Prose
import CommentMarkup.Proofs.Block.TextLine
import CommentMarkup.Proofs.Footnote.Bodies
import CommentMarkup.Proofs.Inline.Linked
import Mathlib

/-!
# Justified warnings

A label is reported as unresolved only if it names nothing in the tables that the definitions were
collected into, and a link written with a label goes where the tables say: `warnings_justified`.
-/

namespace CommentMarkup

section Warnings

variable (scope : Scope)

inductive Scope.Misses : Warning → Prop
  | link {label : Text} (undefined : scope.references.link? label = none)
      (unnamed : scope.headings.anchor? label = none) : Misses (.unresolved .link label)
  | footnote {label : Text} (undefined : scope.references.footnote? label = none) :
      Misses (.unresolved .footnote label)

def Warns (before after : Notes) : Prop :=
  ∃ added, after.warnings = before.warnings ++ added ∧ ∀ warning ∈ added, scope.Misses warning

variable {scope}

theorem Warns.none {before after : Notes} (same : after.warnings = before.warnings) :
    Warns scope before after := by
  refine ⟨[], by rw [same, List.append_nil], fun warning member => ?_⟩
  cases member

theorem Warns.warn {warning : Warning} (misses : scope.Misses warning) (notes : Notes) :
    Warns scope notes (notes.warn warning) := by
  refine ⟨[warning], rfl, fun other member => ?_⟩
  rwa [List.mem_singleton.mp member]

theorem Warns.trans {first second third : Notes} (left : Warns scope first second)
    (right : Warns scope second third) : Warns scope first third := by
  obtain ⟨added, eq, misses⟩ := left
  obtain ⟨more, eq', misses'⟩ := right
  refine ⟨added ++ more, by rw [eq', eq, List.append_assoc], fun warning member => ?_⟩
  exact (List.mem_append.mp member).elim (misses warning) (misses' warning)

theorem target_none {label : Text} (h : scope.target? label = none) :
    scope.Misses (.unresolved .link label) := by
  unfold Scope.target? at h
  cases defined : scope.references.link? label with
  | some known =>
    rw [defined] at h
    cases h
  | none =>
    rw [defined] at h
    exact .link defined (Option.map_eq_none_iff.mp h)

/-! ### Reading -/

theorem footnoteRef_warns (content : Text) (notes : Notes) :
    Warns scope notes (footnoteRef? scope content notes).2 := by
  unfold footnoteRef?
  dsimp only
  split
  · exact .none rfl
  split
  · exact .none rfl
  · rename_i undefined
    split
    · exact .warn (.footnote undefined) notes
    · exact .none rfl

theorem readFootnote_warns (t : Text) (notes : Notes) :
    Warns scope notes (readFootnote scope t notes).2 := by
  unfold readFootnote
  dsimp only
  split
  · exact .none rfl
  split
  · exact .none rfl
  · exact footnoteRef_warns _ notes

theorem readLink_warns (image : Bool) (t : Text) (notes : Notes) :
    Warns scope notes (readLink scope image t notes).2 := by
  unfold readLink
  dsimp only
  split
  · exact .none rfl
  split
  · exact .none rfl
  split
  · split
    · exact .none rfl
    · rename_i missing
      exact .warn (target_none missing) notes
  · split <;> exact .none rfl

theorem readBracket_warns (t : Text) (notes : Notes) :
    Warns scope notes (readBracket scope t notes).2 := by
  unfold readBracket
  split
  · exact readLink_warns true _ notes
  · exact readFootnote_warns _ notes
  · exact readLink_warns false _ notes
  · exact .none rfl

theorem readInline_warns (t : Text) (notes : Notes) :
    Warns scope notes (readInline scope t notes).2 :=
  scan_related (R := fun before _ _ after => Warns scope before after) (fun _ _ => .none rfl)
    (fun left right => left.trans right) (fun _ warns => warns) (fun _ _ _ => .none rfl)
    readBracket_warns none none [] t notes

end Warnings

/-! ### Documents -/

section Documents

variable {scope : Scope}

def Scope.Linked (scope : Scope) (block : Block) : Prop :=
  ∀ span ∈ block.spans, ∀ link, span.link? = some link →
    ∃ place, '[' :: place <:+ block.source ∧ scope.Makes place link

theorem Scope.Linked.bare {block : Block} (bare : block.spans = []) : scope.Linked block := by
  intro span member
  rw [bare] at member
  cases member

theorem resolveStep_justified (scope : Scope) :
    Walks (resolveStep scope) fun before _ read after =>
      Warns scope before after ∧ ∀ block ∈ read, scope.Linked block where
  idle notes := ⟨.none rfl, fun block member => by cases member⟩
  compose left right :=
    ⟨left.1.trans right.1, fun block member =>
      (List.mem_append.mp member).elim (left.2 block) (right.2 block)⟩
  leaf notes block leaf := by
    cases block with
    | heading level content anchor =>
      refine ⟨rfl, readInline_warns content.source notes, List.forall_mem_singleton.mpr ?_⟩
      exact fun span member link => readInline_links scope member
    | paragraph content =>
      refine ⟨rfl, readInline_warns content.source notes, List.forall_mem_singleton.mpr ?_⟩
      exact fun span member link => readInline_links scope member
    | list | quote => cases leaf
    | _ => exact ⟨rfl, .none rfl, List.forall_mem_singleton.mpr (.bare rfl)⟩
  list notes ordered start tight items items' :=
    ⟨.none rfl, List.forall_mem_singleton.mpr (.bare rfl)⟩
  quote notes blocks blocks' := ⟨.none rfl, List.forall_mem_singleton.mpr (.bare rfl)⟩

theorem Bodies.justified {fence : Text} {next : Nat} {notes after : Notes}
    {footnotes : List Footnote} (bodies : Bodies scope fence next notes footnotes after) :
    Warns scope notes after ∧
      ∀ block ∈ footnotes.flatMap fun note => flow note.blocks, scope.Linked block := by
  induction bodies with
  | done next notes => exact ⟨.none rfl, fun block member => by cases member⟩
  | @body next notes after pending blocks others present source rest ih =>
    have here := (resolveStep_justified scope).blocks notes blocks
    refine ⟨here.1.trans ih.1, fun block member => ?_⟩
    rw [List.flatMap_cons] at member
    exact (List.mem_append.mp member).elim (here.2 block) (ih.2 block)

end Documents

/-! ### Duplicates -/

def Warning.IsDuplicate (warning : Warning) : Prop := ∃ kind label, warning = .duplicate kind label

theorem register_duplicates (state : References × List Warning) (block : Block)
    (duplicates : ∀ warning ∈ state.2, warning.IsDuplicate) :
    ∀ warning ∈ (References.register state block).2, warning.IsDuplicate := by
  have again {kind : LabelKind} {label : Text} :
      ∀ warning ∈ state.2 ++ [.duplicate kind label], warning.IsDuplicate := by
    intro warning member
    rcases List.mem_append.mp member with old | new
    · exact duplicates warning old
    · exact ⟨kind, label, List.mem_singleton.mp new⟩
  unfold References.register
  dsimp only
  split
  · split
    · exact again
    · exact duplicates
  · split
    · exact again
    · exact duplicates
  · split
    · exact again
    · exact duplicates
  · exact duplicates

theorem collect_duplicates (blocks : List Block) :
    ∀ warning ∈ (References.collect blocks).2, warning.IsDuplicate := by
  have run (shown : List Block) (state : References × List Warning)
      (duplicates : ∀ warning ∈ state.2, warning.IsDuplicate) :
      ∀ warning ∈ (shown.foldl References.register state).2, warning.IsDuplicate := by
    induction shown generalizing state with
    | nil => exact duplicates
    | cons block shown ih => exact ih _ (register_duplicates state block duplicates)
  exact run (flow blocks) (.empty, []) fun warning none => by cases none

structure Scope.Justifies (scope : Scope) (document : Document) : Prop where
  links : ∀ label, .unresolved .link label ∈ document.warnings →
    scope.references.link? label = none ∧ scope.headings.anchor? label = none
  footnotes : ∀ label, .unresolved .footnote label ∈ document.warnings →
    scope.references.footnote? label = none
  ordered : ∀ before kind label after,
    document.warnings = before ++ .unresolved kind label :: after →
      ∀ warning ∈ after, ¬ warning.IsDuplicate
  made : ∀ block ∈ document.flow, scope.Linked block
  named : ∀ place label link, ReferenceForm place label → scope.Makes place link →
    scope.Names label link.target

/-- Duplicates are reported first, then labels that name nothing. -/
def Scope.Reports (scope : Scope) (warnings : List Warning) : Prop :=
  ∃ duplicates unresolved, warnings = duplicates ++ unresolved ∧
    (∀ warning ∈ duplicates, warning.IsDuplicate) ∧ ∀ warning ∈ unresolved, scope.Misses warning

theorem Scope.Misses.not_duplicate {scope : Scope} {warning : Warning}
    (misses : scope.Misses warning) : ¬ warning.IsDuplicate := by
  rintro ⟨kind, label, rfl⟩
  cases misses

section Reports

variable {scope : Scope} {warnings : List Warning} (reports : scope.Reports warnings)

include reports

theorem Scope.Reports.missed {kind : LabelKind} {label : Text}
    (member : .unresolved kind label ∈ warnings) : scope.Misses (.unresolved kind label) := by
  obtain ⟨duplicates, unresolved, rfl, repeated, misses⟩ := reports
  rcases List.mem_append.mp member with early | late
  · obtain ⟨_, _, other⟩ := repeated _ early
    cases other
  · exact misses _ late

theorem Scope.Reports.ordered {before after : List Warning} {kind : LabelKind} {label : Text}
    (eq : warnings = before ++ .unresolved kind label :: after) :
    ∀ warning ∈ after, ¬ warning.IsDuplicate := by
  obtain ⟨duplicates, unresolved, rfl, repeated, misses⟩ := reports
  intro warning member
  have late : warning ∈ unresolved := by
    rcases List.append_eq_append_iff.mp eq with ⟨between, rfl, tail⟩ | ⟨between, rfl, tail⟩
    · rw [tail]
      exact List.mem_append_right _ (List.mem_cons_of_mem _ member)
    · cases between with
      | nil =>
        rw [List.nil_append] at tail
        rw [← tail]
        exact List.mem_cons_of_mem _ member
      | cons first between =>
        cases tail
        obtain ⟨_, _, other⟩ := repeated (.unresolved kind label) (by simp)
        cases other
  exact (misses warning late).not_duplicate

end Reports

/-- Warnings are justified by the tables: unresolved labels name nothing, repeated definitions are
reported before them, and a link written with a label has the target that the label names. -/
theorem warnings_justified {options : Options} {text : Text} {document : Document}
    (h : Document.ofText options text = .ok document) :
    ∃ blocks, readDocument options.fence text = .ok blocks ∧
      (Scope.ofBlocks options blocks).Justifies document := by
  unfold Document.ofText at h
  cases read : readDocument options.fence text with
  | error malformed =>
    rw [read] at h
    cases h
  | ok blocks =>
    rw [read] at h
    obtain ⟨notes, after, flowing, bodies, _, reported⟩ := resolve_bodies h
    have here := (resolveStep_justified (.ofBlocks options blocks)).blocks
      (.start (References.collect blocks).2) (HeadingIndex.assign blocks).1
    rw [resolveBlocks] at flowing
    rw [flowing] at here
    obtain ⟨unresolved, eq, misses⟩ := here.1.trans bodies.justified.1
    have reports : (Scope.ofBlocks options blocks).Reports document.warnings :=
      ⟨(References.collect blocks).2, unresolved, reported.trans eq, collect_duplicates blocks,
        misses⟩
    refine ⟨blocks, rfl, ?_, ?_, ?_, ?_, fun _ _ _ => readLink_reference _⟩
    · intro label member
      cases reports.missed member with
      | link undefined unnamed => exact ⟨undefined, unnamed⟩
    · intro label member
      cases reports.missed member with
      | footnote undefined => exact undefined
    · exact fun _ _ _ _ eq => reports.ordered eq
    · exact fun block member =>
        (List.mem_append.mp member).elim (here.2 block) (bodies.justified.2 block)

def reportSample : Text := "[a][b][d][e][^c]\n\n[b]: /u\n[B]: /v".toList

def reportSampleBlocks : List Block :=
  [paragraph ["[a][b][d][e][^c]".toList], .referenceDef "b".toList ⟨"/u".toList, none⟩,
    .referenceDef "B".toList ⟨"/v".toList, none⟩]

theorem readDocument_reportSample :
    readDocument Options.default.fence reportSample = .ok reportSampleBlocks := by
  have cut : lines reportSample =
      ["[a][b][d][e][^c]".toList, [], "[b]: /u".toList, "[B]: /v".toList] := by decide
  have text : blockAt Options.default.fence .document "[a][b][d][e][^c]".toList
      [[], "[b]: /u".toList, "[B]: /v".toList] =
      .leaf (paragraph ["[a][b][d][e][^c]".toList]) 0 :=
    blockAt_text (by decide +kernel) (by decide)
  have first : blockAt Options.default.fence .document "[b]: /u".toList ["[B]: /v".toList] =
      .leaf (.referenceDef "b".toList ⟨"/u".toList, none⟩) 0 :=
    blockAt_definition (by decide) (by decide) (by decide) (by decide) (by cbv)
  have second : blockAt Options.default.fence .document "[B]: /v".toList [] =
      .leaf (.referenceDef "B".toList ⟨"/v".toList, none⟩) 0 :=
    blockAt_definition (by decide) (by decide) (by decide) (by decide) (by cbv)
  rw [readDocument, cut, readBlocks_leaf (by decide) text, List.drop_zero, readBlocks_blank rfl,
    readBlocks_leaf (by decide) first, List.drop_zero, readBlocks_leaf (by decide) second,
    List.drop_nil, readBlocks_nil]
  rfl

theorem warnings_justified_reportSample :
    ∃ document, Document.ofText Options.default reportSample = .ok document ∧
      document.warnings = [.duplicate .link "B".toList, .unresolved .link "e".toList,
        .unresolved .footnote "c".toList] ∧
      (Scope.ofBlocks Options.default reportSampleBlocks).Justifies document := by
  have read : Document.ofText Options.default reportSample =
      resolve Options.default reportSampleBlocks := by
    rw [Document.ofText, readDocument_reportSample]
    rfl
  have resolved : ∃ document, resolve Options.default reportSampleBlocks = .ok document ∧
      document.warnings = [.duplicate .link "B".toList, .unresolved .link "e".toList,
        .unresolved .footnote "c".toList] := ⟨_, by cbv, rfl⟩
  obtain ⟨document, resolved, reported⟩ := resolved
  obtain ⟨blocks, same, justifies⟩ := warnings_justified (read.trans resolved)
  rw [readDocument_reportSample] at same
  cases same
  exact ⟨document, read.trans resolved, reported, justifies⟩

end CommentMarkup
