import CommentMarkup.Proofs.Tree.Flow
import CommentMarkup.Resolution

/-!
# Runs of resolution

A document that is resolved went through its own flow and then through the bodies of its footnotes,
one after the other: `resolve_bodies`. What each walk over blocks does to the notes is carried over
such a run by induction.
-/

namespace CommentMarkup

/-- What inline reading looks things up in when the text has these blocks. -/
def Scope.ofBlocks (options : Options) (blocks : List Block) : Scope :=
  ⟨options.emphasis, (References.collect blocks).1, (HeadingIndex.assign blocks).2⟩

/-- The footnotes from index `next` on, each resolved after the one before. -/
inductive Bodies (scope : Scope) (fence : Text) : Nat → Notes → List Footnote → Notes → Prop
  | done (next : Nat) (notes : Notes) : Bodies scope fence next notes [] notes
  | body {next : Nat} {notes after : Notes} {pending : PendingFootnote} {blocks : List Block}
      {others : List Footnote} (present : notes.footnotes[next]? = some pending)
      (source : pending.source.blocks fence = .ok blocks)
      (rest : Bodies scope fence (next + 1) (resolveBlocks scope notes blocks).2 others after) :
      Bodies scope fence next notes
        (⟨next + 1, pending.label, (resolveBlocks scope notes blocks).1⟩ :: others) after

theorem resolveFootnotesFrom_bodies {scope : Scope} {fence : Text} {fuel next : Nat}
    {notes after : Notes} {footnotes : List Footnote}
    (h : resolveFootnotesFrom scope fence fuel next notes = (.ok footnotes, after)) :
    Bodies scope fence next notes footnotes after := by
  induction fuel generalizing next notes footnotes with
  | zero =>
    cases h
    exact .done _ _
  | succ fuel ih =>
    rw [resolveFootnotesFrom] at h
    split at h
    · cases h
      exact .done _ _
    · rename_i pending present
      split at h
      · cases h
      · rename_i blocks source
        dsimp only at h
        cases rest : resolveFootnotesFrom scope fence fuel (next + 1)
            (resolveBlocks scope notes blocks).2 with
        | mk result last =>
          rw [rest] at h
          cases result with
          | error malformed => cases h
          | ok others =>
            cases h
            exact .body present source (ih rest)

theorem resolve_eq (options : Options) (blocks : List Block) :
    resolve options blocks =
      let scope := Scope.ofBlocks options blocks
      let read := resolveBlocks scope (.start (References.collect blocks).2)
        (HeadingIndex.assign blocks).1
      let bodies := resolveFootnotes scope options.fence read.2
      bodies.1.map fun footnotes => ⟨read.1, footnotes, entries read.1, bodies.2.warnings⟩ := rfl

theorem Document.ofText_ok {options : Options} {text : Text} {document : Document}
    (h : Document.ofText options text = .ok document) :
    ∃ blocks, readDocument options.fence text = .ok blocks ∧
      resolve options blocks = .ok document := by
  unfold Document.ofText at h
  cases read : readDocument options.fence text with
  | error malformed =>
    rw [read] at h
    cases h
  | ok blocks =>
    rw [read] at h
    exact ⟨blocks, rfl, h⟩

/-- A document that is resolved comes from two runs without failure. -/
theorem resolve_runs {options : Options} {blocks : List Block} {document : Document}
    (h : resolve options blocks = .ok document) :
    ∃ notes after,
      resolveBlocks (.ofBlocks options blocks) (.start (References.collect blocks).2)
        (HeadingIndex.assign blocks).1 = (document.blocks, notes) ∧
      resolveFootnotes (.ofBlocks options blocks) options.fence notes =
        (.ok document.footnotes, after) ∧
      document.entries = entries document.blocks ∧ document.warnings = after.warnings := by
  rw [resolve_eq] at h
  dsimp only at h
  generalize resolveBlocks _ _ _ = read at h ⊢
  obtain ⟨flowing, notes⟩ := read
  cases rest : resolveFootnotes (.ofBlocks options blocks) options.fence notes with
  | mk result after =>
    rw [rest] at h
    cases result with
    | error malformed => cases h
    | ok footnotes =>
      cases h
      exact ⟨notes, after, rfl, rest, rfl, rfl⟩

theorem resolve_bodies {options : Options} {blocks : List Block} {document : Document}
    (h : resolve options blocks = .ok document) :
    ∃ notes after,
      resolveBlocks (.ofBlocks options blocks) (.start (References.collect blocks).2)
        (HeadingIndex.assign blocks).1 = (document.blocks, notes) ∧
      Bodies (.ofBlocks options blocks) options.fence 0 notes document.footnotes after ∧
      document.entries = entries document.blocks ∧ document.warnings = after.warnings := by
  obtain ⟨notes, after, flowing, footnotes, others⟩ := resolve_runs h
  exact ⟨notes, after, flowing, resolveFootnotesFrom_bodies footnotes, others⟩

/-! ### Spans -/

section Inlines

variable {P : List Inline → Prop} (empty : P [])

include empty

theorem resolveStep_inlines {scope : Scope} (read : ∀ t notes, P (readInline scope t notes).1) :
    Walks (resolveStep scope) fun _ _ read _ => ∀ block ∈ read, P block.inlines where
  idle _ := List.forall_mem_nil _
  compose left right := List.forall_mem_append.mpr ⟨left, right⟩
  leaf notes block leaf := by
    cases block with
    | heading level content anchor | paragraph content =>
      exact ⟨rfl, List.forall_mem_singleton.mpr (read content.source notes)⟩
    | list | quote => cases leaf
    | _ => exact ⟨rfl, List.forall_mem_singleton.mpr empty⟩
  list _ _ _ _ _ _ := List.forall_mem_singleton.mpr empty
  quote _ _ _ := List.forall_mem_singleton.mpr empty

theorem Bodies.inlines {scope : Scope} (read : ∀ t notes, P (readInline scope t notes).1)
    {fence : Text} {next : Nat} {notes after : Notes} {footnotes : List Footnote}
    (bodies : Bodies scope fence next notes footnotes after) :
    ∀ note ∈ footnotes, ∀ block ∈ flow note.blocks, P block.inlines := by
  induction bodies with
  | done => exact List.forall_mem_nil _
  | @body _ notes _ _ blocks _ _ _ _ ih =>
    exact List.forall_mem_cons.mpr ⟨(resolveStep_inlines empty read).blocks notes blocks, ih⟩

/-- What holds of the spans of every text holds of the spans of every block that a document shows. -/
theorem document_inlines {options : Options} {blocks : List Block} {document : Document}
    (read : ∀ t notes, P (readInline (.ofBlocks options blocks) t notes).1)
    (resolved : resolve options blocks = .ok document) :
    ∀ block ∈ document.flow, P block.inlines := by
  obtain ⟨_, _, flowing, bodies, _, _⟩ := resolve_bodies resolved
  have own := (resolveStep_inlines empty read).blocks (.start (References.collect blocks).2)
    (HeadingIndex.assign blocks).1
  rw [resolveBlocks] at flowing
  rw [flowing] at own
  refine List.forall_mem_append.mpr ⟨own, fun block member => ?_⟩
  obtain ⟨note, listed, inside⟩ := List.mem_flatMap.mp member
  exact bodies.inlines empty read note listed block inside

end Inlines

end CommentMarkup
