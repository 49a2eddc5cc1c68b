import CommentMarkup.Proofs.Block.Prose
import CommentMarkup.Proofs.Heading.Anchors
import CommentMarkup.Proofs.Inline.Proper
import CommentMarkup.Resolution

/-!
# Anchors of resolved documents

Only the headings in the flow of a document have anchors. Those in footnotes come from bodies that
were read on their own, and no anchor is assigned to them.
-/

namespace CommentMarkup

/-! ### Blocks as they are read -/

def Unassigned (blocks : List Block) : Prop := ∀ a ∈ anchors (flow blocks), a = []

/-- The block has no anchor yet, and neither have the headings that it defines a footnote with. -/
def Block.IsUnassigned : Block → Prop
  | .heading _ _ anchor => anchor = []
  | .footnoteDef _ body => Unassigned body
  | _ => True

theorem Unassigned.of_blocks {blocks : List Block} (h : ∀ block ∈ flow blocks, block.IsUnassigned) :
    Unassigned blocks := by
  intro a member
  obtain ⟨block, shown, has⟩ := List.mem_filterMap.mp member
  have here := h block shown
  cases block <;> cases has
  exact here

theorem leaf_unassigned {fence : Text} {ctx : Context} {l : Text} {ls : List Text} {block : Block}
    {more : Nat} (step : blockAt fence ctx l ls = .leaf block more) :
    ∀ inner ∈ block.flow, inner.IsUnassigned := by
  intro inner member
  cases stepAt step with
  | quote marked =>
    rw [Block.flow, quoteParagraphs, flow_paragraphs, List.mem_cons, List.mem_map] at member
    obtain rfl | ⟨group, _, rfl⟩ := member <;> trivial
  | heading | underlined =>
    rw [List.mem_singleton.mp member]
    rfl
  | _ =>
    rw [List.mem_singleton.mp member]
    trivial

theorem readBlocks_unassigned {fence : Text} {ctx : Context} {n : Nat} {ls : List Text}
    {blocks : List Block} (h : readBlocks fence ctx n ls = .ok blocks) :
    ∀ block ∈ flow blocks, block.IsUnassigned := by
  refine readBlocks_induction
    (motive := fun _ _ blocks => ∀ block ∈ flow blocks, block.IsUnassigned) ?_ ?_ ?_ ?_ ?_ h
  · intro _ block member
    cases member
  · intro _ _ _ _ _ ih
    exact ih
  · intro _ _ _ _ _ _ _ step ih block member
    exact (List.mem_append.mp member).elim (leaf_unassigned step block) (ih block)
  · intro _ _ _ ordered start run items _ _ _ read ih block member
    have inside : ∀ inner ∈ itemsFlow items, inner.IsUnassigned := by
      clear member
      generalize run.items = raws at read
      induction read with
      | nil =>
        intro inner none
        cases none
      | cons item _ others =>
        intro inner member
        exact (List.mem_append.mp member).elim (item.2 inner) (others inner)
    rcases List.mem_append.mp member with here | later
    · rcases List.mem_cons.mp here with rfl | inner
      · trivial
      · exact inside block inner
    · exact ih block later
  · intro _ _ _ label _ _ body _ _ _ inside ih block member
    rcases List.mem_append.mp member with here | later
    · rw [List.mem_singleton.mp here]
      exact .of_blocks inside
    · exact ih block later

/-! ### Bodies of footnotes -/

theorem register_footnotes {state : References × List Warning} {block : Block} {key : Text}
    {body : List Block} (listed : (key, body) ∈ (References.register state block).1.footnotes) :
    (key, body) ∈ state.1.footnotes ∨ ∃ label, block = .footnoteDef label body := by
  unfold References.register at listed
  dsimp only at listed
  split at listed
  · split at listed <;> exact .inl listed
  · split at listed
    · exact .inl listed
    · rcases List.mem_append.mp listed with old | new
      · exact .inl old
      · cases List.mem_singleton.mp new
        exact .inr ⟨_, rfl⟩
  · split at listed <;> exact .inl listed
  · exact .inl listed

theorem collect_footnotes {blocks body : List Block} {key : Text}
    (listed : (key, body) ∈ (References.collect blocks).1.footnotes) :
    ∃ label, Block.footnoteDef label body ∈ flow blocks := by
  have run (shown : List Block) (state : References × List Warning)
      (listed : (key, body) ∈ (shown.foldl References.register state).1.footnotes) :
      (key, body) ∈ state.1.footnotes ∨ ∃ label, Block.footnoteDef label body ∈ shown := by
    induction shown generalizing state with
    | nil => exact .inl listed
    | cons block shown ih =>
      rcases ih (References.register state block) listed with before | ⟨label, later⟩
      · rcases register_footnotes before with old | ⟨label, rfl⟩
        · exact .inl old
        · exact .inr ⟨label, List.mem_cons_self⟩
      · exact .inr ⟨label, List.mem_cons_of_mem _ later⟩
  rcases run (flow blocks) (.empty, []) listed with none | found
  · cases none
  · exact found

def References.Unassigned (references : References) : Prop :=
  ∀ entry ∈ references.footnotes, CommentMarkup.Unassigned entry.2

def FootnoteSource.Unassigned : FootnoteSource → Prop
  | .defined blocks => CommentMarkup.Unassigned blocks
  | .inPlace _ => True

def Notes.Unassigned (notes : Notes) : Prop :=
  ∀ pending ∈ notes.footnotes, pending.source.Unassigned

theorem collect_unassigned {blocks : List Block}
    (unassigned : ∀ block ∈ flow blocks, block.IsUnassigned) :
    (References.collect blocks).1.Unassigned := by
  intro entry listed
  obtain ⟨label, shown⟩ := collect_footnotes listed
  exact unassigned _ shown

theorem Outcome.unassigned {scope : Scope} (bodies : scope.references.Unassigned)
    {notes after : Notes} {made : Option Inline} (outcome : Outcome scope notes made after)
    (unassigned : notes.Unassigned) : after.Unassigned := by
  intro pending member
  cases outcome with
  | text | unresolved | link | again => exact unassigned pending member
  | defined label listed =>
    rcases List.mem_append.mp member with old | new
    · exact unassigned pending old
    · rw [List.mem_singleton.mp new]
      exact bodies _ listed
  | inPlace label text =>
    rcases List.mem_append.mp member with old | new
    · exact unassigned pending old
    · rw [List.mem_singleton.mp new]
      trivial

theorem Notes.Grows.unassigned {scope : Scope} (bodies : scope.references.Unassigned)
    {notes after : Notes} (grows : Notes.Grows scope notes after)
    (unassigned : notes.Unassigned) : after.Unassigned := by
  induction grows with
  | refl => exact unassigned
  | tail _ step ih =>
    obtain ⟨_, outcome⟩ := step
    exact outcome.unassigned bodies ih

theorem source_unassigned {fence : Text} {source : FootnoteSource} {blocks : List Block}
    (unassigned : source.Unassigned) (h : source.blocks fence = .ok blocks) :
    CommentMarkup.Unassigned blocks := by
  cases source with
  | defined body =>
    cases h
    exact unassigned
  | inPlace text => exact .of_blocks (readBlocks_unassigned h)

/-! ### Resolution -/

structure Resolves (scope : Scope) (before : Notes) (unread read : List Block)
    (after : Notes) : Prop where
  grows : Notes.Grows scope before after
  kept : anchors read = anchors unread
  proper : ∀ block ∈ read, ∀ span ∈ block.spans, span.IsProper

theorem Resolves.idle {scope : Scope} (notes : Notes) {unread read : List Block}
    (kept : anchors read = anchors unread) (bare : read.flatMap Block.spans = []) :
    Resolves scope notes unread read notes where
  grows := .refl
  kept := kept
  proper := by
    intro block member span inside
    rw [List.flatMap_eq_nil_iff.mp bare block member] at inside
    cases inside

theorem resolveStep_walks (scope : Scope) :
    Walks (resolveStep scope) (Resolves scope) where
  idle notes := .idle notes rfl rfl
  compose left right := by
    refine ⟨left.grows.trans right.grows, ?_, ?_⟩
    · rw [anchors_append, anchors_append, left.kept, right.kept]
    · intro block member
      exact (List.mem_append.mp member).elim (left.proper block) (right.proper block)
  leaf notes block leaf := by
    cases block with
    | heading level content anchor =>
      refine ⟨rfl, readInline_grows scope content.source notes, rfl, ?_⟩
      intro block member
      rw [List.mem_singleton.mp member]
      exact readInline_proper scope content.source notes
    | paragraph content =>
      refine ⟨rfl, readInline_grows scope content.source notes, rfl, ?_⟩
      intro block member
      rw [List.mem_singleton.mp member]
      exact readInline_proper scope content.source notes
    | list | quote => cases leaf
    | _ => exact ⟨rfl, .idle notes rfl rfl⟩
  list notes ordered start tight items items' := .idle notes rfl rfl
  quote notes blocks blocks' := .idle notes rfl rfl

theorem resolveFootnotesFrom_unassigned (scope : Scope) (bodies : scope.references.Unassigned)
    {fence : Text} {fuel next : Nat} {notes : Notes} {footnotes : List Footnote}
    (unassigned : notes.Unassigned)
    (h : (resolveFootnotesFrom scope fence fuel next notes).1 = .ok footnotes) :
    ∀ note ∈ footnotes, Unassigned note.blocks ∧
      ∀ block ∈ flow note.blocks, ∀ span ∈ block.spans, span.IsProper := by
  induction fuel generalizing next notes footnotes with
  | zero =>
    cases h
    intro note none
    cases none
  | succ fuel ih =>
    rw [resolveFootnotesFrom] at h
    split at h
    · cases h
      intro note none
      cases none
    · rename_i pending present
      split at h
      · cases h
      · rename_i blocks body
        have plain := source_unassigned (unassigned _ (List.mem_of_getElem? present)) body
        have resolves := (resolveStep_walks scope).blocks notes blocks
        dsimp only [resolveBlocks] at h
        generalize rewrite (resolveStep scope) notes blocks = read at resolves h
        obtain ⟨resolved, middle⟩ := read
        cases rest : resolveFootnotesFrom scope fence fuel (next + 1) middle with
        | mk result last =>
          rw [rest] at h
          cases result with
          | error malformed => cases h
          | ok others =>
            cases h
            have later := ih (resolves.grows.unassigned bodies unassigned)
              (congrArg Prod.fst rest)
            intro note member
            rcases List.mem_cons.mp member with rfl | tail
            · refine ⟨?_, resolves.proper⟩
              rw [Unassigned, resolves.kept]
              exact plain
            · exact later note tail

/-- The headings in the flow have anchors of their own, the others have none. -/
structure Document.Anchored (document : Document) : Prop where
  entries : document.entries = CommentMarkup.entries document.blocks
  distinct : (anchors (CommentMarkup.flow document.blocks)).Nodup
  filled : [] ∉ anchors (CommentMarkup.flow document.blocks)
  notes : ∀ note ∈ document.footnotes, Unassigned note.blocks
  proper : ∀ span ∈ document.spans, span.IsProper

theorem resolve_anchored {options : Options} {blocks : List Block} {document : Document}
    (unassigned : ∀ block ∈ flow blocks, block.IsUnassigned)
    (h : resolve options blocks = .ok document) : document.Anchored := by
  have bodies := collect_unassigned unassigned
  have own := assign_distinct blocks
  unfold resolve at h
  dsimp only at h
  generalize References.collect blocks = collected at bodies h
  generalize HeadingIndex.assign blocks = assigned at own h
  obtain ⟨references, warnings⟩ := collected
  obtain ⟨anchored, headings⟩ := assigned
  dsimp only [resolveBlocks] at h
  have resolves := (resolveStep_walks ⟨options.emphasis, references, headings⟩).blocks
    (.start warnings) anchored
  generalize rewrite (resolveStep _) _ anchored = read at resolves h
  obtain ⟨flowing, notes⟩ := read
  have start : (Notes.start warnings).Unassigned := by
    intro pending none
    cases none
  cases rest : resolveFootnotes ⟨options.emphasis, references, headings⟩ options.fence notes with
  | mk result after =>
    rw [rest] at h
    cases result with
    | error malformed => cases h
    | ok footnotes =>
      cases h
      have inner := resolveFootnotesFrom_unassigned ⟨options.emphasis, references, headings⟩ bodies
        (resolves.grows.unassigned bodies start) (congrArg Prod.fst rest)
      refine ⟨rfl, ?_, ?_, fun note member => (inner note member).1, ?_⟩
      · rw [resolves.kept]
        exact own.1
      · rw [resolves.kept]
        exact own.2
      · intro span member
        obtain ⟨block, shown, inside⟩ := List.mem_flatMap.mp member
        rcases List.mem_append.mp shown with flows | noted
        · exact resolves.proper block flows span inside
        · obtain ⟨note, listed, shown⟩ := List.mem_flatMap.mp noted
          exact (inner note listed).2 block shown span inside

end CommentMarkup
