import CommentMarkup.Proofs.Footnote.Bodies
import CommentMarkup.Proofs.Inline.Recorded

/-!
# Documents drawn from their texts

All that a document shows, its mail addresses, those written down of its images and its tables
together are drawn from the text, each string out of characters of its own: `document_drawn`.
-/

namespace CommentMarkup

/-- What a block shows apart from its mail addresses. Of its spans, `shown` says it. -/
def Block.shown (μ : Text → Nat) (shown : List Inline → Nat) : Block → Nat
  | .heading _ content _ | .paragraph content => shown content.spans
  | .code _ literal => μ literal
  | .rawHtml _ html => μ html
  | _ => 0

def Block.worth (μ : Text → Nat) (shown : List Inline → Nat) (block : Block) : Nat :=
  block.shown μ shown + sumOver μ (block.spans.filterMap Inline.mail?)

theorem worth_parts (μ : Text → Nat) (shown : List Inline → Nat) (blocks : List Block) :
    sumOver (Block.worth μ shown) blocks =
      sumOver (Block.shown μ shown) blocks +
        sumOver μ ((blocks.flatMap Block.spans).filterMap Inline.mail?) := by
  induction blocks with
  | nil => rfl
  | cons block blocks ih =>
    rw [List.flatMap_cons, List.filterMap_append, sumOver_append, sumOver_cons, sumOver_cons,
      Block.worth, ih]
    omega

/-! ### Reading -/

def Scope.recordBlocks (scope : Scope) (s : Notes × List Text) (blocks : List Block) :
    Notes × List Text :=
  blocks.foldl (fun s block => scope.record s block.source) s

/-- The mail addresses in the labels of the images in a document that a text is read as. -/
def Document.labelMails (options : Options) (text : Text) (document : Document) : List Text :=
  match readDocument options.fence text with
  | .error _ => []
  | .ok blocks =>
    ((Scope.ofBlocks options blocks).recordBlocks (.start (References.collect blocks).2, [])
      document.flow).2

theorem recordBlocks_append (scope : Scope) (s : Notes × List Text) (a b : List Block) :
    scope.recordBlocks s (a ++ b) = scope.recordBlocks (scope.recordBlocks s a) b :=
  List.foldl_append

theorem recordBlocks_bare (scope : Scope) (s : Notes × List Text) {block : Block}
    (bare : block.source = []) : scope.recordBlocks s [block] = s := by
  rw [Scope.recordBlocks, List.foldl_cons, bare, record_nil, List.foldl_nil]

section Reading

variable {μ : Text → Nat} {shown : List Inline → Nat} {scope : Scope}

/-- What a walk over blocks does to the notes is recorded, and what it reads, the addresses written down
and the new footnotes are drawn from the texts of the blocks. -/
def DrawnBlocks (μ : Text → Nat) (shown : List Inline → Nat) (scope : Scope) (before : Notes)
    (unread read : List Block) (after : Notes) : Prop :=
  ∀ list, ∃ new cost, scope.recordBlocks (before, list) read = (after, list ++ new) ∧
    Paid (FootnoteSource.cost μ) scope.references before cost after ∧
    sumOver (Block.worth μ shown) read + sumOver μ new + cost ≤ sumOver (Block.cost μ) unread

theorem DrawnBlocks.bare (notes : Notes) {unread read : Block} (bare : read.source = [])
    (le : read.worth μ shown ≤ unread.cost μ) :
    DrawnBlocks μ shown scope notes [unread] [read] notes := by
  intro list
  refine ⟨[], 0, ?_, .idle notes 0, le⟩
  rw [recordBlocks_bare scope (notes, list) bare, List.append_nil]

theorem DrawnBlocks.read (spends : scope.Spends μ shown) (notes : Notes) {t : Text}
    {unread read : Block} (source : read.source = t) (cost : unread.cost μ = μ t)
    (worth : read.worth μ shown =
      shown (readInline scope t notes).1 + mailCost μ (readInline scope t notes).1) :
    DrawnBlocks μ shown scope notes [unread] [read] (readInline scope t notes).2 := by
  intro list
  obtain ⟨new, paid, written, records, drawn⟩ := spends t notes list
  refine ⟨new, paid, ?_, records, ?_⟩
  · rw [Scope.recordBlocks, List.foldl_cons, source, List.foldl_nil, written]
  · simp only [sumOver]
    omega

theorem resolveStep_drawn (spends : scope.Spends μ shown) :
    Walks (resolveStep scope) (DrawnBlocks μ shown scope) where
  idle notes list := ⟨[], 0, by rw [List.append_nil]; rfl, .idle notes 0, Nat.le_refl _⟩
  compose left right list := by
    obtain ⟨new, m, state, paid, drawn⟩ := left list
    obtain ⟨new', n, state', paid', drawn'⟩ := right (list ++ new)
    refine ⟨new ++ new', m + n, ?_, paid.compose paid', ?_⟩
    · rw [recordBlocks_append, state, state', List.append_assoc]
    · rw [sumOver_append, sumOver_append, sumOver_append]
      omega
  leaf notes block leaf := by
    cases block with
    | heading level content anchor | paragraph content =>
      exact ⟨rfl, .read spends notes rfl rfl rfl⟩
    | list | quote => cases leaf
    | _ => exact ⟨rfl, .bare notes rfl (Nat.le_refl _)⟩
  list notes ordered start tight items items' := .bare notes rfl (Nat.le_refl _)
  quote notes blocks blocks' := .bare notes rfl (Nat.le_refl _)

theorem source_cost (measure : EscapeMeasure μ) {fence : Text} {source : FootnoteSource}
    {blocks : List Block} (h : source.blocks fence = .ok blocks) :
    sumOver (Block.cost μ) (flow blocks) ≤ source.cost μ := by
  cases source with
  | defined body =>
    cases h
    exact Nat.le_refl _
  | inPlace text => exact fragment_cost_le measure h

/-- The bodies of footnotes are drawn from their sources and from definitions not used before. -/
theorem Bodies.drawn (measure : EscapeMeasure μ) (spends : scope.Spends μ shown) {fence : Text}
    {next : Nat} {notes after : Notes} {footnotes : List Footnote}
    (bodies : Bodies scope fence next notes footnotes after) (list : List Text) :
    ∃ new, (scope.recordBlocks (notes, list)
        (footnotes.flatMap fun note => flow note.blocks)).2 = list ++ new ∧
      sumOver (Block.worth μ shown) (footnotes.flatMap fun note => flow note.blocks) +
          sumOver μ new ≤
        sumOver (fun pending => pending.source.cost μ) (notes.footnotes.drop next) +
          unused (FootnoteSource.cost μ) scope.references notes := by
  induction bodies generalizing list with
  | done next notes => exact ⟨[], (List.append_nil _).symm, Nat.zero_le _⟩
  | @body next notes after pending blocks others present source rest ih =>
    obtain ⟨new, cost, state, ⟨added, grown, paid⟩, drawn⟩ :=
      (resolveStep_drawn spends).blocks notes blocks list
    obtain ⟨inRange, here⟩ := List.getElem?_eq_some_iff.mp present
    have body := source_cost measure source
    obtain ⟨others', later, worth⟩ := ih (list ++ new)
    rw [resolveBlocks, grown, List.drop_append_of_le_length inRange, sumOver_append] at worth
    refine ⟨new ++ others', ?_, ?_⟩
    · rw [List.flatMap_cons, recordBlocks_append, resolveBlocks, state, ← List.append_assoc]
      exact later
    · rw [List.flatMap_cons, sumOver_append, List.drop_eq_getElem_cons inRange, here, sumOver_cons,
        sumOver_append, resolveBlocks]
      dsimp only [Nat.succ_eq_add_one] at worth ⊢
      omega

end Reading

/-! ### Tables -/

def References.cost (μ : Text → Nat) (references : References) : Nat :=
  sumOver (fun entry => entry.2.cost μ) references.links +
    sumOver (fun entry => FootnoteSource.cost μ (.defined entry.2)) references.footnotes +
    sumOver (fun entry => μ entry.2) references.abbreviations

theorem register_cost (μ : Text → Nat) (state : References × List Warning) (block : Block) :
    (References.register state block).1.cost μ + block.cost μ ≤
      state.1.cost μ + block.charge μ := by
  obtain ⟨references, warnings⟩ := state
  unfold References.register
  dsimp only
  split
  · split
    · exact Nat.add_le_add_left (Nat.zero_le _) _
    · simp only [References.cost, sumOver_append, sumOver, Block.cost, Block.charge]
      omega
  · split
    · exact Nat.add_le_add_left (Nat.zero_le _) _
    · simp only [References.cost, sumOver_append, sumOver, Block.cost, Block.charge,
        FootnoteSource.cost]
      omega
  · split
    · exact Nat.add_le_add_left (Nat.zero_le _) _
    · simp only [References.cost, sumOver_append, sumOver, Block.cost, Block.charge]
      omega
  · exact Nat.add_le_add_left (block.cost_le_charge μ) _

theorem registered_cost (μ : Text → Nat) (shown : List Block) (state : References × List Warning) :
    (shown.foldl References.register state).1.cost μ + sumOver (Block.cost μ) shown ≤
      state.1.cost μ + sumOver (Block.charge μ) shown := by
  induction shown generalizing state with
  | nil => exact Nat.le_refl _
  | cons block shown ih =>
    have here := register_cost μ state block
    have later := ih (References.register state block)
    rw [List.foldl_cons, sumOver_cons, sumOver_cons]
    omega

theorem collect_cost (μ : Text → Nat) (blocks : List Block) :
    (References.collect blocks).1.cost μ + sumOver (Block.cost μ) (flow blocks) ≤
      sumOver (Block.charge μ) (flow blocks) := by
  have whole := registered_cost μ (flow blocks) (.empty, [])
  have sorted (terms : List (Text × Text)) :
      sumOver (fun entry => μ entry.2) (References.longestFirst terms) =
        sumOver (fun entry => μ entry.2) terms :=
    sumOver_perm _ (List.mergeSort_perm terms _)
  have none : References.empty.cost μ = 0 := rfl
  simp only [References.collect, References.cost, sorted] at whole none ⊢
  omega

theorem assign_cost (μ : Text → Nat) (blocks : List Block) :
    sumOver (Block.cost μ) (flow (HeadingIndex.assign blocks).1) =
      sumOver (Block.cost μ) (flow blocks) := by
  have walks : Walks HeadingIndex.assignStep fun _ blocks assigned _ =>
      sumOver (Block.cost μ) assigned = sumOver (Block.cost μ) blocks := by
    refine ⟨fun _ => rfl, ?_, ?_, fun _ _ _ _ _ _ => rfl, fun _ _ _ => rfl⟩
    · intro _ _ _ a a' b b' left right
      rw [sumOver_append, sumOver_append, left, right]
    · intro index block leaf
      cases block with
      | list | quote => cases leaf
      | _ => exact ⟨rfl, rfl⟩
  exact walks.blocks [] blocks

/-- What a document shows, its mail addresses, those of its images and its tables are drawn from its
text. -/
theorem document_drawn {μ : Text → Nat} (measure : EscapeMeasure μ) {options : Options} {text : Text}
    {document : Document} {blocks : List Block} (read : readDocument options.fence text = .ok blocks)
    (resolved : resolve options blocks = .ok document) {shown : List Inline → Nat}
    (spends : (Scope.ofBlocks options blocks).Spends μ shown) :
    sumOver (Block.shown μ shown) document.flow +
      sumOver μ (document.spans.filterMap Inline.mail?) +
      sumOver μ (document.labelMails options text) +
      sumOver (fun entry => entry.2.cost μ) (References.collect blocks).1.links +
      sumOver (fun entry => μ entry.2) (References.collect blocks).1.abbreviations ≤ μ text := by
  obtain ⟨notes, after, flowing, bodies, _, _⟩ := resolve_bodies resolved
  obtain ⟨new, cost, state, ⟨added, grown, paid⟩, drawn⟩ :=
    (resolveStep_drawn spends).blocks (.start (References.collect blocks).2)
      (HeadingIndex.assign blocks).1 []
  rw [resolveBlocks] at flowing
  rw [flowing] at state grown paid drawn
  dsimp only at state grown paid drawn
  obtain ⟨later, written, worth⟩ := bodies.drawn measure spends new
  have mails : document.labelMails options text = new ++ later := by
    rw [Document.labelMails, read]
    dsimp only
    rw [Document.flow, recordBlocks_append, state]
    exact written
  have charged := document_charge_le measure read
  have collected := collect_cost μ blocks
  have assigned := assign_cost μ blocks
  have fresh : unused (FootnoteSource.cost μ) (References.collect blocks).1
      (.start (References.collect blocks).2) =
      sumOver (fun entry => FootnoteSource.cost μ (.defined entry.2))
        (References.collect blocks).1.footnotes := by
    simp [unused, Notes.start]
  have same : notes.footnotes = added := grown
  rw [Document.spans, ← worth_parts, mails, Document.flow, sumOver_append, sumOver_append]
  rw [List.drop_zero, same] at worth
  simp only [References.cost] at collected
  simp only [Scope.ofBlocks] at paid worth
  omega

end CommentMarkup
