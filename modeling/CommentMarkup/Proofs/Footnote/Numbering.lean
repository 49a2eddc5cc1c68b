import CommentMarkup.Options
import CommentMarkup.Proofs.Block.TextLine
import CommentMarkup.Proofs.Footnote.Notes
import CommentMarkup.Resolution
import Mathlib

/-!
# Numbering of footnotes

The footnotes of a document are numbered in the order of their first mentions, those in the bodies
of footnotes included. The bound on the number of footnotes is never reached before the last one:
what is left to resolve is worth less after each body, since a body has room for no more footnotes
than its source is worth.
-/

namespace CommentMarkup

def Block.mentions : Block → List Mention
  | .heading _ content _ | .paragraph content => CommentMarkup.mentions content.spans
  | _ => []

def flowMentions (blocks : List Block) : List Mention := (flow blocks).flatMap Block.mentions

/-- The mentions of a document as it is shown: its flow, then the footnotes in their order. -/
def Document.mentions (document : Document) : List Mention :=
  flowMentions document.blocks ++ document.footnotes.flatMap fun note => flowMentions note.blocks

/-! ### Blocks -/

/-- Reading the spans of blocks gathers what their openings pay for. -/
theorem resolveStep_gathers (scope : Scope) :
    Walks (resolveStep scope) fun before unread read after =>
      Gathers scope.references before (sumOver Block.openingCount unread)
        (read.flatMap Block.mentions) after where
  idle notes := .idle notes _
  compose left right := by
    rw [sumOver_append, List.flatMap_append]
    exact left.compose right
  leaf notes block leaf := by
    cases block with
    | heading level content anchor =>
      refine ⟨rfl, ?_⟩
      simpa [resolveStep, Block.mentions, sumOver, Block.openingCount] using
        readInline_gathers scope content.source notes
    | paragraph content =>
      refine ⟨rfl, ?_⟩
      simpa [resolveStep, Block.mentions, sumOver, Block.openingCount] using
        readInline_gathers scope content.source notes
    | list | quote => cases leaf
    | _ => exact ⟨rfl, .idle notes _⟩
  list notes ordered start tight items items' := .idle notes _
  quote notes blocks blocks' := .idle notes _

theorem rewrite_gathers (scope : Scope) (blocks : List Block) (notes : Notes) :
    Gathers scope.references notes (sumOver Block.openingCount (flow blocks))
      (flowMentions (rewrite (resolveStep scope) notes blocks).1)
      (rewrite (resolveStep scope) notes blocks).2 :=
  (resolveStep_gathers scope).blocks notes blocks

/-! ### Bodies -/

def pendingWorth (references : References) (next : Nat) (notes : Notes) : Nat :=
  sumOver PendingFootnote.worth (notes.footnotes.drop next) + unmet references notes

theorem length_le_worth (pending : List PendingFootnote) :
    pending.length ≤ sumOver PendingFootnote.worth pending := by
  induction pending with
  | nil => exact Nat.le_refl _
  | cons head pending ih =>
    simp only [List.length_cons, sumOver, PendingFootnote.worth, FootnoteSource.worth]
    omega

/-- Resolving a body uses up its footnote. -/
theorem body_pendingWorth_lt {references : References} {next openings : Nat} {before after : Notes}
    {pending : PendingFootnote} {ms : List Mention}
    (present : before.footnotes[next]? = some pending)
    (fits : openings ≤ pending.source.openingCount)
    (gathers : Gathers references before openings ms after) :
    pendingWorth references (next + 1) after < pendingWorth references next before := by
  obtain ⟨added, footnotes, paid⟩ := gathers.paid
  obtain ⟨inRange, here⟩ := List.getElem?_eq_some_iff.mp present
  have bound : next + 1 ≤ before.footnotes.length := inRange
  have left := List.drop_eq_getElem_cons inRange
  unfold pendingWorth
  rw [footnotes, List.drop_append_of_le_length bound, left, here,
    sumOver_append, sumOver_cons]
  have own : pending.worth = pending.source.openingCount + 1 := rfl
  omega

structure Numbered (next : Nat) (before : Notes) (footnotes : List Footnote) (after : Notes) :
    Prop where
  total : next + footnotes.length = after.footnotes.length
  numbers : footnotes.map Footnote.number = List.range' (next + 1) footnotes.length
  continues : Continues before.footnotes.length
    (footnotes.flatMap fun note => flowMentions note.blocks) after.footnotes.length

theorem Numbered.done {next : Nat} {notes : Notes} (reached : next = notes.footnotes.length) :
    Numbered next notes [] notes :=
  ⟨reached, rfl, .done _⟩

/-- Enough fuel for what the pending footnotes are worth resolves all footnotes. -/
theorem resolveFootnotesFrom_numbered {scope : Scope} {fence : Text} {fuel next : Nat}
    {notes after : Notes} {footnotes : List Footnote} (known : notes.Known)
    (inRange : next ≤ notes.footnotes.length)
    (enough : pendingWorth scope.references next notes ≤ fuel)
    (h : resolveFootnotesFrom scope fence fuel next notes = (.ok footnotes, after)) :
    Numbered next notes footnotes after := by
  induction fuel generalizing next notes footnotes with
  | zero =>
    obtain ⟨rfl, rfl⟩ : [] = footnotes ∧ notes = after := by simpa [resolveFootnotesFrom] using h
    -- each footnote is worth something, so no fuel is needed only when none is left
    apply Numbered.done
    have few := length_le_worth (notes.footnotes.drop next)
    rw [List.length_drop] at few
    unfold pendingWorth at enough
    omega
  | succ fuel ih =>
    rw [resolveFootnotesFrom] at h
    split at h
    · rename_i absent
      obtain ⟨rfl, rfl⟩ : [] = footnotes ∧ notes = after := by simpa using h
      exact .done (Nat.le_antisymm inRange (List.getElem?_eq_none_iff.mp absent))
    · rename_i pending present
      split at h
      · cases h
      · rename_i blocks body
        have gathers := rewrite_gathers scope blocks notes
        have fits := openingCount_blocks body
        have less := body_pendingWorth_lt present fits gathers
        dsimp only [resolveBlocks] at h
        generalize rewrite (resolveStep scope) notes blocks = read at gathers less h
        obtain ⟨resolved, middle⟩ := read
        cases rest : resolveFootnotesFrom scope fence fuel (next + 1) middle with
        | mk result last =>
          rw [rest] at h
          cases result with
          | error malformed => cases h
          | ok others =>
            obtain ⟨rfl, rfl⟩ : ⟨next + 1, pending.label, resolved⟩ :: others = footnotes ∧
                last = after := by simpa [Except.map] using h
            obtain ⟨added, grown, _⟩ := gathers.paid
            have bound := (List.getElem?_eq_some_iff.mp present).1
            have tail := ih (gathers.known known) (by rw [grown, List.length_append]; omega)
              (by omega) rest
            refine ⟨?_, ?_, ?_⟩
            · have total := tail.total
              rw [List.length_cons]
              omega
            · rw [List.map_cons, tail.numbers, List.length_cons, List.range'_succ]
            · rw [List.flatMap_cons]
              exact (gathers.continues known).append tail.continues

theorem sumOver_worth (sources : List FootnoteSource) :
    sumOver FootnoteSource.worth sources =
      sources.length + sumOver FootnoteSource.openingCount sources := by
  induction sources with
  | nil => rfl
  | cons source sources ih =>
    rw [sumOver_cons, sumOver_cons, ih, List.length_cons, FootnoteSource.worth]
    omega

theorem pendingWorth_le_bound (scope : Scope) (notes : Notes) :
    pendingWorth scope.references 0 notes ≤ footnoteBound scope notes := by
  unfold footnoteBound
  dsimp only
  rw [← sumOver_worth, sumOver_append, sumOver_map, sumOver_map]
  exact Nat.add_le_add_left (sumOver_filter_le _ _ _) _

theorem resolveFootnotes_numbered {scope : Scope} {fence : Text} {notes after : Notes}
    {footnotes : List Footnote} (known : notes.Known)
    (h : resolveFootnotes scope fence notes = (.ok footnotes, after)) :
    Numbered 0 notes footnotes after :=
  resolveFootnotesFrom_numbered known (Nat.zero_le _) (pendingWorth_le_bound scope notes) h

/-! ### Documents -/

/-- The footnotes of a document and its mentions are numbered from one on without a gap. -/
theorem resolve_numbered {options : Options} {blocks : List Block} {document : Document}
    (h : resolve options blocks = .ok document) :
    document.footnotes.map Footnote.number = List.range' 1 document.footnotes.length ∧
      Continues 0 document.mentions document.footnotes.length := by
  have start (warnings : List Warning) : (Notes.start warnings).Known := by
    intro entry member
    cases member
  unfold resolve at h
  dsimp only at h
  generalize References.collect blocks = collected at h
  generalize HeadingIndex.assign blocks = assigned at h
  obtain ⟨references, warnings⟩ := collected
  obtain ⟨anchored, headings⟩ := assigned
  dsimp only [resolveBlocks] at h
  have gathers := rewrite_gathers ⟨options.emphasis, references, headings⟩ anchored
    (.start warnings)
  generalize rewrite (resolveStep _) _ anchored = read at gathers h
  obtain ⟨flowing, notes⟩ := read
  cases rest : resolveFootnotes ⟨options.emphasis, references, headings⟩ options.fence notes with
  | mk result after =>
    rw [rest] at h
    cases result with
    | error malformed => cases h
    | ok footnotes =>
      cases h
      have numbered := resolveFootnotes_numbered (gathers.known (start warnings)) rest
      have total := numbered.total
      refine ⟨numbered.numbers, ?_⟩
      have flow := gathers.continues (start warnings)
      rw [Nat.zero_add] at total
      rw [total]
      exact flow.append numbered.continues

/-- In the order in which a document is shown, footnotes are listed by number, their first mentions
carry the numbers from one on, and every other mention repeats a number met before. -/
theorem footnotes_numbered {options : Options} {text : Text} {document : Document}
    (h : Document.ofText options text = .ok document) :
    (∀ (k : Nat) (inRange : k < document.footnotes.length),
      document.footnotes[k].number = k + 1) ∧
    (document.mentions.filter Mention.first).map Mention.number =
      List.range' 1 document.footnotes.length ∧
    ∀ before mention after, document.mentions = before ++ mention :: after →
      mention.first = false → ∃ earlier ∈ before, earlier.number = mention.number := by
  unfold Document.ofText at h
  cases read : readDocument options.fence text with
  | error malformed =>
    rw [read] at h
    cases h
  | ok blocks =>
    rw [read] at h
    obtain ⟨numbers, continues⟩ := resolve_numbered h
    refine ⟨?_, continues.firsts, ?_⟩
    · intro k inRange
      have listed := List.getElem_map Footnote.number (l := document.footnotes) (i := k)
        (h := by simpa using inRange)
      rw [← listed]
      simp only [numbers, List.getElem_range', Nat.one_mul, Nat.add_comm]
    · intro before mention after split again
      rcases continues.repeated split again with ⟨positive, known⟩ | member
      · omega
      · exact ⟨_, member, rfl⟩

def selfReference : Text := "a[^d]\n\n[^d]: e[^d]".toList

def selfReferenceBlocks : List Block :=
  [paragraph ["a[^d]".toList], .footnoteDef "d".toList [paragraph ["e[^d]".toList]]]

theorem readDocument_selfReference :
    readDocument Options.default.fence selfReference = .ok selfReferenceBlocks := by
  have cut : lines selfReference = ["a[^d]".toList, [], "[^d]: e[^d]".toList] := by decide
  have leading : blockAt Options.default.fence .document "a[^d]".toList
      [[], "[^d]: e[^d]".toList] = .leaf (paragraph ["a[^d]".toList]) 0 :=
    blockAt_text (by cbv) (by cbv)
  have footnote : blockAt Options.default.fence .document "[^d]: e[^d]".toList [] =
      .footnote "d".toList ["e[^d]".toList] 0 := by
    apply blockAt_definition
    · cbv
    · decide +kernel
    · decide +kernel
    · cbv
    · cbv
  have body : readBlocks Options.default.fence .item 3 (lines (unlines ["e[^d]".toList])) =
      .ok [paragraph ["e[^d]".toList]] := by
    apply readBlocks_text
    rw [List.forall_mem_singleton]
    cbv
  rw [readDocument, cut, readBlocks_leaf (by decide) leading, List.drop_zero,
    readBlocks_blank rfl, readBlocks_footnote (by decide) footnote, body, List.drop_nil,
    readBlocks_nil]
  rfl

theorem footnotes_numbered_selfReference :
    ∃ document, Document.ofText Options.default selfReference = .ok document ∧
      document.mentions = [⟨1, true⟩, ⟨1, false⟩] ∧ document.footnotes.length = 1 ∧
      ∃ earlier ∈ [Mention.mk 1 true], earlier.number = 1 := by
  have read : Document.ofText Options.default selfReference =
      resolve Options.default selfReferenceBlocks := by
    rw [Document.ofText, readDocument_selfReference]
    rfl
  have resolved : ∃ document, resolve Options.default selfReferenceBlocks = .ok document ∧
      document.mentions = [⟨1, true⟩, ⟨1, false⟩] ∧ document.footnotes.length = 1 :=
    ⟨_, by cbv, rfl, rfl⟩
  obtain ⟨document, resolved, mentions, one⟩ := resolved
  have numbered := footnotes_numbered (read.trans resolved)
  exact ⟨document, read.trans resolved, mentions, one,
    numbered.2.2 [⟨1, true⟩] ⟨1, false⟩ [] mentions rfl⟩

end CommentMarkup
