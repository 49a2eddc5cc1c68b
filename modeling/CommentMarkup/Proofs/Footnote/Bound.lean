import CommentMarkup.Proofs.Definition.First
import CommentMarkup.Proofs.Footnote.Bodies
import CommentMarkup.Proofs.Footnote.Failing
import CommentMarkup.Proofs.Footnote.Numbering

/-!
# The number of footnotes

Resolving footnotes may bring up further ones, also in circles. `FullRun` is the loop over them with
no bound on its turns. It ends all the same, because a label is registered once and a footnote in
place takes its body out of the text around it: each turn leaves less worth pending. What is worth
something at the start bounds the number of footnotes.
-/

namespace CommentMarkup

/-- A run over the footnotes from index `next` on, up to its end. It ends behind the last footnote,
or at a body that cannot be read. -/
inductive FullRun (scope : Scope) (fence : Text) :
    Nat → Notes → Except Malformed (List Footnote) → Notes → Prop
  | ended {next : Nat} {notes : Notes} (all : notes.footnotes[next]? = none) :
      FullRun scope fence next notes (.ok []) notes
  | failed {next : Nat} {notes : Notes} {pending : PendingFootnote} {malformed : Malformed}
      (present : notes.footnotes[next]? = some pending)
      (unread : pending.source.blocks fence = .error malformed) :
      FullRun scope fence next notes (.error malformed) notes
  | turn {next : Nat} {notes after : Notes} {pending : PendingFootnote} {blocks : List Block}
      {result : Except Malformed (List Footnote)}
      (present : notes.footnotes[next]? = some pending)
      (source : pending.source.blocks fence = .ok blocks)
      (rest : FullRun scope fence (next + 1) (resolveBlocks scope notes blocks).2 result after) :
      FullRun scope fence next notes
        (result.map (⟨next + 1, pending.label, (resolveBlocks scope notes blocks).1⟩ :: ·)) after

section Runs

variable {scope : Scope} {fence : Text} {next : Nat} {notes after : Notes}
  {result : Except Malformed (List Footnote)}

theorem FullRun.unique {after' : Notes} {result' : Except Malformed (List Footnote)}
    (one : FullRun scope fence next notes result after)
    (other : FullRun scope fence next notes result' after') :
    result' = result ∧ after' = after := by
  induction one generalizing result' after' with
  | ended all =>
    cases other with
    | ended => exact ⟨rfl, rfl⟩
    | failed present | turn present =>
      rw [all] at present
      cases present
  | failed present unread =>
    cases other with
    | ended all =>
      rw [present] at all
      cases all
    | failed present' unread' =>
      obtain rfl := Option.some.inj (present.symm.trans present')
      obtain rfl := Except.error.inj (unread.symm.trans unread')
      exact ⟨rfl, rfl⟩
    | turn present' source =>
      obtain rfl := Option.some.inj (present.symm.trans present')
      cases unread.symm.trans source
  | turn present source _ ih =>
    cases other with
    | ended all =>
      rw [present] at all
      cases all
    | failed present' unread =>
      obtain rfl := Option.some.inj (present.symm.trans present')
      cases source.symm.trans unread
    | turn present' source' rest =>
      obtain rfl := Option.some.inj (present.symm.trans present')
      obtain rfl := Except.ok.inj (source.symm.trans source')
      obtain ⟨rfl, rfl⟩ := ih rest
      exact ⟨rfl, rfl⟩

/-- A turn spends the footnote that it resolves, whatever footnotes its body brings up. -/
theorem turn_pendingWorth_lt (scope : Scope) {pending : PendingFootnote} {blocks : List Block}
    (present : notes.footnotes[next]? = some pending)
    (source : pending.source.blocks fence = .ok blocks) :
    pendingWorth scope.references (next + 1) (resolveBlocks scope notes blocks).2 <
      pendingWorth scope.references next notes :=
  body_pendingWorth_lt present (openingCount_blocks source) (rewrite_gathers scope blocks notes)

theorem length_le_pendingWorth (references : References) (next : Nat) (notes : Notes) :
    notes.footnotes.length ≤ next + pendingWorth references next notes := by
  have few := length_le_worth (notes.footnotes.drop next)
  rw [List.length_drop] at few
  unfold pendingWorth
  omega

/-- With fuel for all that is pending the run is never cut off. -/
theorem resolveFootnotesFrom_fullRun {fuel : Nat}
    (enough : pendingWorth scope.references next notes ≤ fuel) :
    FullRun scope fence next notes (resolveFootnotesFrom scope fence fuel next notes).1
      (resolveFootnotesFrom scope fence fuel next notes).2 := by
  induction fuel generalizing next notes with
  | zero =>
    have few := length_le_pendingWorth scope.references next notes
    exact .ended (List.getElem?_eq_none (by omega))
  | succ fuel ih =>
    rw [resolveFootnotesFrom]
    cases present : notes.footnotes[next]? with
    | none => exact .ended present
    | some pending =>
      dsimp only
      cases source : pending.source.blocks fence with
      | error malformed => exact .failed present source
      | ok blocks =>
        have less := turn_pendingWorth_lt scope present source
        exact .turn present source (ih (by omega))

/-- The loop ends, and `resolveFootnotes` is what it comes to. -/
theorem fullRun_iff :
    FullRun scope fence 0 notes result after ↔
      resolveFootnotes scope fence notes = (result, after) := by
  have run : FullRun scope fence 0 notes (resolveFootnotes scope fence notes).1
      (resolveFootnotes scope fence notes).2 :=
    resolveFootnotesFrom_fullRun (pendingWorth_le_bound scope notes)
  constructor
  · intro other
    obtain ⟨same, same'⟩ := run.unique other
    rw [same, same']
  · intro same
    rwa [same] at run

/-- The footnotes at the end are no more than what was worth something at the start. -/
theorem FullRun.length_le (run : FullRun scope fence next notes result after) :
    after.footnotes.length ≤ next + pendingWorth scope.references next notes := by
  induction run with
  | ended | failed => exact length_le_pendingWorth _ _ _
  | turn present source _ ih =>
    have less := turn_pendingWorth_lt scope present source
    omega

end Runs

/-! ### Documents -/

/-- The openings in the headings and paragraphs of the blocks, those in the definitions of footnotes
left out. -/
def flowOpenings (blocks : List Block) : Nat := sumOver Block.openingCount (flow blocks)

def References.labelCount (references : References) : Nat :=
  (references.footnotes.map Prod.fst).dedup.length

/-- One footnote for each label, and one for each opening in the document and in the bodies of
defined footnotes. -/
def footnoteRoom (blocks : List Block) : Nat :=
  let references := (References.collect blocks).1
  references.labelCount + flowOpenings blocks +
    sumOver (fun entry => flowOpenings entry.2) references.footnotes

theorem flowOpenings_assign (blocks : List Block) :
    flowOpenings (HeadingIndex.assign blocks).1 = flowOpenings blocks := by
  rw [flowOpenings, flow_openingCount, prose_assign, ← flow_openingCount, flowOpenings]

/-- At first every definition is worth something. -/
theorem unmet_start (references : References) (warnings : List Warning) :
    unmet references (.start warnings) =
      references.footnotes.length +
        sumOver (fun entry => flowOpenings entry.2) references.footnotes := by
  have all : (references.footnotes.filter fun entry =>
      ((Notes.start warnings).numbers.lookup entry.1).isNone) = references.footnotes :=
    List.filter_eq_self.mpr fun _ _ => rfl
  rw [unmet, all]
  have worth := sumOver_worth (references.footnotes.map fun entry => .defined entry.2)
  rw [sumOver_map, sumOver_map, List.length_map] at worth
  exact worth

theorem flow_pendingWorth_le (options : Options) (blocks : List Block) :
    pendingWorth (References.collect blocks).1 0
      (resolveBlocks (.ofBlocks options blocks) (.start (References.collect blocks).2)
        (HeadingIndex.assign blocks).1).2 ≤ footnoteRoom blocks := by
  have gathers := rewrite_gathers (.ofBlocks options blocks) (HeadingIndex.assign blocks).1
    (.start (References.collect blocks).2)
  obtain ⟨added, footnotes, paid⟩ := gathers.paid
  have labels : (References.collect blocks).1.labelCount =
      (References.collect blocks).1.footnotes.length := by
    rw [References.labelCount, (collect_footnotes_keyed blocks).dedup, List.length_map]
  have initial := unmet_start (References.collect blocks).1 (References.collect blocks).2
  have flowing := flowOpenings_assign blocks
  rw [pendingWorth, footnoteRoom, resolveBlocks, List.drop_zero, footnotes]
  calc sumOver PendingFootnote.worth added + unmet (References.collect blocks).1 _
    _ ≤ unmet (References.collect blocks).1 (.start (References.collect blocks).2) +
        flowOpenings (HeadingIndex.assign blocks).1 := paid
    _ = _ := by
      rw [initial, flowing, labels]
      omega

/-- Resolving the footnotes of a document comes to an end, and no more of them are registered than
there is room for. -/
theorem footnotes_bounded {options : Options} {text : Text} {blocks : List Block}
    (read : readDocument options.fence text = .ok blocks) :
    ∃ flowing notes result after,
      resolveBlocks (.ofBlocks options blocks) (.start (References.collect blocks).2)
        (HeadingIndex.assign blocks).1 = (flowing, notes) ∧
      (∀ result' after', FullRun (.ofBlocks options blocks) options.fence 0 notes result' after' ↔
        result' = result ∧ after' = after) ∧
      Document.ofText options text = result.map (fun footnotes =>
        ⟨flowing, footnotes, entries flowing, after.warnings⟩) ∧
      after.footnotes.length ≤ footnoteRoom blocks := by
  have room := flow_pendingWorth_le options blocks
  have resolved := resolve_eq options blocks
  dsimp only at resolved
  generalize resolveBlocks (.ofBlocks options blocks) _ _ = flowing at room resolved
  obtain ⟨flowing, notes⟩ := flowing
  cases rest : resolveFootnotes (.ofBlocks options blocks) options.fence notes with
  | mk result after =>
    have run := fullRun_iff.mpr rest
    refine ⟨flowing, notes, result, after, rfl, fun result' after' => ?_, ?_, ?_⟩
    · rw [fullRun_iff, rest, Prod.mk.injEq, eq_comm, @eq_comm _ after]
    · rw [Document.ofText, read]
      exact resolved.trans (by rw [rest])
    · have most := run.length_le
      rw [Nat.zero_add] at most
      exact most.trans room

/-- One label, one opening in the flow and one in the body that refers to itself. -/
theorem footnotes_bounded_selfReference :
    footnoteRoom selfReferenceBlocks = 3 ∧
    ∃ notes result after,
      FullRun (.ofBlocks Options.default selfReferenceBlocks) Options.default.fence 0 notes result
        after ∧
      after.footnotes.length ≤ 3 := by
  have room : footnoteRoom selfReferenceBlocks = 3 := by cbv
  obtain ⟨_, notes, result, after, _, run, _, most⟩ := footnotes_bounded readDocument_selfReference
  rw [room] at most
  exact ⟨room, notes, result, after, (run result after).mpr ⟨rfl, rfl⟩, most⟩

end CommentMarkup
