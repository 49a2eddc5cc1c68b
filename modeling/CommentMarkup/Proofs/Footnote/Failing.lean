import CommentMarkup.Options
import CommentMarkup.Proofs.Block.Failing
import CommentMarkup.Proofs.Block.Located
import CommentMarkup.Proofs.Block.TextLine
import CommentMarkup.Proofs.Footnote.Bodies
import CommentMarkup.Proofs.Heading.Resolved

/-!
# Footnotes that cannot be read

The body of a footnote that is written in place is read on its own after the document, and its lines
are counted from one again. So a failure there names a line of the body. As a line of the text it
belongs to the footnote only if the footnote starts early enough: `footnoteFailure_spanned_iff`.
-/

namespace CommentMarkup

open Text

def inPlace (body : Text) : Text := ['[', '^'] ++ (body ++ [']'])

/-! ### Places of footnotes -/

theorem codeSpan_pos {cs code : Text} {n : Nat} (h : codeSpan? (tick :: cs) = some (code, n)) :
    0 < n := by
  obtain ⟨k, _, eq⟩ := Option.map_eq_some_iff.mp h
  cases eq
  have opening : 0 < runLength tick (tick :: cs) := by simp [runLength]
  omega

theorem drop_bracketIndex {depth n : Nat} {t : Text} (h : bracketIndex? depth t = some n) :
    ∃ rest, t.drop n = ']' :: rest := by
  fun_induction bracketIndex? depth t generalizing n with
  | case1 => cases h
  | case2 depth cs ih =>
    obtain ⟨k, inner, rfl⟩ := Option.map_eq_some_iff.mp h
    obtain ⟨rest, eq⟩ := ih inner
    rw [List.drop_drop, Nat.add_comm] at eq
    exact ⟨rest, eq⟩
  | case3 | case5 | case7 | case8 =>
    rename_i ih
    obtain ⟨k, inner, rfl⟩ := Option.map_eq_some_iff.mp h
    exact ih inner
  | case4 =>
    cases h
    exact ⟨_, rfl⟩
  | case6 depth cs code length _ _ _ found ih =>
    obtain ⟨k, inner, rfl⟩ := Option.map_eq_some_iff.mp h
    obtain ⟨rest, eq⟩ := ih inner
    have counted : k + length = length - 1 + k + 1 := by
      have pos := codeSpan_pos found
      omega
    rw [List.drop_drop] at eq
    exact ⟨rest, by rw [counted, List.drop_succ_cons, eq]⟩

theorem inPlace_start {t : Text} {n : Nat} (h : bracketIndex? 0 t = some n) :
    inPlace (t.take n) <+: '[' :: '^' :: t := by
  obtain ⟨rest, eq⟩ := drop_bracketIndex h
  refine ⟨rest, ?_⟩
  have whole := List.take_append_drop n t
  rw [eq] at whole
  simpa [inPlace] using whole

theorem cutAt_inPlace (body : Text) :
    ∃ piece pieces, cutAt (· == '\n') (body ++ [']']) = piece :: pieces ∧
      cutAt (· == '\n') (inPlace body) = (['[', '^'] ++ piece) :: pieces := by
  obtain ⟨piece, pieces, eq⟩ :=
    List.exists_cons_of_ne_nil (cutAt_ne_nil (p := (· == '\n')) (body ++ [']']))
  exact ⟨piece, pieces, eq, cutAt_append (by simp) eq⟩

/-- The first line of a footnote has its bracket. -/
theorem bracket_of_writtenAt {ls : List Text} {body : Text} {k : Nat}
    (written : WrittenAt ls (inPlace body) k) : ∃ l, ls[k]? = some l ∧ '[' ∈ l := by
  obtain ⟨piece, pieces, _, cut⟩ := cutAt_inPlace body
  rw [WrittenAt, cut] at written
  obtain ⟨l, there, holds⟩ := written 0 _ rfl
  have start : ['[', '^'] <+: trim (['[', '^'] ++ piece) := by
    have bare : ¬ startsWith isSpace (['[', '^'] ++ piece) := by simp +decide [startsWith]
    rw [trim, trimStart_eq_self bare]
    by_cases blank : isBlank piece
    · rw [trimEnd_append_blank _ blank]
      decide
    · rw [trimEnd_append _ blank]
      exact List.prefix_append _ _
  exact ⟨l, there, holds.subset (start.subset List.mem_cons_self)⟩

/-- The lines of the body stand where the footnote does. -/
theorem aligned_body {ls : List Text} {body : Text} {k : Nat}
    (written : WrittenAt ls (inPlace body) k) : Aligned Holds ls (lines body) k := by
  obtain ⟨piece, pieces, eq, opened⟩ := cutAt_inPlace body
  have inside : Aligned Holds (cutAt (· == '\n') (inPlace body))
      (cutAt (· == '\n') (body ++ [']'])) 0 := by
    rw [opened, eq]
    exact (Aligned.refl Holds.refl pieces).cons (.of_part (List.suffix_append _ piece).isInfix)
  have front := aligned_cutAt_of_prefix (p := (· == '\n')) (List.prefix_append body [']'])
  have own : Aligned Holds (cutAt (· == '\n') body) (lines body) 0 := by
    refine (aligned_lines body).imp ?_
    rintro _ l ⟨behind, _, rfl⟩
    exact .of_part (List.prefix_append l behind).isInfix
  exact Aligned.compose written (inside.compose (front.compose own))

/-! ### Footnotes that are gathered -/

def FootnoteSource.WrittenIn (ls : List Text) : FootnoteSource → Prop
  | .defined blocks => ∀ t ∈ prose blocks, Written ls t
  | .inPlace body => Written ls (CommentMarkup.inPlace body)

def Notes.WrittenIn (ls : List Text) (notes : Notes) : Prop :=
  ∀ pending ∈ notes.footnotes, pending.source.WrittenIn ls

def References.WrittenIn (ls : List Text) (references : References) : Prop :=
  ∀ entry ∈ references.footnotes, ∀ t ∈ prose entry.2, Written ls t

theorem Notes.WrittenIn.register {ls : List Text} {notes : Notes} {source : FootnoteSource}
    (written : notes.WrittenIn ls) (label : Text) (here : source.WrittenIn ls) :
    (notes.register label source).WrittenIn ls := by
  intro pending member
  rcases List.mem_append.mp member with old | new
  · exact written pending old
  · rw [List.mem_singleton.mp new]
    exact here

theorem readLink_footnotes (scope : Scope) (image : Bool) (t : Text) (notes : Notes) :
    (readLink scope image t notes).2.footnotes = notes.footnotes := by
  unfold readLink
  dsimp only
  split
  · rfl
  · split
    · rfl
    · split <;> split <;> rfl

section Reading

variable {scope : Scope} {ls : List Text} (bodies : scope.references.WrittenIn ls)

include bodies

theorem footnoteRef_written {content : Text} (here : Written ls (inPlace content)) {notes : Notes}
    (written : notes.WrittenIn ls) : (footnoteRef? scope content notes).2.WrittenIn ls := by
  unfold footnoteRef?
  dsimp only
  split
  · exact written
  · split
    · rename_i blocks found
      exact written.register _ (bodies _ (mem_of_lookup found))
    · split
      · exact written
      · exact written.register _ here

theorem readFootnote_written {t : Text} (here : Written ls ('[' :: '^' :: t)) {notes : Notes}
    (written : notes.WrittenIn ls) : (readFootnote scope t notes).2.WrittenIn ls := by
  unfold readFootnote
  dsimp only
  split
  · exact written
  · rename_i n index
    split
    · exact written
    · obtain ⟨k, place⟩ := here
      exact footnoteRef_written bodies (place.inside (inPlace_start index).isInfix) written

theorem readBracket_written {t : Text} (here : Written ls t) {notes : Notes}
    (written : notes.WrittenIn ls) : (readBracket scope t notes).2.WrittenIn ls := by
  have link (image : Bool) (cs : Text) : (readLink scope image cs notes).2.WrittenIn ls := by
    rw [Notes.WrittenIn, readLink_footnotes]
    exact written
  unfold readBracket
  split
  · exact link true _
  · exact readFootnote_written bodies here written
  · exact link false _
  · exact written

theorem readInline_written {t : Text} (here : Written ls t) {notes : Notes}
    (written : notes.WrittenIn ls) : (readInline scope t notes).2.WrittenIn ls := by
  obtain ⟨k, whole⟩ := here
  exact scan_keeps none none [] t
    (fun place notes inside => readBracket_written bodies (whole.inside inside.isInfix)) written

theorem resolveStep_written : Walks (resolveStep scope) fun before unread _ after =>
    (∀ block ∈ unread, Written ls block.source) → before.WrittenIn ls → after.WrittenIn ls where
  idle notes _ written := written
  compose left right unread written := by
    rw [List.forall_mem_append] at unread
    exact right unread.2 (left unread.1 written)
  leaf notes block leaf := by
    cases block with
    | heading level content anchor =>
      exact ⟨rfl, fun unread => readInline_written bodies (unread _ List.mem_cons_self)⟩
    | paragraph content =>
      exact ⟨rfl, fun unread => readInline_written bodies (unread _ List.mem_cons_self)⟩
    | list | quote => cases leaf
    | _ => exact ⟨rfl, fun _ written => written⟩
  list notes _ _ _ _ _ _ written := written
  quote notes _ _ _ written := written

theorem resolveBlocks_written {blocks : List Block} (unread : ∀ t ∈ prose blocks, Written ls t)
    {notes : Notes} (written : notes.WrittenIn ls) :
    (resolveBlocks scope notes blocks).2.WrittenIn ls :=
  (resolveStep_written bodies).blocks notes blocks (List.forall_mem_map.mp unread) written

end Reading

theorem prose_written {fence : Text} {ctx : Context} {n : Nat} {ls : List Text}
    {blocks : List Block} (whole : ∀ l ∈ ls, '\n' ∉ l)
    (read : readBlocks fence ctx n ls = .ok blocks) : ∀ t ∈ prose blocks, Written ls t := by
  refine List.forall_mem_map.mpr fun block member => ?_
  exact readBlocks_written whole read block (flow_subset_nested blocks member)

theorem source_written {fence : Text} {ls : List Text} {source : FootnoteSource}
    {blocks : List Block} (written : source.WrittenIn ls)
    (read : source.blocks fence = .ok blocks) : ∀ t ∈ prose blocks, Written ls t := by
  cases source with
  | defined body =>
    cases read
    exact written
  | inPlace body =>
    obtain ⟨k, place⟩ := written
    intro t member
    have inner := prose_written (lines_whole body) read t member
    exact inner.outer (aligned_body place)

/-- A failure of resolution is that of a footnote that is written in place somewhere in the text. -/
theorem resolveFootnotesFrom_failed {scope : Scope} {fence : Text} {ls : List Text}
    (bodies : scope.references.WrittenIn ls) {fuel next : Nat} {notes : Notes} {m : Malformed}
    (written : notes.WrittenIn ls)
    (failed : (resolveFootnotesFrom scope fence fuel next notes).1 = .error m) :
    ∃ body, Written ls (inPlace body) ∧ readFragment fence body = .error m := by
  -- each body that is read keeps what is gathered written in the text, footnotes in it included
  induction fuel generalizing next notes with
  | zero => cases failed
  | succ fuel ih =>
    rw [resolveFootnotesFrom] at failed
    split at failed
    · cases failed
    · rename_i pending present
      have source := written _ (List.mem_of_getElem? present)
      split at failed
      · rename_i malformed unread
        cases failed
        cases body : pending.source with
        | defined blocks =>
          rw [body] at unread
          cases unread
        | inPlace text =>
          rw [body] at unread source
          exact ⟨text, source, unread⟩
      · rename_i blocks body
        have middle := resolveBlocks_written bodies (source_written source body) written
        dsimp only at failed
        cases rest : resolveFootnotesFrom scope fence fuel (next + 1)
            (resolveBlocks scope notes blocks).2 with
        | mk result last =>
          rw [rest] at failed
          cases result with
          | error malformed =>
            cases failed
            exact ih middle (congrArg Prod.fst rest)
          | ok others => cases failed

/-! ### Documents -/

theorem prose_assign (blocks : List Block) :
    prose (HeadingIndex.assign blocks).1 = prose blocks := by
  have walks : Walks HeadingIndex.assignStep fun _ blocks assigned _ =>
      assigned.map Block.source = blocks.map Block.source := by
    refine ⟨fun _ => rfl, ?_, ?_, fun _ _ _ _ _ _ => rfl, fun _ _ _ => rfl⟩
    · intro _ _ _ a a' b b' left right
      rw [List.map_append, List.map_append, left, right]
    · intro index block leaf
      cases block with
      | list | quote => cases leaf
      | _ => exact ⟨rfl, rfl⟩
  exact walks.blocks [] blocks

theorem collect_written {ls : List Text} {blocks : List Block}
    (written : ∀ block ∈ nested blocks, Written ls block.source) :
    (References.collect blocks).1.WrittenIn ls := by
  intro entry listed
  obtain ⟨label, shown⟩ := collect_footnotes listed
  refine List.forall_mem_map.mpr fun block member => written block ?_
  exact nested_subset (flow_subset_nested blocks shown)
    (List.mem_cons_of_mem _ (flow_subset_nested _ member))

/-- The footnote with this body is written in place in the text behind `before` lines, and reading
it fails. -/
structure FailsInPlace (fence text body : Text) (before : Nat) (m : Malformed) : Prop where
  written : WrittenAt (lines text) (inPlace body) before
  failed : readFragment fence body = .error m

/-- A text that is written behind `before` lines spans line `n`, counted from one. -/
def SpansLine (t : Text) (before n : Nat) : Prop :=
  before < n ∧ n ≤ before + (cutAt (· == '\n') t).length

theorem exists_failsInPlace {options : Options} {text : Text} {blocks : List Block} {m : Malformed}
    (read : readDocument options.fence text = .ok blocks)
    (failed : Document.ofText options text = .error m) :
    ∃ body before, FailsInPlace options.fence text body before m := by
  have written := readBlocks_written (lines_whole text) read
  have bodies : (Scope.ofBlocks options blocks).references.WrittenIn (lines text) :=
    collect_written written
  have unread : ∀ t ∈ prose (HeadingIndex.assign blocks).1, Written (lines text) t := by
    rw [prose_assign]
    exact prose_written (lines_whole text) read
  have start : (Notes.start (References.collect blocks).2).WrittenIn (lines text) := nofun
  rw [Document.ofText, read] at failed
  replace failed : resolve options blocks = .error m := failed
  rw [resolve_eq] at failed
  dsimp only at failed
  cases rest : resolveFootnotes (.ofBlocks options blocks) options.fence
      (resolveBlocks (.ofBlocks options blocks) (.start (References.collect blocks).2)
        (HeadingIndex.assign blocks).1).2 with
  | mk result after =>
    rw [rest] at failed
    cases result with
    | ok footnotes => cases failed
    | error malformed =>
      cases failed
      obtain ⟨body, ⟨before, place⟩, unreadable⟩ := resolveFootnotesFrom_failed bodies
        (resolveBlocks_written bodies unread start) (congrArg Prod.fst rest)
      exact ⟨body, before, place, unreadable⟩

/-- A document whose blocks can be read fails only with a footnote that is written in place, and the
failure names a line of its body. In the text that line is as many further on as stand before the
footnote, so that the named line is one of the footnote exactly if fewer lines stand before it. -/
theorem footnoteFailure_spanned_iff {options : Options} {text : Text} {blocks : List Block}
    {m : Malformed} (read : readDocument options.fence text = .ok blocks)
    (failed : Document.ofText options text = .error m) :
    (∃ body before, FailsInPlace options.fence text body before m) ∧
      ∀ body before, FailsInPlace options.fence text body before m →
        m.NamesLine options.fence (lines body) ∧
        Aligned Holds (lines text) (lines body) before ∧
        SpansLine (inPlace body) before (before + m.line) ∧
        (SpansLine (inPlace body) before m.line ↔ before < m.line) := by
  refine ⟨exists_failsInPlace read failed, fun body before fails => ?_⟩
  have names : m.NamesLine options.fence (lines body) :=
    (foundIn_readBlocks (lines_whole body) fails.failed).namesLine
  have own : WrittenAt (cutAt (· == '\n') (inPlace body)) (inPlace body) 0 :=
    .refl Holds.refl _
  have short := (aligned_body own).length_le
  have pos := names.pos
  have le := names.le
  refine ⟨names, aligned_body fails.written, ⟨by omega, by omega⟩, fun spans => spans.1, ?_⟩
  exact fun late => ⟨late, by omega⟩

def strayNote : Text := "a\n\n[^<ul> b c]".toList

def strayNoteBlocks : List Block := [paragraph ["a".toList], paragraph ["[^<ul> b c]".toList]]

theorem readDocument_strayNote :
    readDocument Options.default.fence strayNote = .ok strayNoteBlocks := by
  have cut : lines strayNote = ["a".toList, [], "[^<ul> b c]".toList] := by decide
  have first : blockAt Options.default.fence .document "a".toList [[], "[^<ul> b c]".toList] =
      .leaf (paragraph ["a".toList]) 0 := blockAt_text (by decide +kernel) (by decide)
  have last : blockAt Options.default.fence .document "[^<ul> b c]".toList [] =
      .leaf (paragraph ["[^<ul> b c]".toList]) 0 := blockAt_text (by decide +kernel) (by decide)
  rw [readDocument, cut, readBlocks_leaf (by decide) first, List.drop_zero, readBlocks_blank rfl,
    readBlocks_leaf (by decide) last, List.drop_nil, readBlocks_nil]
  rfl

theorem readFragment_strayNote :
    readFragment Options.default.fence "<ul> b c".toList =
      .error ⟨1, .unterminatedTag "ul".toList⟩ := by
  have cut : lines "<ul> b c".toList = ["<ul> b c".toList] := by decide
  have tag : blockAt Options.default.fence .item "<ul> b c".toList [] =
      .malformed (.unterminatedTag "ul".toList) := rfl
  rw [readFragment, cut, readBlocks_malformed (by decide) tag]

theorem ofText_strayNote :
    Document.ofText Options.default strayNote = .error ⟨1, .unterminatedTag "ul".toList⟩ := by
  have gathered : (resolveBlocks (.ofBlocks Options.default strayNoteBlocks)
      (.start (References.collect strayNoteBlocks).2)
      (HeadingIndex.assign strayNoteBlocks).1).2 =
      ⟨[⟨"1".toList, .inPlace "<ul> b c".toList⟩], [], []⟩ := by cbv
  have body : FootnoteSource.blocks Options.default.fence (.inPlace "<ul> b c".toList) =
      .error ⟨1, .unterminatedTag "ul".toList⟩ := readFragment_strayNote
  have failed : (resolveFootnotes (.ofBlocks Options.default strayNoteBlocks)
      Options.default.fence ⟨[⟨"1".toList, .inPlace "<ul> b c".toList⟩], [], []⟩).1 =
      .error ⟨1, .unterminatedTag "ul".toList⟩ := by
    rw [resolveFootnotes, show footnoteBound _ _ = 1 from rfl, resolveFootnotesFrom]
    simp only [List.getElem?_cons_zero, body]
  have read : Document.ofText Options.default strayNote =
      resolve Options.default strayNoteBlocks := by
    rw [Document.ofText, readDocument_strayNote]
    rfl
  rw [read, resolve_eq]
  dsimp only
  rw [gathered, failed]
  rfl

/-- The footnote and the tag stand on the third line, the failure names the first. -/
theorem footnoteFailure_spanned_strayNote :
    readDocument Options.default.fence strayNote = .ok strayNoteBlocks ∧
      Document.ofText Options.default strayNote = .error ⟨1, .unterminatedTag "ul".toList⟩ ∧
      FailsInPlace Options.default.fence strayNote "<ul> b c".toList 2
        ⟨1, .unterminatedTag "ul".toList⟩ ∧
      SpansLine (inPlace "<ul> b c".toList) 2 3 ∧ ¬ SpansLine (inPlace "<ul> b c".toList) 2 1 := by
  have cut : lines strayNote = ["a".toList, [], "[^<ul> b c]".toList] := by decide
  have single : cutAt (· == '\n') (inPlace "<ul> b c".toList) = ["[^<ul> b c]".toList] := by decide
  have written : WrittenAt (lines strayNote) (inPlace "<ul> b c".toList) 2 := by
    rw [WrittenAt, cut, single]
    have last : Aligned Holds ["[^<ul> b c]".toList] ["[^<ul> b c]".toList] 0 := .refl Holds.refl _
    exact last.tail.tail
  have fails : FailsInPlace Options.default.fence strayNote "<ul> b c".toList 2
      ⟨1, .unterminatedTag "ul".toList⟩ := ⟨written, readFragment_strayNote⟩
  obtain ⟨_, each⟩ := footnoteFailure_spanned_iff readDocument_strayNote ofText_strayNote
  obtain ⟨_, _, spans, named⟩ := each "<ul> b c".toList 2 fails
  refine ⟨readDocument_strayNote, ofText_strayNote, fails, spans, fun wrong => ?_⟩
  exact absurd (named.mp wrong) (by decide)

/-- The line that the failure names is not a line of any footnote that is written in place. -/
theorem footnoteFailure_astray :
    readDocument Options.default.fence strayNote = .ok strayNoteBlocks ∧
      Document.ofText Options.default strayNote = .error ⟨1, .unterminatedTag "ul".toList⟩ ∧
      ∀ body before, WrittenAt (lines strayNote) (inPlace body) before →
        ¬ SpansLine (inPlace body) before 1 := by
  refine ⟨readDocument_strayNote, ofText_strayNote, ?_⟩
  rintro body before written ⟨early, _⟩
  obtain ⟨l, first, bracket⟩ := bracket_of_writtenAt written
  obtain rfl : before = 0 := by omega
  have cut : lines strayNote = ["a".toList, [], "[^<ul> b c]".toList] := by decide
  rw [cut] at first
  cases first
  exact absurd bracket (by decide)

end CommentMarkup
