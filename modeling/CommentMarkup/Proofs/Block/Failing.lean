import CommentMarkup.Options
import CommentMarkup.Proofs.Block.Aligned
import CommentMarkup.Proofs.Block.Local
import CommentMarkup.Proofs.Html.Neutralized

/-!
# The line of a failure

A failure of reading names the line where the block that is never closed opens, also when that block
stands in list items and footnotes, which are read from texts built anew.
-/

namespace CommentMarkup

open Text Relation

/-- The block that the reason names opens at the start of the line. -/
def Reason.OpensAt (fence l : Text) : Reason → Prop
  | .unterminatedFence => (openFence? fence l).isSome
  | .unterminatedTag tag => rawTag? l = some tag

/-- The failure names one of the lines, the first of which has number `n`, and on that line, behind
the markers around it, the block opens. -/
def Malformed.FoundIn (fence : Text) (ls : List Text) (n : Nat) (m : Malformed) : Prop :=
  ∃ k l part, m.line = n + k ∧ ls[k]? = some l ∧ ReflTransGen InnerLine l part ∧
    m.reason.OpensAt fence part

namespace Malformed.FoundIn

variable {fence : Text} {ls parts : List Text} {n k : Nat} {m : Malformed}

theorem of_aligned (aligned : Aligned InnerLine ls parts k)
    (found : m.FoundIn fence parts (n + k)) : m.FoundIn fence ls n := by
  obtain ⟨i, part, inner, eq, there, markers, opens⟩ := found
  obtain ⟨l, outer, first⟩ := aligned i part there
  exact ⟨k + i, l, inner, by rw [eq, Nat.add_assoc], outer, markers.head first, opens⟩

theorem behind (found : m.FoundIn fence (ls.drop k) (n + k)) : m.FoundIn fence ls n := by
  obtain ⟨i, l, part, eq, there, rest⟩ := found
  exact ⟨k + i, l, part, by rw [eq, Nat.add_assoc], by rw [← List.getElem?_drop, there], rest⟩

end Malformed.FoundIn

theorem bind_error {ε α β : Type} {x : Except ε α} {f : α → Except ε β} {e : ε}
    (h : x >>= f = .error e) : x = .error e ∨ ∃ a, x = .ok a ∧ f a = .error e := by
  cases x with
  | error e' => exact .inl (by cases h; rfl)
  | ok a => exact .inr ⟨a, rfl, h⟩

theorem opensAt_of_malformed {fence : Text} {ctx : Context} {l : Text} {ls : List Text}
    {reason : Reason} (step : blockAt fence ctx l ls = .malformed reason) :
    reason.OpensAt fence l := by
  cases stepAt step with
  | unclosedFence opens => exact Option.isSome_iff_exists.mpr ⟨_, opens⟩
  | unclosedTag opens => exact opens

theorem foundIn_readBlocks {fence : Text} {ctx : Context} {n : Nat} {ls : List Text} {m : Malformed}
    (whole : ∀ l ∈ ls, '\n' ∉ l) (failed : readBlocks fence ctx n ls = .error m) :
    m.FoundIn fence ls n := by
  revert whole failed
  apply readBlocks.induct fence
    (fun ctx n ls => (∀ l ∈ ls, '\n' ∉ l) → readBlocks fence ctx n ls = .error m →
      m.FoundIn fence ls n)
    (fun n raws => (∀ raw ∈ raws, ∀ l ∈ lines (unlines raw.body), '\n' ∉ l) →
      readItems fence n raws = .error m →
      ∃ raw ∈ raws, m.FoundIn fence (lines (unlines raw.body)) (n + raw.offset))
  case case1 =>
    intro ctx n whole failed
    rw [readBlocks_nil] at failed
    cases failed
  case case2 =>
    intro ctx n l rest blank ih whole failed
    rw [readBlocks_blank blank] at failed
    exact .behind (k := 1) (ih (List.forall_mem_cons.mp whole).2 failed)
  case case3 =>
    intro ctx n l rest filled block more step ih whole failed
    rw [readBlocks_leaf filled step] at failed
    rcases bind_error failed with later | ⟨_, _, failed⟩
    · exact .behind (k := more + 1) (ih (forall_mem_behind whole more) later)
    · cases failed
  case case4 =>
    intro ctx n l rest filled ordered start run step inner ih whole failed
    have taken : run.taken = run.taken - 1 + 1 := (Nat.sub_add_cancel (stepAt step).taken_pos).symm
    rw [readBlocks_list filled step] at failed
    rcases bind_error failed with inside | ⟨_, _, failed⟩
    · obtain ⟨raw, member, found⟩ := inner (hereditary_whole.list whole step) inside
      exact found.of_aligned (aligned_item whole step member)
    · rcases bind_error failed with later | ⟨_, _, failed⟩
      · rw [taken] at later ih
        exact .behind (k := run.taken - 1 + 1) (ih (forall_mem_behind whole _) later)
      · cases failed
  case case5 =>
    intro ctx n l rest filled label body more step inner ih whole failed
    rw [readBlocks_footnote filled step] at failed
    rcases bind_error failed with inside | ⟨_, _, failed⟩
    · have found := inner (hereditary_whole.footnote whole step) inside
      exact found.of_aligned (aligned_footnote whole step)
    · rcases bind_error failed with later | ⟨_, _, failed⟩
      · exact .behind (k := more + 1) (ih (forall_mem_behind whole more) later)
      · cases failed
  case case6 =>
    intro ctx n l rest filled reason step whole failed
    rw [readBlocks_malformed filled step] at failed
    cases failed
    exact ⟨0, l, l, rfl, rfl, .refl, opensAt_of_malformed step⟩
  case case7 =>
    intro n whole failed
    rw [readItems] at failed
    cases failed
  case case8 =>
    intro n raw rest inner ih whole failed
    rw [List.forall_mem_cons] at whole
    rw [readItems] at failed
    rcases bind_error failed with inside | ⟨_, _, failed⟩
    · exact ⟨raw, List.mem_cons_self, inner whole.1 inside⟩
    · rcases bind_error failed with later | ⟨_, _, failed⟩
      · obtain ⟨other, member, found⟩ := ih whole.2 later
        exact ⟨other, List.mem_cons_of_mem _ member, found⟩
      · cases failed

/-! ### White space at the end of a line -/

theorem openFence_trims {fence s part : Text} (trims : Trims s part)
    (opens : (openFence? fence part).isSome) : (openFence? fence s).isSome := by
  obtain ⟨behind, blank, eq⟩ := trims
  cases fence with
  | nil => cases opens
  | cons mark fence =>
    simp only [openFence?, eq] at opens ⊢
    cases led : dropLead? (mark :: fence) part.trimStart with
    | none =>
      rw [led] at opens
      cases opens
    | some rest =>
      rw [led] at opens
      dsimp only at opens
      have start := dropLead_iff.mp led
      have ink : ¬ isSpace mark := by
        have first := not_startsWith_dropWhile isSpace part
        rw [show part.dropWhile isSpace = mark :: fence ++ rest from start] at first
        exact first
      have bare : mark ∉ behind := fun member => ink (List.all_eq_true.mp blank mark member)
      have unmarked : rest.contains mark = false := by
        by_contra marked
        rw [Bool.not_eq_false] at marked
        rw [if_pos marked] at opens
        cases opens
      rw [start, List.append_assoc, dropLead_iff.mpr rfl]
      have still : (rest ++ behind).contains mark = false := by simpa [bare] using unmarked
      dsimp only
      rw [still]
      rfl

theorem takeWhile_alphanum_append (t : Text) {behind : Text} (blank : behind.isBlank) :
    (t ++ behind).takeWhile Char.isAlphanum = t.takeWhile Char.isAlphanum := by
  induction t with
  | nil =>
    cases behind with
    | nil => rfl
    | cons c behind =>
      refine List.takeWhile_cons_of_neg fun letter => not_isSpace_of_isAlphanum letter ?_
      exact List.all_eq_true.mp blank c List.mem_cons_self
  | cons c t ih => simp only [List.cons_append, List.takeWhile_cons, ih]

theorem tagName_append_blank (t : Text) {behind : Text} (blank : behind.isBlank) :
    tagName (t ++ behind) = tagName t := by
  cases t with
  | nil =>
    cases behind with
    | nil => rfl
    | cons c behind =>
      have space : isSpace c := List.all_eq_true.mp blank c List.mem_cons_self
      rw [List.nil_append, tagName_cons, if_neg]
      · rfl
      · exact fun letter => not_isSpace_of_isAlphanum (isAlphanum_of_isAlpha letter) space
  | cons c t => rw [List.cons_append, tagName_cons, tagName_cons, takeWhile_alphanum_append t blank]

theorem endsOr_of_append {p : Char → Bool} {t behind : Text} (ends : endsOr p (t ++ behind)) :
    endsOr p t := by
  cases t with
  | nil => rfl
  | cons c t => exact ends

theorem openingTag_append_blank {t behind tag : Text} (blank : behind.isBlank)
    (opens : openingTag? (t ++ behind) = some tag) : openingTag? t = some tag := by
  cases t with
  | nil =>
    cases behind with
    | nil => exact opens
    | cons c behind =>
      have space : isSpace c := List.all_eq_true.mp blank c List.mem_cons_self
      unfold openingTag? at opens
      split at opens
      · rename_i eq
        cases eq
        exact absurd space (by decide)
      · cases opens
  | cons c t =>
    have inside : (tagName t).length ≤ t.length := by
      have parts := congrArg List.length (tagName_append t).1
      rw [List.length_append] at parts
      omega
    rw [List.cons_append] at opens
    unfold openingTag? at opens ⊢
    split at opens
    · rename_i rest eq
      obtain ⟨rfl, rfl⟩ := List.cons.inj eq
      dsimp only at opens
      rw [tagName_append_blank t blank, List.drop_append_of_le_length inside,
        Option.ite_none_left_eq_some, Bool.or_eq_true, not_or, Bool.not_eq_true',
        Bool.not_eq_false] at opens
      obtain ⟨⟨named, ends⟩, eq⟩ := opens
      refine Option.ite_none_left_eq_some.mpr ⟨?_, eq⟩
      rw [Bool.or_eq_true, not_or, Bool.not_eq_true', Bool.not_eq_false]
      exact ⟨named, endsOr_of_append ends⟩
    · cases opens

theorem rawTag_trim {l tag : Text} (opens : rawTag? l = some tag) : rawTag? l.trim = some tag := by
  obtain ⟨behind, blank, eq⟩ := exists_trimEnd l.trimStart
  obtain ⟨opens, block⟩ := Option.filter_eq_some_iff.mp opens
  rw [eq] at opens
  refine Option.filter_eq_some_iff.mpr ⟨?_, block⟩
  rw [trimStart_trim]
  exact openingTag_append_blank blank opens

/-! ### Documents -/

def BehindMarkers (l s : Text) : Prop :=
  s <:+ l ∧ ∃ part, ReflTransGen InnerLine l part ∧ Trims s part

/-- The failure names a line by its number, and behind the markers of this line the block opens. The
tag that opens it may need the white space at the end of the line left out. -/
structure Malformed.NamesLine (fence : Text) (ls : List Text) (m : Malformed) : Prop where
  pos : 1 ≤ m.line
  le : m.line ≤ ls.length
  opens : ∃ l s, ls[m.line - 1]? = some l ∧ BehindMarkers l s ∧
    match m.reason with
    | .unterminatedFence => (openFence? fence s).isSome
    | .unterminatedTag tag => rawTag? s.trimEnd = some tag

theorem Malformed.FoundIn.namesLine {fence : Text} {ls : List Text} {m : Malformed}
    (found : m.FoundIn fence ls 1) : m.NamesLine fence ls := by
  obtain ⟨k, l, part, eq, there, markers, opens⟩ := found
  have short := (List.getElem?_eq_some_iff.mp there).1
  obtain ⟨s, ending, trims⟩ := suffix_of_innerLines markers
  have spaced : Trims s.trimStart s := .of_trimStart (trimStart_trimStart s)
  refine ⟨by omega, by omega, l, s.trimStart, ?_, ⟨?_, part, markers, spaced.trans trims⟩, ?_⟩
  · rw [eq, Nat.add_sub_cancel_left, there]
  · exact (List.dropWhile_suffix isSpace).trans ending
  · cases reason : m.reason with
    | unterminatedFence =>
      rw [reason] at opens
      exact openFence_trims (spaced.trans trims) opens
    | unterminatedTag tag =>
      rw [reason] at opens
      obtain ⟨behind, blank, eq⟩ := trims
      have same : s.trimStart.trimEnd = part.trim := by rw [eq, trimEnd_append_blank _ blank]; rfl
      exact same ▸ rawTag_trim opens

/-- A failure of a document names a line of its text, and the block that is never closed opens on
that line, behind the list markers, task boxes and footnote labels around it. -/
theorem failure_namesLine {fence text : Text} {m : Malformed}
    (failed : readDocument fence text = .error m) : m.NamesLine fence (lines text) :=
  (foundIn_readBlocks (lines_whole text) failed).namesLine

/-- A tag in a footnote in the second item of a list. -/
theorem failure_namesLine_nested :
    readDocument Options.default.fence "-\n- [^a]: <ul".toList =
      .error ⟨2, .unterminatedTag "ul".toList⟩ ∧
    Malformed.NamesLine Options.default.fence (lines "-\n- [^a]: <ul".toList)
      ⟨2, .unterminatedTag "ul".toList⟩ := by
  have failed : readDocument Options.default.fence "-\n- [^a]: <ul".toList =
      .error ⟨2, .unterminatedTag "ul".toList⟩ := by
    have cut : lines "-\n- [^a]: <ul".toList = ["-".toList, "- [^a]: <ul".toList] := by decide
    have list : blockAt Options.default.fence .document "-".toList ["- [^a]: <ul".toList] =
        .list false 1 ⟨[⟨0, .plain, [[]]⟩, ⟨1, .plain, ["[^a]: <ul".toList]⟩], true, 2⟩ := by
      rw [blockAt_list (m := ⟨0, false, 1, 2, []⟩) (by decide) (by decide) (by decide) (by decide)
        (by decide) (by decide) (by decide) (by decide) (by decide)]
      cbv
    have item : lines (unlines ["[^a]: <ul".toList]) = ["[^a]: <ul".toList] := by decide
    have note : blockAt Options.default.fence .item "[^a]: <ul".toList [] =
        .footnote "a".toList ["<ul".toList] 0 := rfl
    have body : lines (unlines ["<ul".toList]) = ["<ul".toList] := by decide
    have tag : blockAt Options.default.fence .item "<ul".toList [] =
        .malformed (.unterminatedTag "ul".toList) := rfl
    rw [readDocument, cut, readBlocks_list (by decide) list, readItems,
      show lines (unlines [[]]) = [] from rfl, readBlocks_nil, readItems, item,
      readBlocks_footnote (by decide) note, body, readBlocks_malformed (by decide) tag]
    rfl
  exact ⟨failed, failure_namesLine failed⟩

/-- The lines of a footnote are read without the white space at their ends, so that a tag may open a
block that it does not open on the line as it is written. -/
theorem spaced_tag_unseen :
    readDocument Options.default.fence "[^a]: <ul\u00a0".toList =
      .error ⟨1, .unterminatedTag "ul".toList⟩ ∧
    lines "[^a]: <ul\u00a0".toList = ["[^a]: <ul\u00a0".toList] ∧
    ∀ s, s <:+ "[^a]: <ul\u00a0".toList → rawTag? s ≠ some "ul".toList := by
  have cut : lines "[^a]: <ul\u00a0".toList = ["[^a]: <ul\u00a0".toList] := by decide
  have note : blockAt Options.default.fence .document "[^a]: <ul\u00a0".toList [] =
      .footnote "a".toList ["<ul".toList] 0 := rfl
  have body : lines (unlines ["<ul".toList]) = ["<ul".toList] := by decide
  have tag : blockAt Options.default.fence .item "<ul".toList [] =
      .malformed (.unterminatedTag "ul".toList) := rfl
  refine ⟨?_, cut, ?_⟩
  · rw [readDocument, cut, readBlocks_footnote (by decide) note, body,
      readBlocks_malformed (by decide) tag]
    rfl
  · have none : ∀ s ∈ List.tails "[^a]: <ul\u00a0".toList, rawTag? s ≠ some "ul".toList := by
      decide +kernel
    exact fun s ending => none s ((List.mem_tails _ _).mpr ending)

end CommentMarkup
