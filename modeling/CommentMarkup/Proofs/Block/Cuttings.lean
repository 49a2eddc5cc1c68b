import CommentMarkup.Proofs.Block.Reading
import CommentMarkup.Proofs.Line.Strip

/-!
# Lines cut out of lines

The lines inside code, a quote or a list are cut out of the lines around them: each of them is one
line without its markup, and nothing but blank lines is passed over. What holds of every cutting,
such as that it keeps the foreign characters, is proved by induction over `Cuttings` and then holds
inside each of these blocks.
-/

namespace CommentMarkup

open Text

/-- `part` is a line without its markup, behind spaces that stand for indentation. -/
def Remains (l part : Text) : Prop := ∃ n s, part = List.replicate n ' ' ++ s ∧ Strips l s

/-- `parts` remain of the lines, in order. Only blank lines leave nothing. -/
inductive Cuttings : List Text → List Text → Prop where
  | nil : Cuttings [] []
  | keep {l part : Text} {ls parts : List Text} (remains : Remains l part)
      (rest : Cuttings ls parts) : Cuttings (l :: ls) (part :: parts)
  | drop {l : Text} {ls parts : List Text} (blank : l.isBlank) (rest : Cuttings ls parts) :
      Cuttings (l :: ls) parts

/-! ### What remains of a line -/

theorem remains_of_strips {l part : Text} (strips : Strips l part) : Remains l part :=
  ⟨0, part, rfl, strips⟩

/-- A blank line may leave any number of spaces. -/
theorem remains_of_blank {l : Text} (blank : l.isBlank) (n : Nat) :
    Remains l (List.replicate n ' ') :=
  ⟨n, [], (List.append_nil _).symm, strips_nil (plain_of_isBlank blank)⟩

theorem remains_removeIndentFrom (limit col : Nat) (l : Text) :
    Remains l (removeIndentFrom limit col l) := by
  fun_induction removeIndentFrom limit col l with
  | case1 col cs _ ih =>
    obtain ⟨n, s, eq, strips⟩ := ih
    exact ⟨n, s, eq, (strips_cons (by decide) cs).trans strips⟩
  | case2 => exact remains_of_strips (Strips.refl _)
  | case3 col cs _ ih =>
    obtain ⟨n, s, eq, strips⟩ := ih
    refine ⟨tabStop col - limit + n, s, ?_, (strips_cons (by decide) cs).trans strips⟩
    rw [eq, ← List.append_assoc, List.replicate_append_replicate]
  | case4 => exact remains_of_strips (Strips.refl _)
  | case5 => exact remains_of_strips (Strips.refl _)

theorem remains_removeIndent (columns : Nat) (l : Text) : Remains l (removeIndent columns l) :=
  remains_removeIndentFrom columns 0 l

theorem Remains.foreign {l part : Text} (remains : Remains l part) :
    part.foreign = l.foreign := by
  obtain ⟨n, s, rfl, strips⟩ := remains
  have spaces : Plain (List.replicate n ' ') := by
    intro c member
    rw [List.eq_of_mem_replicate member]
    decide
  rw [foreign_append, spaces.foreign, strips.foreign]
  rfl

theorem Remains.le {μ : Text → Nat} (measure : InkMeasure μ) {l part : Text}
    (remains : Remains l part) : μ part ≤ μ l := by
  obtain ⟨n, s, rfl, strips⟩ := remains
  rw [measure.replicate_space]
  exact measure.le_of_infix strips.isInfix

/-! ### Facts about all cuttings -/

theorem Cuttings.map {f : Text → Text} (remains : ∀ l, Remains l (f l)) (ls : List Text) :
    Cuttings ls (ls.map f) := by
  induction ls with
  | nil => exact .nil
  | cons l ls ih => exact .keep (remains l) ih

theorem Cuttings.of_blank {ls : List Text} (blank : ∀ l ∈ ls, l.isBlank) : Cuttings ls [] := by
  induction ls with
  | nil => exact .nil
  | cons l ls ih =>
    exact .drop (blank l List.mem_cons_self) (ih fun k member => blank k (.tail l member))

theorem Cuttings.append {ls ls' parts parts' : List Text} (front : Cuttings ls parts)
    (back : Cuttings ls' parts') : Cuttings (ls ++ ls') (parts ++ parts') := by
  induction front with
  | nil => exact back
  | keep remains _ ih => exact .keep remains ih
  | drop blank _ ih => exact .drop blank ih

theorem Cuttings.foreign {ls parts : List Text} (cut : Cuttings ls parts) :
    parts.flatMap Text.foreign = ls.flatMap Text.foreign := by
  induction cut with
  | nil => rfl
  | keep remains _ ih => rw [List.flatMap_cons, List.flatMap_cons, remains.foreign, ih]
  | drop blank _ ih =>
    rw [List.flatMap_cons, (plain_of_isBlank blank).foreign, ih]
    rfl

theorem Cuttings.le {μ : Text → Nat} (measure : InkMeasure μ) {ls parts : List Text}
    (cut : Cuttings ls parts) : sumOver μ parts ≤ sumOver μ ls := by
  induction cut with
  | nil => exact Nat.le_refl _
  | keep remains _ ih => exact Nat.add_le_add (remains.le measure) ih
  | drop _ _ ih => exact Nat.le_trans ih (Nat.le_add_left _ _)

/-- A cutting of the lines taken and the lines left hold what all lines hold. -/
theorem Cuttings.foreign_drop {n : Nat} {l : Text} {ls parts : List Text}
    (cut : Cuttings (l :: ls.take n) parts) :
    parts.flatMap Text.foreign ++ (ls.drop n).flatMap Text.foreign =
      (l :: ls).flatMap Text.foreign := by
  rw [cut.foreign, ← List.flatMap_append, List.cons_append, List.take_append_drop]

theorem Cuttings.le_drop {μ : Text → Nat} (measure : InkMeasure μ) {n : Nat} {l : Text}
    {ls parts : List Text} (cut : Cuttings (l :: ls.take n) parts) :
    sumOver μ parts + sumOver μ (ls.drop n) ≤ sumOver μ (l :: ls) := by
  have whole := sumOver_append μ (l :: ls.take n) (ls.drop n)
  rw [List.cons_append, List.take_append_drop] at whole
  have parts := cut.le measure
  omega

/-! ### Code and quotes -/

theorem rawExtent_pos {tag : Text} {depth : Int} {ls : List Text} {n : Nat}
    (h : rawExtent? tag depth ls = some n) : 0 < n := by
  cases ls with
  | nil => cases h
  | cons l ls =>
    unfold rawExtent? at h
    dsimp only at h
    split at h
    · cases h
      decide
    · obtain ⟨k, _, rfl⟩ := Option.map_eq_some_iff.mp h
      exact Nat.succ_pos k

theorem cuttings_codeLines (tabbed : Bool) (ls : List Text) :
    Cuttings (ls.take (codeLines tabbed ls).length) (codeLines tabbed ls) := by
  have remains (l : Text) : Remains l (if l.isBlank then [] else dropCodeIndent l) := by
    split
    · rename_i blank
      exact remains_of_blank blank 0
    · exact remains_of_strips (strips_dropCodeIndent l)
  unfold codeLines
  dsimp only
  generalize hrun : (ls.takeWhile fun l => l.isBlank || continuesCode tabbed l) = run
  have front : run <+: ls := by
    rw [← hrun]
    exact List.takeWhile_prefix _
  have used : (run.reverse.dropWhile Text.isBlank).reverse <+: run := by
    rw [← List.reverse_suffix, List.reverse_reverse]
    exact List.dropWhile_suffix _
  rw [List.length_map, ← List.prefix_iff_eq_take.mp (used.trans front)]
  exact .map remains _

theorem cuttings_quoteLines (fence : Text) (inText : Bool) (ls : List Text) :
    Cuttings (ls.take (quoteLines fence inText ls).length) (quoteLines fence inText ls) := by
  fun_induction quoteLines fence inText ls with
  | case1 => exact .nil
  | case2 inText l ls _ rest ih => exact .keep (remains_of_strips (strips_dropQuoteMark l)) ih
  | case3 => exact .nil
  | case4 inText l ls _ _ ih => exact .keep (remains_of_strips (Strips.refl l)) ih

/-- The lines of a quote that `l` opens. -/
theorem cuttings_quote (fence : Text) {l : Text} (marked : isQuoteLine l) (ls : List Text) :
    Cuttings (l :: ls.take ((quoteLines fence false (l :: ls)).length - 1))
      (quoteLines fence false (l :: ls)) := by
  have cut := cuttings_quoteLines fence false (l :: ls)
  rw [quoteLines, if_pos marked] at cut ⊢
  exact cut

/-! ### Lists -/

theorem cuttings_itemLines (indent content : Nat) (ls : List Text) :
    Cuttings (ls.take (itemLines indent content ls).length) (itemLines indent content ls) := by
  induction ls with
  | nil => exact .nil
  | cons l ls ih =>
    unfold itemLines
    split
    · rename_i empty
      rw [List.isEmpty_iff] at empty
      subst empty
      split
      · exact .keep (remains_of_blank rfl 0) ih
      · exact .nil
    · split
      · rename_i blank
        exact .keep (remains_of_blank blank 1) ih
      · split
        · exact .nil
        · exact .keep (remains_removeIndent content l) ih

theorem cuttings_item {l first : Text} {m : ListMarker} {bullet : Bullet}
    (marked : listMarker? l = some m) (task : splitTask m.content = (bullet, first))
    (rest : List Text) :
    Cuttings (l :: rest.take (itemLines m.indent m.contentColumn rest).length)
      (first :: itemLines m.indent m.contentColumn rest) := by
  have strips := (strips_listMarker marked).trans (strips_splitTask m.content)
  rw [task] at strips
  exact .keep (remains_of_strips strips) (cuttings_itemLines _ _ rest)

/-- The bodies of the items, one after the other, are cut out of the lines that the list takes. -/
theorem cuttings_listRun (ordered : Bool) (offset : Nat) (ls : List Text) :
    Cuttings (ls.take (listRun ordered offset ls).taken)
      ((listRun ordered offset ls).items.flatMap RawItem.body) := by
  fun_induction listRun ordered offset ls with
  | case1 | case2 | case3 => exact .nil
  | case4 offset l rest m marked _ bullet first task body item after gap _ ih =>
    simp only [ListRun.cons, List.flatMap_cons]
    rw [List.take_add]
    exact (cuttings_item marked task rest).append ih
  | case5 offset l rest m marked _ bullet first task body item after gap _ _ ih =>
    -- the blank lines between two items belong to neither of them
    have skipped : Cuttings (after.take gap) [] := by
      rw [← List.prefix_iff_eq_take.mp (List.takeWhile_prefix Text.isBlank)]
      exact .of_blank fun l member => List.mem_takeWhile_imp member
    have others := skipped.append ih
    rw [← List.take_add] at others
    simp only [ListRun.loose, ListRun.cons, List.flatMap_cons]
    rw [Nat.add_assoc _ gap, List.take_add]
    exact (cuttings_item marked task rest).append others
  | case6 offset l rest m marked _ bullet first task body item after gap _ _ =>
    rw [List.flatMap_singleton]
    exact cuttings_item marked task rest

/-- The bodies of the items of a list that `l` opens. -/
theorem cuttings_list {fence : Text} {ctx : Context} {l : Text} {ls : List Text} {ordered : Bool}
    {start : Nat} {run : ListRun} (step : blockAt fence ctx l ls = .list ordered start run) :
    Cuttings (l :: ls.take (run.taken - 1)) (run.items.flatMap RawItem.body) := by
  cases stepAt step with
  | @list m marked =>
    have cut := cuttings_listRun m.ordered 0 (l :: ls)
    obtain ⟨taken, eq⟩ := Nat.exists_eq_add_one_of_ne_zero
      (Nat.pos_iff_ne_zero.mp (listRun_taken_pos marked 0 ls))
    rw [eq] at cut
    rw [eq]
    exact cut

end CommentMarkup
