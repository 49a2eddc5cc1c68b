import CommentMarkup.Proofs.Block.Inner
import CommentMarkup.Proofs.Text.Trim
import Mathlib.Logic.Relation

/-!
# Lines by their number

Blocks inside others are read from texts that are built anew out of the lines around them. Each such
text has one line for each line that it is built of, in the same order, so that a line of it is
found in the whole text by its number.
-/

namespace CommentMarkup

open Text Relation

/-- The parts are made of successive lines, the first of them of line `k`. -/
def Aligned (R : Text → Text → Prop) (ls parts : List Text) (k : Nat) : Prop :=
  ∀ i part, parts[i]? = some part → ∃ l, ls[k + i]? = some l ∧ R l part

namespace Aligned

variable {R S T : Text → Text → Prop} {l part : Text} {ls ms parts : List Text} {j k : Nat}

theorem nil : Aligned R ls [] k := by
  intro i part found
  cases found

theorem cons (first : R l part) (rest : Aligned R ls parts 0) :
    Aligned R (l :: ls) (part :: parts) 0 := by
  intro i piece found
  cases i with
  | zero =>
    cases found
    exact ⟨l, rfl, first⟩
  | succ i =>
    obtain ⟨m, there, made⟩ := rest i piece found
    refine ⟨m, ?_, made⟩
    rw [Nat.zero_add] at there ⊢
    exact there

theorem of_cons (aligned : Aligned R (l :: ls) (part :: parts) 0) :
    R l part ∧ Aligned R ls parts 0 := by
  constructor
  · obtain ⟨m, there, made⟩ := aligned 0 part rfl
    cases there
    exact made
  · intro i piece found
    obtain ⟨m, there, made⟩ := aligned (i + 1) piece found
    rw [Nat.zero_add, List.getElem?_cons_succ] at there
    exact ⟨m, by rw [Nat.zero_add, there], made⟩

theorem imp (weaker : ∀ {l part}, R l part → S l part) (aligned : Aligned R ls parts k) :
    Aligned S ls parts k := by
  intro i part found
  obtain ⟨l, there, made⟩ := aligned i part found
  exact ⟨l, there, weaker made⟩

theorem trans (comp : ∀ {l m part}, R l m → S m part → T l part) (outer : Aligned R ls ms j)
    (inner : Aligned S ms parts k) : Aligned T ls parts (j + k) := by
  intro i part found
  obtain ⟨m, between, second⟩ := inner i part found
  obtain ⟨l, there, first⟩ := outer (k + i) m between
  exact ⟨l, by rw [Nat.add_assoc]; exact there, comp first second⟩

/-- Lines stand behind those that are dropped. -/
theorem behind (aligned : Aligned R (ls.drop j) parts k) : Aligned R ls parts (j + k) := by
  intro i part found
  obtain ⟨l, there, made⟩ := aligned i part found
  rw [List.getElem?_drop, ← Nat.add_assoc] at there
  exact ⟨l, there, made⟩

theorem tail (aligned : Aligned R ls parts k) : Aligned R (l :: ls) parts (1 + k) :=
  behind (j := 1) aligned

theorem refl (same : ∀ l, R l l) (ls : List Text) : Aligned R ls ls 0 := by
  induction ls with
  | nil => exact nil
  | cons l ls ih => exact cons (same l) ih

theorem map {f : Text → Text} (makes : ∀ l, R l (f l)) (ls : List Text) :
    Aligned R ls (ls.map f) 0 := by
  induction ls with
  | nil => exact nil
  | cons l ls ih => exact cons (makes l) ih

theorem of_prefix (front : ms <+: ls) (aligned : Aligned R ms parts k) : Aligned R ls parts k := by
  obtain ⟨rest, rfl⟩ := front
  intro i part found
  obtain ⟨l, there, made⟩ := aligned i part found
  exact ⟨l, by rw [List.getElem?_append_left (List.getElem?_eq_some_iff.mp there).1, there], made⟩

theorem inside (aligned : Aligned R ls parts k) (inner : ms <:+: parts) :
    ∃ j, Aligned R ls ms j := by
  obtain ⟨front, rest, rfl⟩ := inner
  refine ⟨k + front.length, fun i part found => ?_⟩
  have there : (front ++ ms ++ rest)[front.length + i]? = some part := by
    rw [List.append_assoc, List.getElem?_append_right (Nat.le_add_right _ _),
      Nat.add_sub_cancel_left,
      List.getElem?_append_left (List.getElem?_eq_some_iff.mp found).1, found]
  obtain ⟨l, present, made⟩ := aligned _ part there
  exact ⟨l, by rw [Nat.add_assoc]; exact present, made⟩

theorem length_le (aligned : Aligned R ls parts 0) : parts.length ≤ ls.length := by
  by_contra longer
  obtain ⟨l, there, _⟩ := aligned ls.length parts[ls.length] (List.getElem?_eq_getElem (by omega))
  rw [Nat.zero_add, List.getElem?_eq_none (Nat.le_refl _)] at there
  cases there

end Aligned

/-! ### White space at the ends of lines -/

/-- `part` is the line with other indentation and less white space at its end. -/
def Trims (l part : Text) : Prop :=
  ∃ behind, isBlank behind ∧ l.trimStart = part.trimStart ++ behind

theorem Trims.of_trimStart {l part : Text} (same : l.trimStart = part.trimStart) : Trims l part :=
  ⟨[], rfl, by rw [same, List.append_nil]⟩

theorem Trims.refl (l : Text) : Trims l l := .of_trimStart rfl

theorem Trims.trans {l m part : Text} (first : Trims l m) (second : Trims m part) :
    Trims l part := by
  obtain ⟨spaces, blank, eq⟩ := first
  obtain ⟨others, more, eq'⟩ := second
  refine ⟨others ++ spaces, ?_, by rw [eq, eq', List.append_assoc]⟩
  rw [isBlank, List.all_append, Bool.and_eq_true]
  exact ⟨more, blank⟩

theorem Trims.of_blank {l part : Text} (blank : l.isBlank) (empty : part.isBlank) :
    Trims l part := .of_trimStart (by rw [trimStart_blank blank, trimStart_blank empty])

theorem trims_append {behind : Text} (blank : behind.isBlank) (l : Text) :
    Trims (l ++ behind) l := by
  by_cases empty : l.isBlank
  · refine .of_blank ?_ empty
    rw [isBlank, List.all_append, Bool.and_eq_true]
    exact ⟨empty, blank⟩
  · exact ⟨behind, blank, trimStart_append empty behind⟩

theorem trims_trim (l : Text) : Trims l l.trim := by
  obtain ⟨behind, blank, eq⟩ := exists_trimEnd l.trimStart
  exact ⟨behind, blank, by rw [trimStart_trim]; exact eq⟩

theorem trims_removeIndent (columns : Nat) (l : Text) : Trims l (removeIndent columns l) := by
  have same (limit col : Nat) (l : Text) :
      l.trimStart = trimStart (removeIndentFrom limit col l) := by
    have spaces (n : Nat) (t : Text) :
        trimStart (List.replicate n ' ' ++ t) = t.trimStart :=
      List.dropWhile_append_of_pos fun c member => List.eq_of_mem_replicate member ▸ rfl
    fun_induction removeIndentFrom limit col l with
    | case1 col cs _ ih => exact ih
    | case2 => rfl
    | case3 col cs _ ih => exact ih.trans (spaces _ _).symm
    | case4 => rfl
    | case5 => rfl
  exact .of_trimStart (same columns 0 l)

/-- What ends the trimmed line ends the line, but for white space. -/
theorem Trims.suffix {l part s : Text} (trims : Trims l part) (ending : s <:+ part) :
    ∃ s' : Text, s' <:+ l ∧ Trims s' s := by
  obtain ⟨behind, blank, eq⟩ := trims
  refine ⟨s.trimStart ++ behind, ?_, ?_⟩
  · have inner : s.trimStart ++ behind <:+ part.trimStart ++ behind := by
      obtain ⟨front, whole⟩ := trimStart_suffix ending
      exact ⟨front, by rw [← whole, List.append_assoc]⟩
    exact inner.trans (eq ▸ List.dropWhile_suffix isSpace)
  · exact (trims_append blank s.trimStart).trans (.of_trimStart (trimStart_trimStart s))

/-! ### Texts built anew -/

theorem lines_eq_nil {t : Text} (none : lines t = []) : t = [] := by
  unfold lines at none
  split at none
  · rfl
  · cases none
  · cases none
  · split at none <;> cases none

/-- A text has its pieces between line feeds as lines, but for a carriage return at their end. -/
theorem aligned_lines (t : Text) :
    Aligned (fun piece l => ∃ behind, isBlank behind ∧ piece = l ++ behind)
      (cutAt (· == '\n') t) (lines t) 0 := by
  fun_induction lines t with
  | case1 => exact .nil
  | case2 cs ih =>
    rw [cutAt_cons_pos rfl]
    exact ih.cons ⟨[], rfl, rfl⟩
  | case3 cs ih =>
    obtain ⟨piece, pieces, cut, whole⟩ :=
      cutAt_cons_neg (p := (· == '\n')) (a := '\r') (by decide) ('\n' :: cs)
    rw [cutAt_cons_pos rfl] at cut
    cases cut
    rw [whole]
    exact ih.cons ⟨['\r'], by decide, rfl⟩
  | case4 c cs feed _ none _ =>
    obtain rfl := lines_eq_nil none
    have single : cutAt (· == '\n') [c] = [[c]] := cutAt_lineFeed (by simpa using Ne.symm feed)
    rw [single]
    exact Aligned.nil.cons ⟨[], rfl, rfl⟩
  | case5 c cs feed bare m ms some ih =>
    obtain ⟨piece, pieces, cut, whole⟩ :=
      cutAt_cons_neg (p := (· == '\n')) (a := c) (by simpa using feed) cs
    rw [some, cut] at ih
    obtain ⟨⟨behind, blank, eq⟩, rest⟩ := ih.of_cons
    rw [whole]
    exact rest.cons ⟨behind, blank, by rw [eq, List.cons_append]⟩

/-- Lines that are joined and cut again stay the lines that they are. -/
theorem aligned_relines {ls : List Text} (whole : ∀ l ∈ ls, '\n' ∉ l) :
    Aligned Trims ls (lines (unlines ls)) 0 := by
  cases ls with
  | nil => exact .nil
  | cons l ls =>
    have cut := aligned_lines (unlines (l :: ls))
    rw [cutAt_unlines (by simp) whole] at cut
    refine cut.imp ?_
    rintro _ part ⟨behind, blank, rfl⟩
    exact trims_append blank part

theorem aligned_itemLines (indent content : Nat) (ls : List Text) :
    Aligned Trims ls (itemLines indent content ls) 0 := by
  induction ls with
  | nil => exact .nil
  | cons l ls ih =>
    unfold itemLines
    split
    · rename_i empty
      rw [List.isEmpty_iff.mp empty]
      split
      · exact ih.cons (.refl [])
      · exact .nil
    · split
      · rename_i blank
        exact ih.cons (.of_blank blank rfl)
      · split
        · exact .nil
        · exact ih.cons (trims_removeIndent content l)

/-! ### Lines inside blocks -/

/-- `part` is what a block inside reads of the line: what stands behind the marker of a list item,
behind the label of a footnote, or the whole line, but for white space at its ends. -/
inductive InnerLine : Text → Text → Prop where
  | line {l part : Text} (trims : Trims l part) : InnerLine l part
  | item {l part : Text} {m : ListMarker} (marked : listMarker? l = some m)
      (trims : Trims (splitTask m.content).2 part) : InnerLine l part
  | footnote {l part : Text} {d : DefinitionLine} (defines : definitionLine? l = some d)
      (kind : d.kind = .footnote) (trims : Trims d.rest part) : InnerLine l part

theorem InnerLine.trims {l m part : Text} (inner : InnerLine l m) (trims : Trims m part) :
    InnerLine l part := by
  cases inner with
  | line first => exact .line (first.trans trims)
  | item marked first => exact .item marked (first.trans trims)
  | footnote defines kind first => exact .footnote defines kind (first.trans trims)

theorem content_suffix {l : Text} {m : ListMarker} (marked : listMarker? l = some m) :
    m.content <:+ l := by
  have before {indent number width : Nat} {ordered : Bool} {rest : Text}
      (h : ListMarker.before? indent ordered number width rest = some m)
      (ending : rest <:+ l) : m.content <:+ l := by
    unfold ListMarker.before? at h
    split at h
    · cases h
      exact (List.dropWhile_suffix isSpace).trans ending
    · cases h
  have start : l.trimStart <:+ l := List.dropWhile_suffix isSpace
  unfold listMarker? at marked
  dsimp only at marked
  split at marked
  · cases marked
  · rename_i c rest eq
    rw [eq] at start
    split at marked
    · exact before marked ((List.suffix_cons c rest).trans start)
    · split at marked
      · rename_i rest' dropped
        split at marked
        · cases marked
        · refine before marked (.trans ?_ start)
          exact (List.suffix_cons '.' rest').trans (dropped ▸ List.drop_suffix _ _)
      · cases marked

theorem splitTask_suffix (content : Text) : (splitTask content).2 <:+ content := by
  unfold splitTask
  split
  · rename_i checked rest h
    obtain ⟨⟨box, b⟩, _, found⟩ := List.exists_of_findSome?_eq_some h
    obtain ⟨t, boxed, pair⟩ := Option.map_eq_some_iff.mp found
    cases pair
    obtain ⟨s, led, ends⟩ := Option.bind_eq_some_iff.mp boxed
    split at ends
    · cases ends
      rw [dropLead_iff.mp led]
      exact (List.dropWhile_suffix isSpace).trans (List.suffix_append _ _)
    · cases ends
  · exact List.suffix_rfl

theorem InnerLine.suffix {l part : Text} (inner : InnerLine l part) :
    ∃ s : Text, s <:+ l ∧ Trims s part := by
  cases inner with
  | line trims => exact ⟨l, List.suffix_rfl, trims⟩
  | item marked trims => exact ⟨_, (splitTask_suffix _).trans (content_suffix marked), trims⟩
  | footnote defines kind trims => exact ⟨_, rest_suffix defines, trims⟩

/-- What is read behind all markers of a line stands at its end. -/
theorem suffix_of_innerLines {l part : Text} (inner : ReflTransGen InnerLine l part) :
    ∃ s : Text, s <:+ l ∧ Trims s part := by
  induction inner using ReflTransGen.head_induction_on with
  | refl => exact ⟨part, List.suffix_rfl, .refl part⟩
  | head first _ ih =>
    obtain ⟨s, ending, trims⟩ := ih
    obtain ⟨base, outer, same⟩ := first.suffix
    obtain ⟨s', inner, spaced⟩ := same.suffix ending
    exact ⟨s', inner.trans outer, spaced.trans trims⟩

theorem Aligned.relines {ls body : List Text} {k : Nat} (aligned : Aligned InnerLine ls body k)
    (whole : ∀ l ∈ body, '\n' ∉ l) : Aligned InnerLine ls (lines (unlines body)) k :=
  aligned.trans (fun inner trims => inner.trims trims) (aligned_relines whole)

/-- The body of an item stands as many lines down as its offset says. -/
theorem aligned_listRun (ordered : Bool) (offset : Nat) (ls : List Text) :
    ∀ raw ∈ (listRun ordered offset ls).items,
      ∃ k, raw.offset = offset + k ∧ Aligned InnerLine ls raw.body k := by
  have item {l first : Text} {m : ListMarker} {bullet : Bullet} (marked : listMarker? l = some m)
      (task : splitTask m.content = (bullet, first)) (rest : List Text) :
      Aligned InnerLine (l :: rest) (first :: itemLines m.indent m.contentColumn rest) 0 := by
    refine ((aligned_itemLines _ _ rest).imp .line).cons (.item marked ?_)
    rw [task]
    exact .refl first
  fun_induction listRun ordered offset ls with
  | case1 | case2 | case3 =>
    intro raw member
    cases member
  | case4 offset l rest m marked _ bullet first task body here after gap _ ih =>
    intro raw member
    rcases List.mem_cons.mp member with rfl | later
    · exact ⟨0, rfl, item marked task rest⟩
    · obtain ⟨k, eq, aligned⟩ := ih raw later
      exact ⟨1 + (body.length + k), by omega, aligned.behind.tail⟩
  | case5 offset l rest m marked _ bullet first task body here after gap _ _ ih =>
    intro raw member
    rcases List.mem_cons.mp member with rfl | later
    · exact ⟨0, rfl, item marked task rest⟩
    · obtain ⟨k, eq, aligned⟩ := ih raw later
      exact ⟨1 + (body.length + (gap + k)), by omega, aligned.behind.behind.tail⟩
  | case6 offset l rest m marked _ bullet first task body here after gap _ _ =>
    intro raw member
    rw [List.mem_singleton.mp member]
    exact ⟨0, rfl, item marked task rest⟩

section Inside

variable {fence : Text} {ctx : Context} {l : Text} {ls : List Text}
  (whole : ∀ k ∈ l :: ls, '\n' ∉ k)

include whole

theorem aligned_item {ordered : Bool} {start : Nat} {run : ListRun} {raw : RawItem}
    (step : blockAt fence ctx l ls = .list ordered start run) (member : raw ∈ run.items) :
    Aligned InnerLine (l :: ls) (lines (unlines raw.body)) raw.offset := by
  refine Aligned.relines ?_ (hereditary_whole.itemBody whole step raw member)
  cases stepAt step with
  | @list m marked =>
    obtain ⟨k, eq, aligned⟩ := aligned_listRun m.ordered 0 (l :: ls) raw member
    rw [eq, Nat.zero_add]
    exact aligned

theorem aligned_footnote {label : Text} {body : List Text} {more : Nat}
    (step : blockAt fence ctx l ls = .footnote label body more) :
    Aligned InnerLine (l :: ls) (lines (unlines body)) 0 := by
  refine Aligned.relines ?_ (hereditary_whole.footnoteBody whole step)
  cases stepAt step with
  | @footnote d defines kind =>
    have others := Aligned.map trims_trim (ls.takeWhile (continuesFootnote l))
    have inner := (others.of_prefix (List.takeWhile_prefix _)).imp InnerLine.line
    exact inner.cons (.footnote defines kind (trims_trim d.rest))

end Inside

end CommentMarkup
