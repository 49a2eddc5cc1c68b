import CommentMarkup.Heading.Outline
import Mathlib.Data.List.TakeWhile

/-!
# Order and parents in outlines

An outline lists its entries in their order, each below the closest entry before it that has a
smaller level: `nest_parents`. A run over the entries that keeps those still open on a stack builds
the same outline: `stacked_eq_nest`.
-/

namespace CommentMarkup

mutual

def OutlineNode.listed : OutlineNode → List Entry
  | .node entry children => entry :: CommentMarkup.listed children

def listed : List OutlineNode → List Entry
  | [] => []
  | node :: nodes => node.listed ++ listed nodes

end

theorem listed_nest (entries : List Entry) : listed (nest entries) = entries := by
  fun_induction nest entries with
  | case1 => rfl
  | case2 entry rest inner outer =>
    rw [listed, OutlineNode.listed, inner, outer, List.cons_append,
      List.takeWhile_append_dropWhile]

/-! ### Open entries -/

/-- The finished roots of an outline, and the entries that are still open with what stands below
them so far, the innermost first. -/
structure OpenOutline where
  roots : List OutlineNode
  path : List (Entry × List OutlineNode)

namespace OpenOutline

/-- A finished node goes below the innermost open entry, or else among the roots. -/
def attach (node : OutlineNode) : OpenOutline → OpenOutline
  | ⟨roots, []⟩ => ⟨roots ++ [node], []⟩
  | ⟨roots, (outer, below) :: path⟩ => ⟨roots, (outer, below ++ [node]) :: path⟩

@[simp] theorem length_attach (node : OutlineNode) (o : OpenOutline) :
    (o.attach node).path.length = o.path.length := by
  obtain ⟨roots, _ | _⟩ := o <;> rfl

def closeWhile (p : Entry → Bool) : OpenOutline → OpenOutline
  | ⟨roots, []⟩ => ⟨roots, []⟩
  | ⟨roots, (entry, below) :: path⟩ =>
    if p entry then closeWhile p (attach (.node entry below) ⟨roots, path⟩)
    else ⟨roots, (entry, below) :: path⟩
termination_by o => o.path.length
decreasing_by simp

/-- An entry finishes the open ones that are not above it, and is open then. -/
def add (o : OpenOutline) (entry : Entry) : OpenOutline :=
  let rest := o.closeWhile fun outer => entry.level ≤ outer.level
  ⟨rest.roots, (entry, []) :: rest.path⟩

def finish (o : OpenOutline) : List OutlineNode := (o.closeWhile fun _ => true).roots

end OpenOutline

/-- The tree of the entries, built by one run that keeps the open ones on a stack. -/
def stacked (entries : List Entry) : List OutlineNode :=
  (entries.foldl OpenOutline.add ⟨[], []⟩).finish

section Runs

variable {α : Type} {p q : α → Bool} (implies : ∀ a, p a → q a)

include implies

theorem takeWhile_takeWhile_of_imp (l : List α) : (l.takeWhile q).takeWhile p = l.takeWhile p := by
  induction l with
  | nil => rfl
  | cons a l ih =>
    cases first : p a with
    | true => simp [implies a first, first, ih]
    | false => cases second : q a <;> simp [first, second]

theorem dropWhile_takeWhile_of_imp (l : List α) :
    (l.takeWhile q).dropWhile p = (l.dropWhile p).takeWhile q := by
  induction l with
  | nil => rfl
  | cons a l ih =>
    cases first : p a with
    | true => simp [implies a first, first, ih]
    | false => cases second : q a <;> simp [first, second]

theorem dropWhile_dropWhile_of_imp (l : List α) : (l.dropWhile p).dropWhile q = l.dropWhile q := by
  induction l with
  | nil => rfl
  | cons a l ih =>
    cases first : p a with
    | true => simp [implies a first, first, ih]
    | false => simp [first]

end Runs

namespace OpenOutline

/-- The outline when more entries follow and everything is finished then. Below an open entry stand
those that follow it, up to the first one that is not deeper. -/
def completed (o : OpenOutline) (rest : List Entry) : List OutlineNode :=
  match o with
  | ⟨roots, []⟩ => roots ++ nest rest
  | ⟨roots, (entry, below) :: path⟩ =>
    let inner := rest.takeWhile fun e => entry.level < e.level
    completed (attach (.node entry (below ++ nest inner)) ⟨roots, path⟩)
      (rest.dropWhile fun e => entry.level < e.level)
termination_by o.path.length
decreasing_by simp

/-- Entries that nothing goes below any more can be finished at once. -/
theorem completed_closeWhile {p : Entry → Bool} {rest : List Entry}
    (done : ∀ entry, p entry → (rest.takeWhile fun e => entry.level < e.level) = [])
    (o : OpenOutline) : (o.closeWhile p).completed rest = o.completed rest := by
  fun_induction closeWhile p o with
  | case1 roots => rfl
  | case2 roots entry below path closes ih =>
    have none := done entry closes
    have all : (rest.dropWhile fun e => entry.level < e.level) = rest := by
      have parts := List.takeWhile_append_dropWhile (p := fun e => decide (entry.level < e.level))
        (l := rest)
      rwa [none, List.nil_append] at parts
    rw [ih, completed.eq_def ⟨roots, (entry, below) :: path⟩]
    dsimp only
    rw [none, all, nest, List.append_nil]
  | case3 => rfl

theorem closeWhile_top (p : Entry → Bool) (o : OpenOutline) :
    ∀ top ∈ (o.closeWhile p).path.head?, ¬ p top.1 := by
  fun_induction closeWhile p o with
  | case1 roots => simp
  | case2 roots entry below path closes ih => exact ih
  | case3 roots entry below path stays => simpa using stays

theorem closeWhile_all (o : OpenOutline) : (o.closeWhile fun _ => true).path = [] := by
  cases closed : (o.closeWhile fun _ => true).path with
  | nil => rfl
  | cons top path =>
    have stays := closeWhile_top (fun _ => true) o top (by rw [closed]; rfl)
    exact absurd rfl stays

/-- An entry that is deeper than the innermost open one is open inside it. -/
theorem completed_push {roots : List OutlineNode} {path : List (Entry × List OutlineNode)}
    {entry : Entry} (deeper : ∀ top ∈ path.head?, top.1.level < entry.level) (rest : List Entry) :
    completed ⟨roots, (entry, []) :: path⟩ rest = completed ⟨roots, path⟩ (entry :: rest) := by
  rw [completed]
  cases path with
  | nil =>
    rw [attach, completed, completed, nest, List.nil_append, List.append_assoc,
      List.singleton_append]
  | cons top path =>
    obtain ⟨outer, below⟩ := top
    have above : outer.level < entry.level := deeper _ rfl
    have implies (e : Entry) (here : decide (entry.level < e.level)) :
        decide (outer.level < e.level) := by
      have here := of_decide_eq_true here
      exact decide_eq_true (by omega)
    have inside : ((entry :: rest).takeWhile fun e => outer.level < e.level) =
        entry :: rest.takeWhile fun e => outer.level < e.level :=
      List.takeWhile_cons_of_pos (by simpa using above)
    have behind : ((entry :: rest).dropWhile fun e => outer.level < e.level) =
        rest.dropWhile fun e => outer.level < e.level :=
      List.dropWhile_cons_of_pos (by simpa using above)
    rw [attach, completed, completed, inside, behind, nest, takeWhile_takeWhile_of_imp implies,
      dropWhile_takeWhile_of_imp implies, dropWhile_dropWhile_of_imp implies]
    simp

theorem completed_add (o : OpenOutline) (entry : Entry) (rest : List Entry) :
    (o.add entry).completed rest = o.completed (entry :: rest) := by
  have deeper : ∀ top ∈ (o.closeWhile fun outer => entry.level ≤ outer.level).path.head?,
      top.1.level < entry.level := by
    intro top first
    have stays := closeWhile_top _ o top first
    simpa using stays
  rw [add, completed_push deeper, completed_closeWhile]
  intro outer closes
  have above : entry.level ≤ outer.level := of_decide_eq_true closes
  exact List.takeWhile_cons_of_neg (by simpa using above)

theorem completed_foldl (o : OpenOutline) (entries : List Entry) :
    (entries.foldl add o).completed [] = o.completed entries := by
  induction entries generalizing o with
  | nil => rfl
  | cons entry entries ih => rw [List.foldl_cons, ih, completed_add]

theorem finish_eq_completed (o : OpenOutline) : o.finish = o.completed [] := by
  have closed : (o.closeWhile fun _ => true).completed [] = o.completed [] :=
    completed_closeWhile (fun _ _ => rfl) o
  have all := closeWhile_all o
  rw [finish, ← closed]
  generalize o.closeWhile (fun _ => true) = c at all ⊢
  obtain ⟨roots, path⟩ := c
  cases all
  rw [completed, nest, List.append_nil]

end OpenOutline

/-- The run with a stack builds the outline. -/
theorem stacked_eq_nest (entries : List Entry) : stacked entries = nest entries := by
  rw [stacked, OpenOutline.finish_eq_completed, OpenOutline.completed_foldl, OpenOutline.completed,
    List.nil_append]

/-! ### Parents -/

mutual

/-- The entries of a node that stands at a position below a parent, each with the position of its own
parent. Positions count the entries in the order of the outline. -/
def OutlineNode.placed (parent : Option Nat) (pos : Nat) : OutlineNode → List (Entry × Option Nat)
  | .node entry children => (entry, parent) :: CommentMarkup.placed (some pos) (pos + 1) children

def placed (parent : Option Nat) (pos : Nat) : List OutlineNode → List (Entry × Option Nat)
  | [] => []
  | node :: nodes => node.placed parent pos ++ placed parent (pos + node.listed.length) nodes

end

mutual

theorem OutlineNode.placed_entries (parent : Option Nat) (pos : Nat) (node : OutlineNode) :
    (node.placed parent pos).map Prod.fst = node.listed := by
  cases node with
  | node entry children =>
    rw [OutlineNode.placed, List.map_cons, placed_entries, OutlineNode.listed]

theorem placed_entries (parent : Option Nat) (pos : Nat) (nodes : List OutlineNode) :
    (placed parent pos nodes).map Prod.fst = listed nodes := by
  cases nodes with
  | nil => rfl
  | cons node nodes =>
    rw [placed, List.map_append, node.placed_entries, placed_entries, listed]

end

/-- The entry at `j` is the closest one before that at `i` which has a smaller level. -/
structure ClosestAbove (entries : List Entry) (i j : Nat) : Prop where
  before : j < i
  smaller : ∃ e f, entries[i]? = some e ∧ entries[j]? = some f ∧ f.level < e.level
  between : ∀ k, j < k → k < i → ∀ e ∈ entries[i]?, ∀ f ∈ entries[k]?, e.level ≤ f.level

def NoneAbove (entries : List Entry) (i : Nat) : Prop :=
  ∀ k < i, ∀ e ∈ entries[i]?, ∀ f ∈ entries[k]?, e.level ≤ f.level

namespace ClosestAbove

theorem unique {entries : List Entry} {i j k : Nat} (left : ClosestAbove entries i j)
    (right : ClosestAbove entries i k) : j = k := by
  obtain ⟨e, f, here, there, less⟩ := left.smaller
  obtain ⟨e', g, here', there', less'⟩ := right.smaller
  obtain rfl : e = e' := Option.some.inj (here.symm.trans here')
  rcases Nat.lt_trichotomy j k with before | same | after
  · have above := left.between k before right.before e here g there'
    omega
  · exact same
  · have above := right.between j after left.before e here f there
    omega

theorem not_noneAbove {entries : List Entry} {i j : Nat} (closest : ClosestAbove entries i j) :
    ¬ NoneAbove entries i := by
  intro none
  obtain ⟨e, f, here, there, less⟩ := closest.smaller
  have above := none j closest.before e here f there
  omega

/-- What stands before and behind a part of the entries does not come between. -/
theorem inside {part : List Entry} {i j : Nat} (closest : ClosestAbove part i j)
    (front back : List Entry) :
    ClosestAbove (front ++ (part ++ back)) (front.length + i) (front.length + j) := by
  obtain ⟨e, f, here, there, less⟩ := closest.smaller
  have within {k : Nat} (low : k < part.length) :
      (front ++ (part ++ back))[front.length + k]? = part[k]? := by
    rw [List.getElem?_append_right (Nat.le_add_right _ _), Nat.add_sub_cancel_left,
      List.getElem?_append_left low]
  obtain ⟨last, _⟩ := List.getElem?_eq_some_iff.mp here
  have first := closest.before
  refine ⟨by omega, ⟨e, f, ?_, ?_, less⟩, fun k low high e' here' g there' => ?_⟩
  · rw [within last, here]
  · rw [within (by omega), there]
  · obtain ⟨m, rfl⟩ := Nat.exists_eq_add_of_le (show front.length ≤ k by omega)
    rw [within last] at here'
    rw [within (by omega)] at there'
    exact closest.between m (by omega) (by omega) e' here' g there'

end ClosestAbove

/-- The first of the entries is above those that are deeper, if nothing between them is. -/
theorem closestAbove_first {entry : Entry} {inner : List Entry} (outer : List Entry)
    (deeper : ∀ e ∈ inner, entry.level < e.level) {i : Nat} (low : i < inner.length)
    (none : NoneAbove inner i) : ClosestAbove (entry :: (inner ++ outer)) (i + 1) 0 := by
  have within {k : Nat} (low : k < inner.length) :
      (entry :: (inner ++ outer))[k + 1]? = inner[k]? := by
    rw [List.getElem?_cons_succ, List.getElem?_append_left low]
  have here := List.getElem?_eq_getElem low
  refine ⟨Nat.succ_pos i, ⟨inner[i], entry, ?_, rfl, deeper _ (List.getElem_mem low)⟩, ?_⟩
  · rw [within low, here]
  · intro k first last e here' f there
    obtain ⟨m, rfl⟩ := Nat.exists_eq_add_of_le' first
    rw [within low] at here'
    rw [within (by omega)] at there
    exact none m (by omega) e here' f there

/-- Nothing is above an entry that follows an entry and what is deeper than it, if nothing in
between is and the first that follows is not deeper. -/
theorem noneAbove_behind {entry : Entry} {inner outer : List Entry}
    (deeper : ∀ e ∈ inner, entry.level < e.level)
    (next : ∀ e ∈ outer.head?, e.level ≤ entry.level) {i : Nat} (none : NoneAbove outer i) :
    NoneAbove (entry :: (inner ++ outer)) (inner.length + i + 1) := by
  have behind (k : Nat) : (entry :: (inner ++ outer))[inner.length + k + 1]? = outer[k]? := by
    rw [List.getElem?_cons_succ, List.getElem?_append_right (Nat.le_add_right _ _),
      Nat.add_sub_cancel_left]
  intro k before e here f there
  rw [behind] at here
  -- the first of the entries behind is not deeper than the entry, and the entry at `i` not than that
  have low : e.level ≤ entry.level := by
    cases outer with
    | nil => cases here
    | cons first outer =>
      have least := next first rfl
      cases i with
      | zero =>
        cases here
        exact least
      | succ i => exact Nat.le_trans (none 0 (Nat.succ_pos i) e here first rfl) least
  cases k with
  | zero =>
    cases there
    exact low
  | succ k =>
    rcases Nat.lt_or_ge k inner.length with inside | outside
    · rw [List.getElem?_cons_succ, List.getElem?_append_left inside] at there
      have above := deeper f (List.mem_of_getElem? there)
      omega
    · obtain ⟨m, rfl⟩ := Nat.exists_eq_add_of_le outside
      rw [behind] at there
      exact none m (by omega) e here f there

theorem head_dropWhile_deeper (entry : Entry) (rest : List Entry) :
    ∀ e ∈ (rest.dropWhile fun e => entry.level < e.level).head?, e.level ≤ entry.level := by
  intro e first
  have stays := List.head?_dropWhile_not (fun e => decide (entry.level < e.level)) rest
  rw [first] at stays
  simpa using stays

/-- Each entry is placed below the closest one above it, or else where the whole outline is. -/
theorem placed_nest (entries : List Entry) (parent : Option Nat) (pos : Nat) {i : Nat} {e : Entry}
    {above : Option Nat} (here : (placed parent pos (nest entries))[i]? = some (e, above)) :
    (∃ j, above = some (pos + j) ∧ ClosestAbove entries i j) ∨
      above = parent ∧ NoneAbove entries i := by
  fun_induction nest entries generalizing parent pos i with
  | case1 => cases here
  | case2 entry rest ihInner ihOuter =>
    have deeper : ∀ e ∈ rest.takeWhile fun e => entry.level < e.level, entry.level < e.level :=
      fun e member => by simpa using List.mem_takeWhile_imp member
    have next := head_dropWhile_deeper entry rest
    have whole := List.takeWhile_append_dropWhile (p := fun e => decide (entry.level < e.level))
      (l := rest)
    generalize rest.takeWhile (fun e => entry.level < e.level) = inner at *
    generalize rest.dropWhile (fun e => entry.level < e.level) = outer at *
    subst whole
    have size : (placed (some pos) (pos + 1) (nest inner)).length = inner.length := by
      rw [← List.length_map Prod.fst, placed_entries, listed_nest]
    rw [placed, OutlineNode.placed, OutlineNode.listed, listed_nest, List.cons_append] at here
    cases i with
    | zero =>
      cases here
      exact .inr ⟨rfl, fun k before => absurd before (Nat.not_lt_zero k)⟩
    | succ i =>
      rw [List.getElem?_cons_succ] at here
      rcases Nat.lt_or_ge i inner.length with inside | outside
      · rw [List.getElem?_append_left (by omega)] at here
        rcases ihInner (some pos) (pos + 1) here with ⟨j, rfl, closest⟩ | ⟨rfl, none⟩
        · have moved := closest.inside [entry] outer
          refine .inl ⟨1 + j, by rw [Nat.add_assoc], ?_⟩
          rwa [List.length_singleton, Nat.add_comm 1 i] at moved
        · exact .inl ⟨0, rfl, closestAbove_first outer deeper inside none⟩
      · obtain ⟨k, rfl⟩ := Nat.exists_eq_add_of_le outside
        rw [List.getElem?_append_right (by omega), size, Nat.add_sub_cancel_left] at here
        rcases ihOuter parent _ here with ⟨j, rfl, closest⟩ | ⟨rfl, none⟩
        · have moved := closest.inside (entry :: inner) []
          refine .inl ⟨inner.length + 1 + j, congrArg some (by rw [List.length_cons]; omega), ?_⟩
          rw [List.append_nil, List.length_cons, Nat.add_right_comm inner.length 1 k] at moved
          exact moved
        · exact .inr ⟨rfl, noneAbove_behind deeper next none⟩

/-! ### Levels -/

mutual

def OutlineNode.Deepens : OutlineNode → Prop
  | .node entry children =>
    (∀ child ∈ children, entry.level < child.entry.level) ∧ CommentMarkup.Deepens children

def Deepens : List OutlineNode → Prop
  | [] => True
  | node :: nodes => node.Deepens ∧ Deepens nodes

end

theorem nest_roots (entries : List Entry) : ∀ node ∈ nest entries, node.entry ∈ entries := by
  fun_induction nest entries with
  | case1 => simp
  | case2 entry rest _ ih =>
    intro node member
    rcases List.mem_cons.mp member with rfl | later
    · exact List.mem_cons_self
    · exact List.mem_cons_of_mem _ ((List.dropWhile_sublist _).subset (ih node later))

theorem nest_deepens (entries : List Entry) : Deepens (nest entries) := by
  fun_induction nest entries with
  | case1 => trivial
  | case2 entry rest inner outer =>
    refine ⟨⟨fun child member => ?_, inner⟩, outer⟩
    simpa using List.mem_takeWhile_imp (nest_roots _ child member)

/-- The outline of entries, which a run with a stack builds as well, lists them in their order. The
parent of an entry is the closest one before it with a smaller level, and it is a root if there is
none; what stands below an entry is deeper. -/
theorem nest_parents (entries : List Entry) :
    stacked entries = nest entries ∧ listed (nest entries) = entries ∧ Deepens (nest entries) ∧
    ∀ i e, entries[i]? = some e →
      ∃ parent, (placed none 0 (nest entries))[i]? = some (e, parent) ∧
        (∀ j, parent = some j ↔ ClosestAbove entries i j) ∧
        (parent = none ↔ NoneAbove entries i) := by
  refine ⟨stacked_eq_nest entries, listed_nest entries, nest_deepens entries, fun i e here => ?_⟩
  have order : (placed none 0 (nest entries)).map Prod.fst = entries := by
    rw [placed_entries, listed_nest]
  have shown : ((placed none 0 (nest entries)).map Prod.fst)[i]? = some e := by rw [order, here]
  rw [List.getElem?_map, Option.map_eq_some_iff] at shown
  obtain ⟨⟨e, parent⟩, placed, rfl⟩ := shown
  refine ⟨parent, placed, ?_⟩
  rcases placed_nest entries none 0 placed with ⟨j, rfl, closest⟩ | ⟨rfl, none⟩
  · rw [Nat.zero_add]
    refine ⟨fun k => ⟨?_, fun other => ?_⟩, fun other => (nomatch other), fun none => ?_⟩
    · rintro ⟨⟩
      exact closest
    · rw [closest.unique other]
    · exact absurd none closest.not_noneAbove
  · refine ⟨fun k => ⟨fun other => (nomatch other), fun closest => ?_⟩, fun _ => none, fun _ => rfl⟩
    exact absurd none closest.not_noneAbove

/-- A level that is skipped, and a first entry that is deeper than a later one. -/
example :
    (placed none 0 (nest ([2, 4, 3, 1, 2].map fun level => ⟨level, [], []⟩))).map Prod.snd =
      [none, some 0, some 0, none, some 3] := by
  cbv

end CommentMarkup
