import CommentMarkup.Block.Step
import CommentMarkup.Proofs.Html.Tag
import CommentMarkup.Proofs.Text.Ascii
import CommentMarkup.Proofs.Text.Measure
import Mathlib

/-!
# Where raw blocks end

A raw block goes on until its tag is balanced. The tags are counted line by line, as they seem to
stand there, and not as scanning finds them in the whole text. `rawAt_balanced` says where the block
ends by the first count, and that it ends where the tags that scanning finds are balanced as long as
the two counts tell every place alike.
-/

namespace CommentMarkup

open Text

/-! ### Places -/

structure Place where
  line : Nat
  text : Text
  deriving DecidableEq

def lineAfter (n : Nat) (c : Char) : Nat := if c = '\n' then n + 1 else n

def places (n : Nat) : Text → List Place
  | [] => []
  | c :: cs => ⟨n, c :: cs⟩ :: places (lineAfter n c) cs

/-- The places where a tag or comment is found when the text is scanned from left to right, as it is
for neutralizing. -/
def scanned (n : Nat) (t : Text) : List Place :=
  match t with
  | [] => []
  | c :: cs =>
    match scanTag (c :: cs) with
    | none => scanned (lineAfter n c) cs
    | some (_, k) => ⟨n, c :: cs⟩ :: scanned (n + ((c :: cs).take k).count '\n') (cs.drop (k - 1))
termination_by t.length
decreasing_by all_goals simp only [List.length_cons, List.length_drop]; omega

theorem lineAfter_eq (n : Nat) (c : Char) : lineAfter n c = n + [c].count '\n' := by
  unfold lineAfter
  split
  · rename_i feed
    rw [feed]
    rfl
  · rename_i other
    rw [List.count_singleton, if_neg (by simpa using other), Nat.add_zero]

theorem places_drop (n k : Nat) (t : Text) :
    places (n + (t.take k).count '\n') (t.drop k) = (places n t).drop k := by
  induction t generalizing n k with
  | nil => simp [places]
  | cons c t ih =>
    cases k with
    | zero => rfl
    | succ k =>
      rw [List.take_succ_cons, List.drop_succ_cons, places, List.drop_succ_cons, ← ih, lineAfter_eq,
        ← List.singleton_append, List.count_append, Nat.add_assoc]

theorem scanned_sublist (n : Nat) (t : Text) : (scanned n t).Sublist (places n t) := by
  fun_induction scanned n t with
  | case1 => exact .slnil
  | case2 n c cs _ ih => exact ih.cons _
  | case3 n c cs markup k found ih =>
    obtain ⟨j, rfl⟩ := Nat.exists_eq_add_one_of_ne_zero (Nat.pos_iff_ne_zero.mp (scanTag_pos found))
    apply List.Sublist.cons_cons
    apply ih.trans
    rw [List.take_succ_cons, Nat.add_sub_cancel, ← List.singleton_append, List.count_append,
      ← Nat.add_assoc, ← lineAfter_eq, places_drop]
    exact List.drop_sublist j _

theorem place_bounds {n : Nat} {t : Text} {p : Place} (member : p ∈ places n t) :
    n ≤ p.line ∧ p.text.length ≤ t.length := by
  induction t generalizing n with
  | nil => cases member
  | cons c t ih =>
    rcases List.mem_cons.mp member with rfl | tail
    · exact ⟨Nat.le_refl _, Nat.le_refl _⟩
    · obtain ⟨line, short⟩ := ih tail
      rw [lineAfter_eq] at line
      rw [List.length_cons]
      omega

theorem nodup_places (n : Nat) (t : Text) : (places n t).Nodup := by
  induction t generalizing n with
  | nil => exact .nil
  | cons c t ih =>
    refine List.nodup_cons.mpr ⟨fun member => ?_, ih _⟩
    have short := (place_bounds member).2
    rw [List.length_cons] at short
    omega

/-! ### Weights -/

/-- How much the tag that seems to stand at the head of the text nests deeper, by its line alone. -/
def apparentWeight (tag : Text) : Text → Int
  | '<' :: rest => tagWeight tag (toLower (rest.takeWhile (· != '\n')))
  | _ => 0

/-- Scanning finds an opening `tag` at the head of the text that does not close itself. -/
def isOpening (tag t : Text) : Bool :=
  match scanTag t with
  | some (.tag name, n) =>
    name == tag && !"</".toList.isPrefixOf t && !"/>".toList.isSuffixOf (t.take n)
  | _ => false

def isClosing (tag t : Text) : Bool :=
  match scanTag t with
  | some (.tag name, _) => name == tag && "</".toList.isPrefixOf t
  | _ => false

def apparentDepth (tag : Text) (n : Nat) (t : Text) : Int :=
  ((places 1 t).map fun p => if p.line ≤ n then apparentWeight tag p.text else 0).sum

/-- The number of opening tags that scanning finds on the first `n` lines. -/
def openings (tag : Text) (n : Nat) (t : Text) : Nat :=
  (scanned 1 t).countP fun p => p.line ≤ n && isOpening tag p.text

def closings (tag : Text) (n : Nat) (t : Text) : Nat :=
  (scanned 1 t).countP fun p => p.line ≤ n && isClosing tag p.text

def scannedWeight (tag t : Text) : Int :=
  if isOpening tag t then 1 else if isClosing tag t then -1 else 0

/-- On the first `n` lines nothing seems to be a tag that scanning does not find, such as one in a
comment or in the value of an attribute, and each tag that it finds is told by its line for what it
is. -/
structure ToldAlike (tag : Text) (n : Nat) (t : Text) : Prop where
  seen : ∀ p ∈ places 1 t, p.line ≤ n → apparentWeight tag p.text ≠ 0 → p ∈ scanned 1 t
  told : ∀ p ∈ scanned 1 t, p.line ≤ n → apparentWeight tag p.text = scannedWeight tag p.text

theorem ToldAlike.le {tag t : Text} {m n : Nat} (alike : ToldAlike tag n t) (le : m ≤ n) :
    ToldAlike tag m t where
  seen p member line := alike.seen p member (Nat.le_trans line le)
  told p member line := alike.told p member (Nat.le_trans line le)

theorem sum_sublist {α : Type} {f : α → Int} {part whole : List α} (sub : part.Sublist whole)
    (distinct : whole.Nodup) (zero : ∀ a ∈ whole, a ∉ part → f a = 0) :
    (part.map f).sum = (whole.map f).sum := by
  induction sub with
  | slnil => rfl
  | @cons part whole a sub ih =>
    obtain ⟨fresh, distinct⟩ := List.nodup_cons.mp distinct
    have here : f a = 0 := zero a List.mem_cons_self fun member => fresh (sub.subset member)
    have rest := ih distinct fun b member => zero b (List.mem_cons_of_mem a member)
    rw [List.map_cons, List.sum_cons, here, zero_add, rest]
  | @cons_cons part whole a sub ih =>
    obtain ⟨fresh, distinct⟩ := List.nodup_cons.mp distinct
    have rest := ih distinct fun b member absent => by
      apply zero b (List.mem_cons_of_mem a member)
      rw [List.mem_cons, not_or]
      exact ⟨fun same => fresh (same ▸ member), absent⟩
    rw [List.map_cons, List.map_cons, List.sum_cons, List.sum_cons, rest]

theorem isOpening_not_isClosing {tag t : Text} (opening : isOpening tag t) : ¬ isClosing tag t := by
  unfold isOpening at opening
  unfold isClosing
  split at opening
  · simp only [Bool.and_eq_true, Bool.not_eq_true'] at opening
    rw [opening.1.2, Bool.and_false]
    exact Bool.false_ne_true
  · cases opening

theorem sum_scannedWeight (tag : Text) (n : Nat) (ps : List Place) :
    (ps.map fun p => if p.line ≤ n then scannedWeight tag p.text else 0).sum =
      (ps.countP fun p => p.line ≤ n && isOpening tag p.text : Int) -
        (ps.countP fun p => p.line ≤ n && isClosing tag p.text) := by
  induction ps with
  | nil => rfl
  | cons p ps ih =>
    rw [List.map_cons, List.sum_cons, ih, List.countP_cons, List.countP_cons, scannedWeight]
    by_cases line : p.line ≤ n
    · by_cases opening : isOpening tag p.text
      · have unclosed : isClosing tag p.text = false := by
          simpa using isOpening_not_isClosing opening
        simp [line, opening, unclosed]
        omega
      · by_cases closing : isClosing tag p.text
        · simp [line, opening, closing]
          omega
        · simp [line, opening, closing]
    · simp [line]

/-- Where every place is told alike, the two counts agree. -/
theorem apparentDepth_eq {tag t : Text} {n : Nat} (alike : ToldAlike tag n t) :
    apparentDepth tag n t = openings tag n t - closings tag n t := by
  have zero : ∀ p ∈ places 1 t, p ∉ scanned 1 t →
      (if p.line ≤ n then apparentWeight tag p.text else 0) = 0 := by
    intro p member missed
    split
    · rename_i line
      by_contra counted
      exact missed (alike.seen p member line counted)
    · rfl
  have same : ∀ p ∈ scanned 1 t, (if p.line ≤ n then apparentWeight tag p.text else 0) =
      if p.line ≤ n then scannedWeight tag p.text else 0 := by
    intro p member
    split
    · rename_i line
      exact alike.told p member line
    · rfl
  rw [apparentDepth, ← sum_sublist (scanned_sublist 1 t) (nodup_places 1 t) zero,
    List.map_congr_left same, sum_scannedWeight]
  rfl

/-! ### Lines -/

def lineDepth (tag : Text) (n : Nat) (ls : List Text) : Int :=
  ((ls.take n).map fun l => depthChange tag (toLower l)).sum

theorem lineDepth_succ (tag : Text) (n : Nat) (l : Text) (ls : List Text) :
    lineDepth tag (n + 1) (l :: ls) = depthChange tag (toLower l) + lineDepth tag n ls := by
  rw [lineDepth, List.take_succ_cons, List.map_cons, List.sum_cons, lineDepth]

theorem takeWhile_line {l u : Text} (whole : '\n' ∉ l) (stop : u.endsOr (· == '\n')) :
    (l ++ u).takeWhile (· != '\n') = l := by
  rw [List.takeWhile_append_of_pos]
  · cases u with
    | nil => simp
    | cons c u =>
      have feed : c = '\n' := by simpa [endsOr] using stop
      simp [feed]
  · intro c member
    have other : c ≠ '\n' := by
      rintro rfl
      exact whole member
    simpa using other

/-- The places on one line count as the line does. -/
theorem sum_line (tag : Text) {l u : Text} {k n : Nat} (whole : '\n' ∉ l)
    (stop : u.endsOr (· == '\n')) (inside : k ≤ n) :
    ((places k (l ++ u)).map fun p => if p.line ≤ n then apparentWeight tag p.text else 0).sum =
      depthChange tag (toLower l) +
        ((places k u).map fun p => if p.line ≤ n then apparentWeight tag p.text else 0).sum := by
  induction l with
  | nil => simp [toLower, depthChange]
  | cons c l ih =>
    rw [List.mem_cons, not_or] at whole
    have here : apparentWeight tag (c :: (l ++ u)) =
        if c.toLower = '<' then tagWeight tag (toLower l) else 0 := by
      unfold apparentWeight
      split
      · rename_i rest eq
        cases eq
        rw [takeWhile_line whole.2 stop]
        rfl
      · rename_i other
        rw [if_neg]
        intro lower
        obtain rfl : c = '<' := toLower_eq (by decide) lower
        exact other _ rfl
    have behind : lineAfter k c = k := if_neg (Ne.symm whole.1)
    rw [List.cons_append, places, List.map_cons, List.sum_cons, behind, ih whole.2, if_pos inside,
      here, show toLower (c :: l) = c.toLower :: toLower l from rfl, depthChange, Int.add_assoc]

theorem sum_behind (tag : Text) {k n : Nat} (outside : n < k) (t : Text) :
    ((places k t).map fun p => if p.line ≤ n then apparentWeight tag p.text else 0).sum = 0 := by
  apply List.sum_eq_zero
  intro x member
  obtain ⟨p, inside, rfl⟩ := List.mem_map.mp member
  have line := (place_bounds inside).1
  rw [if_neg (by omega)]

theorem sum_lines (tag : Text) {ls : List Text} (whole : ∀ l ∈ ls, '\n' ∉ l) (k n : Nat) :
    ((places (k + 1) (unlines ls)).map fun p =>
      if p.line ≤ k + n then apparentWeight tag p.text else 0).sum = lineDepth tag n ls := by
  induction ls generalizing k n with
  | nil => simp [unlines, places, lineDepth]
  | cons l ls ih =>
    rw [List.forall_mem_cons] at whole
    cases n with
    | zero =>
      rw [sum_behind tag (by omega)]
      rfl
    | succ n =>
      rw [lineDepth_succ]
      cases ls with
      | nil =>
        have alone := sum_line tag (k := k + 1) (n := k + (n + 1)) whole.1 (u := []) rfl (by omega)
        rw [List.append_nil] at alone
        rw [unlines_singleton, alone]
        simp [places, lineDepth]
      | cons l' ls =>
        have rest := ih whole.2 (k + 1) n
        have feed : apparentWeight tag ('\n' :: unlines (l' :: ls)) = 0 := rfl
        rw [unlines_cons_cons, sum_line tag whole.1 rfl (by omega), places, List.map_cons,
          List.sum_cons, feed, ite_self, zero_add, show lineAfter (k + 1) '\n' = k + 1 + 1 from rfl,
          ← rest, Nat.add_right_comm k 1 n, Nat.add_assoc k n 1]

theorem apparentDepth_unlines {tag : Text} {ls : List Text} (whole : ∀ l ∈ ls, '\n' ∉ l) (n : Nat) :
    apparentDepth tag n (unlines ls) = lineDepth tag n ls := by
  have sum := sum_lines tag whole 0 n
  rwa [Nat.zero_add, Nat.zero_add] at sum

theorem rawExtent_iff {tag : Text} {depth : Int} {ls : List Text} {n : Nat} :
    rawExtent? tag depth ls = some n ↔
      IsLeast {n | n ∈ Set.Icc 1 ls.length ∧ depth + lineDepth tag n ls ≤ 0} n := by
  induction ls generalizing depth n with
  | nil =>
    refine iff_of_false nofun fun least => ?_
    obtain ⟨⟨low, high⟩, _⟩ := least.1
    rw [List.length_nil] at high
    omega
  | cons l ls ih =>
    have one : lineDepth tag 1 (l :: ls) = depthChange tag (toLower l) := by
      rw [lineDepth_succ]
      simp [lineDepth]
    rw [rawExtent?]
    split
    · rename_i closed
      have here : IsLeast {n | n ∈ Set.Icc 1 (l :: ls).length ∧
          depth + lineDepth tag n (l :: ls) ≤ 0} 1 :=
        ⟨⟨⟨Nat.le_refl 1, by simp⟩, by rwa [one]⟩, fun m inside => inside.1.1⟩
      rw [Option.some_inj]
      exact ⟨fun same => same ▸ here, fun least => here.unique least⟩
    · rename_i open_
      -- the first line does not close the block, so it is closed as the lines behind it are
      have shift (k : Nat) : k + 1 ∈ {n | n ∈ Set.Icc 1 (l :: ls).length ∧
            depth + lineDepth tag n (l :: ls) ≤ 0} ↔
          k ∈ {n | n ∈ Set.Icc 1 ls.length ∧
            depth + depthChange tag (toLower l) + lineDepth tag n ls ≤ 0} := by
        simp only [Set.mem_ofPred_eq, Set.mem_Icc, lineDepth_succ, List.length_cons, Int.add_assoc]
        refine ⟨fun ⟨range, closed⟩ => ⟨⟨?_, by omega⟩, closed⟩,
          fun ⟨range, closed⟩ => ⟨⟨by omega, by omega⟩, closed⟩⟩
        by_contra zero
        obtain rfl : k = 0 := by omega
        simp only [lineDepth, List.take_zero, List.map_nil, List.sum_nil] at closed
        omega
      rw [Option.map_eq_some_iff]
      constructor
      · rintro ⟨k, found, rfl⟩
        obtain ⟨inside, least⟩ := ih.mp found
        refine ⟨(shift k).mpr inside, fun m early => ?_⟩
        obtain ⟨j, rfl⟩ := Nat.exists_eq_add_one_of_ne_zero (Nat.pos_iff_ne_zero.mp early.1.1)
        exact Nat.succ_le_succ (least ((shift j).mp early))
      · rintro ⟨inside, least⟩
        obtain ⟨k, rfl⟩ := Nat.exists_eq_add_one_of_ne_zero (Nat.pos_iff_ne_zero.mp inside.1.1)
        refine ⟨k, ih.mpr ⟨(shift k).mp inside, fun m early => ?_⟩, rfl⟩
        exact Nat.le_of_succ_le_succ (least ((shift m).mpr early))

/-! ### Blocks -/

section Raw

variable {l tag : Text} {ls : List Text}

theorem rawAt_closed {n : Nat} (opens : rawTag? l = some tag)
    (closes : rawExtent? tag 0 (l :: ls) = some n) :
    rawAt l ls =
      some (.leaf (.rawHtml tag (neutralizeTags (unlines ((l :: ls).take n)))) (n - 1)) := by
  simp only [rawAt, opens, Option.map_some, closes]

theorem rawAt_unclosed (opens : rawTag? l = some tag)
    (unclosed : rawExtent? tag 0 (l :: ls) = none) :
    rawAt l ls = some (.malformed (.unterminatedTag tag)) := by
  simp only [rawAt, opens, Option.map_some, unclosed]

end Raw

/-- A raw block ends with the first line by whose end no more openings of its tag seem to stand on
its lines than closings, and it is malformed if there is none. By the tags that scanning finds it
ends with the first line by whose end these are balanced, if they are told alike so far. -/
theorem rawAt_balanced {l tag : Text} {ls : List Text} (whole : ∀ k ∈ l :: ls, '\n' ∉ k)
    (opens : rawTag? l = some tag) :
    (∀ n, rawExtent? tag 0 (l :: ls) = some n ↔
      IsLeast {n | n ∈ Set.Icc 1 (l :: ls).length ∧
        apparentDepth tag n (unlines (l :: ls)) ≤ 0} n) ∧
    (∀ n, ToldAlike tag n (unlines (l :: ls)) →
      IsLeast {n | n ∈ Set.Icc 1 (l :: ls).length ∧
        openings tag n (unlines (l :: ls)) ≤ closings tag n (unlines (l :: ls))} n →
      rawAt l ls =
        some (.leaf (.rawHtml tag (neutralizeTags (unlines ((l :: ls).take n)))) (n - 1))) ∧
    (ToldAlike tag (l :: ls).length (unlines (l :: ls)) →
      (∀ n ∈ Set.Icc 1 (l :: ls).length,
        closings tag n (unlines (l :: ls)) < openings tag n (unlines (l :: ls))) →
      rawAt l ls = some (.malformed (.unterminatedTag tag))) := by
  have extent (n : Nat) : rawExtent? tag 0 (l :: ls) = some n ↔
      IsLeast {n | n ∈ Set.Icc 1 (l :: ls).length ∧
        apparentDepth tag n (unlines (l :: ls)) ≤ 0} n := by
    simp only [rawExtent_iff, zero_add, apparentDepth_unlines whole]
  refine ⟨extent, fun n alike balanced => ?_, fun alike open_ => ?_⟩
  · have closes : rawExtent? tag 0 (l :: ls) = some n := by
      obtain ⟨⟨range, closed⟩, least⟩ := balanced
      refine (extent n).mpr ⟨⟨range, ?_⟩, ?_⟩
      · rw [apparentDepth_eq alike]
        omega
      · rintro m ⟨inside, early⟩
        by_contra before
        rw [apparentDepth_eq (alike.le (by omega))] at early
        exact before (least ⟨inside, by omega⟩)
    exact rawAt_closed opens closes
  · have unclosed : rawExtent? tag 0 (l :: ls) = none := by
      rw [Option.eq_none_iff_forall_ne_some]
      intro n closes
      obtain ⟨⟨range, closed⟩, _⟩ := (extent n).mp closes
      rw [apparentDepth_eq (alike.le range.2)] at closed
      have more := open_ n range
      omega
    exact rawAt_unclosed opens unclosed

def nestedSample : List Text := ["<ul>".toList, "<UL a='b'><ul/></ul>".toList, "</ul>".toList]

theorem toldAlike_nestedSample : ToldAlike "ul".toList 3 (unlines nestedSample) where
  seen := by decide +kernel
  told := by decide +kernel

theorem toldAlike_opened : ToldAlike "ul".toList 1 (unlines ["<ul>".toList]) where
  seen := by decide +kernel
  told := by decide +kernel

/-- The first line by whose end the tags are balanced, if more are open before. -/
theorem isLeast_balanced (tag : Text) {ls : List Text} {n : Nat} (range : n ∈ Set.Icc 1 ls.length)
    (balanced : openings tag n (unlines ls) ≤ closings tag n (unlines ls))
    (open_ : ∀ m < n, 1 ≤ m → closings tag m (unlines ls) < openings tag m (unlines ls)) :
    IsLeast {n | n ∈ Set.Icc 1 ls.length ∧
      openings tag n (unlines ls) ≤ closings tag n (unlines ls)} n := by
  refine ⟨⟨range, balanced⟩, fun m ⟨inside, early⟩ => ?_⟩
  by_contra before
  exact absurd early (Nat.not_le.mpr (open_ m (Nat.lt_of_not_le before) inside.1))

theorem rawAt_balanced_nested :
    rawAt "<ul>".toList ["<UL a='b'><ul/></ul>".toList, "</ul>".toList] =
      some (.leaf (.rawHtml "ul".toList "<ul>\n<UL a='b'><ul/></ul>\n</ul>".toList) 2) ∧
    rawAt "<ul>".toList [] = some (.malformed (.unterminatedTag "ul".toList)) := by
  have whole : ∀ k ∈ nestedSample, '\n' ∉ k := by decide
  have alone : ∀ k ∈ ["<ul>".toList], '\n' ∉ k := by decide
  have opens : rawTag? "<ul>".toList = some "ul".toList := by decide
  have range : 3 ∈ Set.Icc 1 nestedSample.length := by decide
  have least := isLeast_balanced "ul".toList range (by decide +kernel) (by decide +kernel)
  have balanced := (rawAt_balanced whole opens).2.1 3 toldAlike_nestedSample least
  have kept : neutralizeTags (unlines (nestedSample.take 3)) =
      "<ul>\n<UL a='b'><ul/></ul>\n</ul>".toList := by decide +kernel
  have unbalanced := (rawAt_balanced alone opens).2.2 toldAlike_opened fun n range => by
    obtain rfl : n = 1 := Nat.le_antisymm range.2 range.1
    decide +kernel
  rw [show "<ul>".toList :: _ = nestedSample from rfl, kept] at balanced
  exact ⟨balanced, unbalanced⟩

def commentedSample : List Text := ["<ul>".toList, "<!-- </ul> -->".toList, "</ul>".toList]

/-- The tag in the comment is counted, so that the block ends before its list does. -/
theorem commentedTag_counted :
    ¬ ∀ tag l ls, (∀ k ∈ l :: ls, '\n' ∉ k) → rawTag? l = some tag → ∀ n,
      IsLeast {n | n ∈ Set.Icc 1 (l :: ls).length ∧
        openings tag n (unlines (l :: ls)) ≤ closings tag n (unlines (l :: ls))} n →
      rawExtent? tag 0 (l :: ls) = some n := by
  intro endsAtBalance
  have whole : ∀ k ∈ commentedSample, '\n' ∉ k := by decide
  have range : 3 ∈ Set.Icc 1 commentedSample.length := by decide
  have least := isLeast_balanced "ul".toList range (by decide +kernel) (by decide +kernel)
  have late := endsAtBalance _ _ _ whole (by decide) 3 least
  have early : rawExtent? "ul".toList 0 commentedSample = some 2 := by decide +kernel
  rw [commentedSample] at early
  rw [early] at late
  exact absurd late (by decide)

end CommentMarkup
