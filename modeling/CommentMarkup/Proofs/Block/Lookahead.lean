import CommentMarkup.Proofs.Block.Reading
import CommentMarkup.Proofs.Text.Cut
import CommentMarkup.Proofs.Text.Foreign
import Mathlib

/-!
# Looking ahead over an empty line

What the rules of blocks see of the lines behind an empty line. Only lists and indented code look
past it, and they are not changed by lines that start at the margin with no list marker.
-/

namespace CommentMarkup

/-- The first line with content stands at the margin and is no list item. -/
def StartsFresh (ls : List Text) : Prop :=
  ∀ l, ls.find? (fun l => !l.isBlank) = some l →
    l.startsWith (fun c => !isSpace c) ∧ listMarker? l = none

/-- Either content follows before an empty line, or what stands behind that starts afresh. -/
def Settled (rest more : List Text) : Prop := (∃ l ∈ rest, ¬ l.isBlank) ∨ StartsFresh more

namespace Settled

variable {more : List Text}

theorem of_drop {ls : List Text} {n : Nat} (h : Settled (ls.drop n) more) : Settled ls more := by
  rcases h with ⟨l, member, filled⟩ | fresh
  · exact .inl ⟨l, List.mem_of_mem_drop member, filled⟩
  · exact .inr fresh

theorem of_blank {l : Text} {ls : List Text} (blank : l.isBlank) (h : Settled (l :: ls) more) :
    Settled ls more := by
  rcases h with ⟨m, member, filled⟩ | fresh
  · rcases List.mem_cons.mp member with rfl | later
    · exact absurd blank filled
    · exact .inl ⟨m, later, filled⟩
  · exact .inr fresh

theorem fresh {ls : List Text} (h : Settled ls more) (blank : ∀ l ∈ ls, l.isBlank) :
    StartsFresh more := by
  rcases h with ⟨l, member, filled⟩ | fresh
  · exact absurd (blank l member) filled
  · exact fresh

end Settled

theorem indentColumns_margin {l : Text} (margin : l.startsWith fun c => !isSpace c) :
    indentColumns l = 0 := by
  obtain ⟨c, rest, rfl, ink⟩ := Text.startsWith_iff.mp margin
  have apart {d : Char} (space : isSpace d) : c ≠ d := by
    rintro rfl
    simp [space] at ink
  rw [indentColumns, indentFrom]
  · rintro cs ⟨⟩
    exact apart (by decide) rfl
  · rintro cs ⟨⟩
    exact apart (by decide) rfl

/-! ### Lists -/

/-- Up to the first line with content, what stands behind an empty line adds none that matters. -/
theorem find_append {ls more : List Text} (settled : Settled ls more) :
    (ls ++ [] :: more).find? (fun l => !l.isBlank) = ls.find? (fun l => !l.isBlank) ∨
      ls.find? (fun l => !l.isBlank) = none ∧
      ∃ l, (ls ++ [] :: more).find? (fun l => !l.isBlank) = some l ∧
        l.startsWith (fun c => !isSpace c) ∧ listMarker? l = none := by
  have skip : ([] :: more).find? (fun l => !Text.isBlank l) =
      more.find? fun l => !Text.isBlank l := rfl
  rw [List.find?_append, skip]
  cases first : ls.find? fun l => !l.isBlank with
  | some l => exact .inl rfl
  | none =>
    have blank : ∀ l ∈ ls, l.isBlank := by simpa using List.find?_eq_none.mp first
    cases later : more.find? fun l => !l.isBlank with
    | none => exact .inl rfl
    | some l => exact .inr ⟨rfl, l, rfl, settled.fresh blank l later⟩

theorem resumesAfter_append {ls more : List Text} (settled : Settled ls more) (indent : Nat) :
    resumesAfter indent (ls ++ [] :: more) = resumesAfter indent ls := by
  unfold resumesAfter
  rcases find_append settled with same | ⟨none, l, found, margin, _⟩
  · rw [same]
  · rw [none, found]
    simp [indentColumns_margin margin]

theorem length_itemLines_le (indent content : Nat) (ls : List Text) :
    (itemLines indent content ls).length ≤ ls.length := by
  fun_induction itemLines indent content ls with
  | case1 | case3 | case5 => simp
  | case2 | case4 | case6 => simp_all

theorem itemLines_append {ls more : List Text} {indent content : Nat}
    (settled : Settled (ls.drop (itemLines indent content ls).length) more) :
    itemLines indent content (ls ++ [] :: more) = itemLines indent content ls := by
  fun_induction itemLines indent content ls with
  | case1 =>
    have ends : resumesAfter indent more = false := resumesAfter_append settled indent
    simp [itemLines, ends]
  | case2 l ls empty resumes ih =>
    have inner : Settled (ls.drop (itemLines indent content ls).length) more := settled
    have same := resumesAfter_append inner.of_drop indent
    rw [List.cons_append, itemLines, if_pos empty, same, if_pos resumes, ih inner]
  | case3 l ls empty ends =>
    have blank : l.isBlank := by simp [List.isEmpty_iff.mp empty, Text.isBlank]
    have same := resumesAfter_append (settled.of_blank blank) indent
    rw [List.cons_append, itemLines, if_pos empty, same, if_neg ends]
  | case4 l ls filled blank ih =>
    rw [List.cons_append, itemLines, if_neg filled, if_pos blank, ih settled]
  | case5 l ls filled inked shallow =>
    rw [List.cons_append, itemLines, if_neg filled, if_neg inked, if_pos shallow]
  | case6 l ls filled inked deep ih =>
    rw [List.cons_append, itemLines, if_neg filled, if_neg inked, if_neg deep, ih settled]

def afterGap (ls : List Text) : List Text := ls.drop (ls.takeWhile Text.isBlank).length

theorem startsItem_afterGap (ordered : Bool) (ls : List Text) :
    startsItem ordered (afterGap ls) =
      ((ls.find? fun l => !l.isBlank).bind listMarker?).any fun m => m.ordered == ordered := by
  rw [startsItem, afterGap, drop_takeWhile_length, List.find?_not_eq_head?_dropWhile]

theorem startsItem_append {ls more : List Text} (settled : Settled ls more) (ordered : Bool) :
    startsItem ordered (afterGap (ls ++ [] :: more)) = startsItem ordered (afterGap ls) := by
  rw [startsItem_afterGap, startsItem_afterGap]
  rcases find_append settled with same | ⟨none, l, found, _, unmarked⟩
  · rw [same]
  · rw [none, found, Option.bind_some, unmarked]
    rfl

theorem takeWhile_append_le (ls more : List Text) :
    (ls.takeWhile Text.isBlank).length ≤ ((ls ++ more).takeWhile Text.isBlank).length := by
  rw [List.takeWhile_append]
  split
  · rename_i whole
    rw [whole, List.length_append]
    exact Nat.le_add_right _ _
  · exact Nat.le_refl _

theorem takeWhile_blank_append {ls : List Text} (filled : ∃ l ∈ ls, ¬ l.isBlank)
    (more : List Text) : (ls ++ more).takeWhile Text.isBlank = ls.takeWhile Text.isBlank := by
  rw [List.takeWhile_append, if_neg]
  intro whole
  obtain ⟨l, member, inked⟩ := filled
  have all := (List.takeWhile_sublist Text.isBlank (l := ls)).eq_of_length whole
  exact inked (List.takeWhile_eq_self_iff.mp all l member)

theorem startsItem_cons {ordered : Bool} {l : Text} {ls : List Text} :
    startsItem ordered (l :: ls) ↔ ∃ m, listMarker? l = some m ∧ m.ordered = ordered := by
  simp [startsItem, Option.any_eq_true]

section Run

variable {ordered : Bool} {offset : Nat} {l : Text} {rest : List Text} {m : ListMarker}
  (marked : listMarker? l = some m) (same : m.ordered = ordered)

include marked same

/-- An item with its list going on right after it, after blank lines, or not at all. -/
theorem listRun_item {bullet : Bullet} {first : Text} (split : splitTask m.content = (bullet, first))
    {body after : List Text} (lines : itemLines m.indent m.contentColumn rest = body)
    (left : rest.drop body.length = after) :
    listRun ordered offset (l :: rest) =
      if (after.takeWhile Text.isBlank).length = 0 then
        (listRun ordered (offset + (body.length + 1)) after).cons ⟨offset, bullet, first :: body⟩
          (body.length + 1)
      else if startsItem ordered (afterGap after) then
        ((listRun ordered (offset + (body.length + 1 + (after.takeWhile Text.isBlank).length))
            (afterGap after)).cons ⟨offset, bullet, first :: body⟩
          (body.length + 1 + (after.takeWhile Text.isBlank).length)).loose
      else ⟨[⟨offset, bullet, first :: body⟩], true, body.length + 1⟩ := by
  subst same lines left
  rw [listRun, marked]
  simp only [bne_self_eq_false, Bool.false_eq_true, if_false, split]
  rfl

end Run

theorem listRun_unmarked {ordered : Bool} {offset : Nat} {ls : List Text}
    (ends : startsItem ordered ls = false) : listRun ordered offset ls = ⟨[], true, 0⟩ := by
  cases ls with
  | nil => rw [listRun]
  | cons l ls =>
    rw [listRun]
    cases marked : listMarker? l with
    | none => rfl
    | some m => simp_all [startsItem]

theorem blank_afterGap {ls : List Text} (blank : ∀ l ∈ ls, l.isBlank) : afterGap ls = [] := by
  rw [afterGap, drop_takeWhile_length, List.dropWhile_eq_nil_iff]
  exact blank

theorem afterGap_append {ls : List Text} (filled : ∃ l ∈ ls, ¬ l.isBlank) (more : List Text) :
    afterGap (ls ++ more) = afterGap ls ++ more := by
  rw [afterGap, takeWhile_blank_append filled, afterGap]
  exact List.drop_append_of_le_length (List.takeWhile_sublist _).length_le

theorem listRun_append {ordered : Bool} {offset : Nat} {ls more : List Text}
    (settled : Settled (ls.drop (listRun ordered offset ls).taken) more) :
    listRun ordered offset (ls ++ [] :: more) = listRun ordered offset ls := by
  generalize size : ls.length = n
  induction n using Nat.strongRecOn generalizing ls offset with
  | ind n ih =>
  cases ls with
  | nil => exact (listRun_unmarked rfl).trans (listRun_unmarked rfl).symm
  | cons l rest =>
    by_cases starts : startsItem ordered (l :: rest)
    case neg =>
      have ends : startsItem ordered (l :: rest) = false := by simpa using starts
      rw [listRun_unmarked ends]
      exact listRun_unmarked ends
    obtain ⟨m, marked, same⟩ := startsItem_cons.mp starts
    cases split : splitTask m.content with
    | mk bullet first =>
    generalize lines : itemLines m.indent m.contentColumn rest = body
    generalize left : rest.drop body.length = after
    have short : body.length ≤ rest.length := by
      rw [← lines]
      exact length_itemLines_le _ _ _
    have shorter : after.length < n := by
      rw [← left, List.length_drop, ← size, List.length_cons]
      omega
    have lines' (settled : Settled after more) :
        itemLines m.indent m.contentColumn (rest ++ [] :: more) = body := by
      rw [itemLines_append (by rwa [lines, left]), lines]
    have left' : (rest ++ [] :: more).drop body.length = after ++ [] :: more := by
      rw [List.drop_append_of_le_length short, left]
    rw [listRun_item marked same split lines left] at settled ⊢
    have behind (k : Nat) : (l :: rest).drop (body.length + 1 + k) = after.drop k := by
      rw [Nat.add_right_comm, List.drop_succ_cons, ← List.drop_drop, left]
    have behindGap (k : Nat) :
        (l :: rest).drop (body.length + 1 + (after.takeWhile Text.isBlank).length + k) =
          (afterGap after).drop k := by
      rw [Nat.add_assoc, behind, ← List.drop_drop, afterGap]
    by_cases adjacent : (after.takeWhile Text.isBlank).length = 0
    · rw [if_pos adjacent, ListRun.cons, behind] at settled
      rw [if_pos adjacent, List.cons_append, listRun_item marked same split (lines' settled.of_drop) left']
      by_cases filled : ∃ l ∈ after, ¬ l.isBlank
      · rw [takeWhile_blank_append filled, if_pos adjacent, ih _ shorter settled rfl]
      · have blank : ∀ l ∈ after, l.isBlank := by simpa using filled
        have empty : after = [] := by
          rw [← List.length_eq_zero_iff, ← adjacent, List.takeWhile_eq_self_iff.mpr blank]
        have ends := startsItem_append settled.of_drop ordered
        subst empty
        rw [if_neg (by simp [Text.isBlank]), if_neg (by rw [ends]; exact Bool.false_ne_true),
          listRun_unmarked rfl]
        rfl
    · rw [if_neg adjacent] at settled ⊢
      have apart : ((after ++ [] :: more).takeWhile Text.isBlank).length ≠ 0 := by
        have grows := takeWhile_append_le after ([] :: more)
        omega
      by_cases goesOn : startsItem ordered (afterGap after)
      · rw [if_pos goesOn] at settled
        have inner : Settled ((afterGap after).drop (listRun ordered (offset + (body.length + 1 +
            (after.takeWhile Text.isBlank).length)) (afterGap after)).taken) more := by
          rw [← behindGap]
          exact settled
        have filled : ∃ l ∈ after, ¬ l.isBlank := by
          by_contra none
          rw [blank_afterGap (by simpa using none)] at goesOn
          cases goesOn
        have fewer : (afterGap after).length < n := by
          rw [afterGap, List.length_drop]
          omega
        rw [if_pos goesOn, List.cons_append,
          listRun_item marked same split (lines' inner.of_drop.of_drop) left', if_neg apart,
          startsItem_append inner.of_drop.of_drop, if_pos goesOn, afterGap_append filled,
          takeWhile_blank_append filled, ih _ fewer inner rfl]
      · rw [if_neg goesOn] at settled
        have here : Settled after more := by
          have whole := behind 0
          rw [Nat.add_zero, List.drop_zero] at whole
          rwa [whole] at settled
        rw [if_neg goesOn, List.cons_append, listRun_item marked same split (lines' here) left',
          if_neg apart, startsItem_append here, if_neg goesOn]

/-! ### Code -/

theorem isCodeLine_margin {l : Text} (margin : l.startsWith fun c => !isSpace c) :
    isCodeLine l = false := by
  obtain ⟨c, rest, rfl, ink⟩ := Text.startsWith_iff.mp margin
  have apart {d : Char} (space : isSpace d) : c ≠ d := by
    rintro rfl
    simp [space] at ink
  have tab : c ≠ '\t' := apart (by decide)
  have blank : ' ' ≠ c := (apart (by decide)).symm
  simp [isCodeLine, isTabbed, Text.startsWith, codeIndent, List.replicate, List.isPrefixOf, tab,
    blank]

theorem dropEnd_blank {ls blanks : List Text} (blank : ∀ l ∈ blanks, l.isBlank) :
    (ls ++ blanks).reverse.dropWhile Text.isBlank = ls.reverse.dropWhile Text.isBlank := by
  rw [List.reverse_append, List.dropWhile_append_of_pos]
  intro l member
  exact blank l (List.mem_reverse.mp member)

/-- The lines that may belong to indented code, blank ones at the end included. -/
def codeRun (tabbed : Bool) (ls : List Text) : List Text :=
  ls.takeWhile fun l => l.isBlank || continuesCode tabbed l

theorem codeRun_fresh {tabbed : Bool} {ls : List Text} (fresh : StartsFresh ls) :
    ∀ l ∈ codeRun tabbed ls, l.isBlank := by
  induction ls with
  | nil => nofun
  | cons l ls ih =>
    by_cases blank : l.isBlank
    · have later : StartsFresh ls := by
        intro m first
        exact fresh m (by rwa [List.find?_cons_of_neg (by simp [blank])])
      intro m member
      rw [codeRun, List.takeWhile_cons_of_pos (by simp [blank])] at member
      rcases List.mem_cons.mp member with rfl | inside
      · exact blank
      · exact ih later m inside
    · have margin := (fresh l (List.find?_cons_of_pos (by simp [blank]))).1
      have ends : codeRun tabbed (l :: ls) = [] := by
        simp [codeRun, blank, continuesCode, isCodeLine_margin margin]
      rw [ends]
      nofun

/-- Behind the code that ends with the lines there are blank lines only. -/
theorem blank_behind_code {tabbed : Bool} {ls : List Text} (whole : codeRun tabbed ls = ls) :
    ∀ l ∈ ls.drop (codeLines tabbed ls).length, l.isBlank := by
  have parts : (ls.reverse.dropWhile Text.isBlank).reverse ++
      (ls.reverse.takeWhile Text.isBlank).reverse = ls := by
    rw [← List.reverse_append, List.takeWhile_append_dropWhile, List.reverse_reverse]
  have size : (codeLines tabbed ls).length = (ls.reverse.dropWhile Text.isBlank).reverse.length := by
    rw [codeLines, List.length_map, ← codeRun, whole]
  intro l member
  rw [size] at member
  nth_rewrite 2 [← parts] at member
  rw [List.drop_left] at member
  exact List.mem_takeWhile_imp (List.mem_reverse.mp member)

theorem codeLines_append {tabbed : Bool} {ls more : List Text}
    (settled : Settled (ls.drop (codeLines tabbed ls).length) more) :
    codeLines tabbed (ls ++ [] :: more) = codeLines tabbed ls := by
  by_cases whole : codeRun tabbed ls = ls
  · have fresh := settled.fresh (blank_behind_code whole)
    have blanks : ∀ l ∈ codeRun tabbed ([] :: more), l.isBlank := by
      intro l member
      rw [codeRun, List.takeWhile_cons_of_pos rfl] at member
      rcases List.mem_cons.mp member with rfl | inside
      · rfl
      · exact codeRun_fresh fresh l inside
    have run : codeRun tabbed (ls ++ [] :: more) = ls ++ codeRun tabbed ([] :: more) :=
      List.takeWhile_append_of_pos (List.takeWhile_eq_self_iff.mp whole)
    rw [codeLines, ← codeRun, run, dropEnd_blank blanks, codeLines, ← codeRun, whole]
  · have run : codeRun tabbed (ls ++ [] :: more) = codeRun tabbed ls := by
      rw [codeRun, List.takeWhile_append, if_neg, codeRun]
      intro full
      exact whole ((List.takeWhile_sublist _).eq_of_length full)
    rw [codeLines, ← codeRun, run, codeLines, ← codeRun]

/-! ### Other blocks -/

theorem quoteLines_append (fence : Text) (inText : Bool) (ls more : List Text) :
    quoteLines fence inText (ls ++ [] :: more) = quoteLines fence inText ls := by
  induction ls generalizing inText with
  | nil => simp [quoteLines, isQuoteLine, Text.startsWith, Text.trimStart, Text.isBlank]
  | cons l ls ih => simp only [List.cons_append, quoteLines, ih]

theorem underline_append (ls more : List Text) :
    (ls ++ [] :: more).head?.bind underline? = ls.head?.bind underline? := by
  cases ls <;> rfl

theorem paragraphExtent_append (fence : Text) (ctx : Context) (ls more : List Text) :
    paragraphExtent fence ctx (ls ++ [] :: more) = paragraphExtent fence ctx ls := by
  induction ls with
  | nil => simp [paragraphExtent, Text.isBlank]
  | cons l ls ih => simp only [List.cons_append, paragraphExtent, underline_append, ih]

theorem paragraphExtent_le (fence : Text) (ctx : Context) (ls : List Text) :
    paragraphExtent fence ctx ls ≤ ls.length := by
  induction ls with
  | nil => exact Nat.le_refl _
  | cons l ls ih =>
    rw [paragraphExtent]
    split
    · exact Nat.zero_le _
    · exact Nat.succ_le_succ ih

theorem takeWhile_continues_append (l : Text) (ls more : List Text) :
    (ls ++ [] :: more).takeWhile (continuesFootnote l) = ls.takeWhile (continuesFootnote l) := by
  induction ls with
  | nil => rfl
  | cons m ls ih => rw [List.cons_append, List.takeWhile_cons, List.takeWhile_cons, ih]

theorem linkTarget_append (l rest : Text) (ls more : List Text) :
    linkTarget? l rest (ls ++ [] :: more).head? = linkTarget? l rest ls.head? := by
  cases ls with
  | nil =>
    have shallow : Option.filter (fun m => indentColumns l < indentColumns m) (some []) = none := by
      simp [indentColumns, indentFrom]
    simp only [linkTarget?, List.nil_append, List.head?_cons, List.head?_nil, shallow,
      Option.filter_none]
  | cons m ls => rfl

theorem rawExtent_append {tag : Text} {depth : Int} {ls : List Text} {n : Nat}
    (closes : rawExtent? tag depth ls = some n) (more : List Text) :
    rawExtent? tag depth (ls ++ more) = some n ∧ n ≤ ls.length := by
  induction ls generalizing depth n with
  | nil => cases closes
  | cons l ls ih =>
    rw [rawExtent?] at closes
    rw [List.cons_append, rawExtent?]
    split at closes
    · cases closes
      rename_i closed
      exact ⟨if_pos closed, by simp⟩
    · rename_i open_
      obtain ⟨k, later, rfl⟩ := Option.map_eq_some_iff.mp closes
      obtain ⟨same, short⟩ := ih later
      rw [if_neg open_, same]
      exact ⟨rfl, Nat.succ_le_succ short⟩

/-! ### Steps -/

def Block.staysOpen : Block → Bool
  | .list .. | .code .tabIndented _ | .code .spaceIndented _ => true
  | _ => false

/-- What stands behind an empty line after `ls` has no part in the step. -/
def Step.Settled (ls more : List Text) : Step → Prop
  | .leaf block n => block.staysOpen → CommentMarkup.Settled (ls.drop n) more
  | .list _ _ run => CommentMarkup.Settled (ls.drop (run.taken - 1)) more
  | .footnote .. => True
  | .malformed _ => False

/-- Two rules agree, unless the first one makes a step without the property. -/
def Agree (P : Step → Prop) (x x' : Option Step) : Prop := (∀ step, x = some step → P step) → x' = x

theorem Agree.orElse {P : Step → Prop} {x x' y y' : Option Step} (first : Agree P x x')
    (second : Agree P y y') : Agree P (x <|> y) (x' <|> y') := by
  intro holds
  cases x with
  | none =>
    rw [first nofun]
    exact second holds
  | some step =>
    rw [first holds]
    rfl

section Rules

variable (fence : Text) (ctx : Context) (l : Text) (ls more : List Text)

theorem fencedAt_agree :
    Agree (Step.Settled ls more) (fencedAt fence l ls) (fencedAt fence l (ls ++ [] :: more)) := by
  intro holds
  unfold fencedAt at holds ⊢
  cases opens : openFence? fence l with
  | none => rfl
  | some info =>
    rw [opens] at holds
    cases closes : ls.findIdx? (isClosingFence fence) with
    | none =>
      rw [closes] at holds
      exact (holds _ rfl).elim
    | some n =>
      have short := (List.findIdx?_eq_some_iff_getElem.mp closes).1
      have closes' : (ls ++ [] :: more).findIdx? (isClosingFence fence) = some n := by
        rw [List.findIdx?_append, closes]
        rfl
      simp only [Option.map_some, closes', List.take_append_of_le_length (Nat.le_of_lt short)]

theorem indentedAt_agree :
    Agree (Step.Settled ls more) (indentedAt ctx l ls) (indentedAt ctx l (ls ++ [] :: more)) := by
  intro holds
  unfold indentedAt at holds ⊢
  split
  · rename_i code
    rw [if_pos code] at holds
    have settled : Settled (ls.drop (codeLines (isTabbed l) ls).length) more := by
      apply holds _ rfl
      cases isTabbed l <;> rfl
    dsimp only
    rw [codeLines_append settled]
  · rfl

theorem rawAt_agree :
    Agree (Step.Settled ls more) (rawAt l ls) (rawAt l (ls ++ [] :: more)) := by
  intro holds
  unfold rawAt at holds ⊢
  cases opens : rawTag? l with
  | none => rfl
  | some tag =>
    rw [opens] at holds
    cases closes : rawExtent? tag 0 (l :: ls) with
    | none =>
      rw [Option.map_some, closes] at holds
      exact (holds _ rfl).elim
    | some n =>
      obtain ⟨closes', short⟩ := rawExtent_append closes ([] :: more)
      rw [List.cons_append] at closes'
      have taken : (l :: (ls ++ [] :: more)).take n = (l :: ls).take n :=
        List.take_append_of_le_length short
      simp only [Option.map_some, closes', closes, taken]

theorem definitionAt_append :
    definitionAt l (ls ++ [] :: more) = definitionAt l ls := by
  simp only [definitionAt, linkTarget_append, takeWhile_continues_append]

theorem quoteAt_append : quoteAt fence l (ls ++ [] :: more) = quoteAt fence l ls := by
  have quoted := quoteLines_append fence false (l :: ls) more
  rw [List.cons_append] at quoted
  simp only [quoteAt, quoted]

theorem listAt_agree :
    Agree (Step.Settled ls more) (listAt l ls) (listAt l (ls ++ [] :: more)) := by
  intro holds
  unfold listAt at holds ⊢
  cases marked : listMarker? l with
  | none => rfl
  | some m =>
    rw [marked] at holds
    have settled := holds _ rfl
    have positive := listRun_taken_pos marked 0 ls
    have whole : Settled ((l :: ls).drop (listRun m.ordered 0 (l :: ls)).taken) more := by
      rw [← Nat.sub_add_cancel positive, List.drop_succ_cons]
      exact settled
    have same := listRun_append whole
    rw [List.cons_append] at same
    simp only [Option.map_some, same]

theorem underlinedAt_append : underlinedAt l (ls ++ [] :: more) = underlinedAt l ls := by
  simp only [underlinedAt, underline_append]

theorem paragraphAt_append :
    paragraphAt fence ctx l (ls ++ [] :: more) = paragraphAt fence ctx l ls := by
  simp only [paragraphAt, paragraphExtent_append,
    List.take_append_of_le_length (paragraphExtent_le fence ctx ls)]

variable {fence ctx l ls more}

/-- The block at a line is the same with further lines behind an empty one. -/
theorem blockAt_append (settled : (blockAt fence ctx l ls).Settled ls more) :
    blockAt fence ctx l (ls ++ [] :: more) = blockAt fence ctx l ls := by
  have same (x : Option Step) : Agree (Step.Settled ls more) x x := fun _ => rfl
  have rules := (fencedAt_agree fence l ls more).orElse <|
    (indentedAt_agree ctx l ls more).orElse <| (same (outlineAt l)).orElse <|
    (rawAt_agree l ls more).orElse <| (same (definitionAt l ls)).orElse <|
    (same (ruleAt l)).orElse <| (same (headingAt l)).orElse <|
    (same (quoteAt fence l ls)).orElse <| (listAt_agree l ls more).orElse <|
    same (underlinedAt l ls)
  unfold blockAt at settled ⊢
  rw [definitionAt_append, quoteAt_append, underlinedAt_append, paragraphAt_append, rules]
  intro step found
  rw [found] at settled
  exact settled

end Rules

end CommentMarkup
