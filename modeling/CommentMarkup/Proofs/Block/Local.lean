import CommentMarkup.Options
import CommentMarkup.Proofs.Block.Lookahead
import CommentMarkup.Proofs.Block.TextLine

/-!
# Blocks are local

An empty line separates what stands before it from what stands behind it: the blocks of two texts
with an empty line between them are those of the first followed by those of the second, unless the
first ends with a list or indented code that the second goes on with.
-/

namespace CommentMarkup

/-! ### Line numbers -/

def Malformed.below (k : Nat) (m : Malformed) : Malformed := ⟨m.line + k, m.reason⟩

theorem mapError_bind {ε ε' α β : Type} (f : ε → ε') (x : Except ε α) (g : α → Except ε β) :
    (x >>= g).mapError f = x.mapError f >>= fun a => (g a).mapError f := by
  cases x <;> rfl

/-- Lines that start further down are read alike. -/
theorem readBlocks_below (fence : Text) (ctx : Context) (n k : Nat) (ls : List Text) :
    readBlocks fence ctx (n + k) ls =
      (readBlocks fence ctx n ls).mapError (Malformed.below k) := by
  apply readBlocks.induct fence
    (fun ctx n ls => readBlocks fence ctx (n + k) ls =
      (readBlocks fence ctx n ls).mapError (Malformed.below k))
    (fun n items => readItems fence (n + k) items =
      (readItems fence n items).mapError (Malformed.below k))
  case case1 =>
    intro ctx n
    rw [readBlocks_nil, readBlocks_nil]
    rfl
  case case2 =>
    intro ctx n l rest blank ih
    rw [readBlocks_blank blank, readBlocks_blank blank, Nat.add_right_comm, ih]
  case case3 =>
    intro ctx n l rest filled block more step ih
    rw [readBlocks_leaf filled step, readBlocks_leaf filled step, Nat.add_right_comm, ih,
      mapError_bind]
    rfl
  case case4 =>
    intro ctx n l rest filled ordered start run step inner ih
    rw [readBlocks_list filled step, readBlocks_list filled step, Nat.add_right_comm, ih, inner,
      mapError_bind]
    simp only [mapError_bind]
    rfl
  case case5 =>
    intro ctx n l rest filled label body more step inner ih
    rw [readBlocks_footnote filled step, readBlocks_footnote filled step, Nat.add_right_comm, ih,
      inner, mapError_bind]
    simp only [mapError_bind]
    rfl
  case case6 =>
    intro ctx n l rest filled reason step
    rw [readBlocks_malformed filled step, readBlocks_malformed filled step]
    rfl
  case case7 =>
    intro n
    rw [readItems, readItems]
    rfl
  case case8 =>
    intro n raw rest inner ih
    rw [readItems, readItems, Nat.add_right_comm, inner, ih, mapError_bind]
    simp only [mapError_bind]
    rfl

/-! ### Lines that a step takes -/

theorem length_quoteLines_le (fence : Text) (inText : Bool) (ls : List Text) :
    (quoteLines fence inText ls).length ≤ ls.length := by
  induction ls generalizing inText with
  | nil => exact Nat.le_refl _
  | cons l ls ih =>
    rw [quoteLines]
    split
    · exact Nat.succ_le_succ (ih _)
    · split
      · exact Nat.zero_le _
      · exact Nat.succ_le_succ (ih _)

theorem length_codeLines_le (tabbed : Bool) (ls : List Text) :
    (codeLines tabbed ls).length ≤ ls.length := by
  have part := (List.dropWhile_sublist Text.isBlank (l := (codeRun tabbed ls).reverse)).length_le
  have run := (List.takeWhile_sublist (l := ls) fun l => l.isBlank || continuesCode tabbed l).length_le
  rw [List.length_reverse] at part
  rw [codeLines, List.length_map, List.length_reverse]
  exact Nat.le_trans part run

theorem listRun_taken_le (ordered : Bool) (offset : Nat) (ls : List Text) :
    (listRun ordered offset ls).taken ≤ ls.length := by
  fun_induction listRun ordered offset ls with
  | case1 | case2 | case3 => exact Nat.zero_le _
  | case4 offset l rest m _ _ bullet first _ body raw after gap _ ih =>
    have short : body.length ≤ rest.length := length_itemLines_le _ _ rest
    have left : after.length = rest.length - body.length := List.length_drop
    simp only [ListRun.cons, List.length_cons]
    omega
  | case5 offset l rest m _ _ bullet first _ body raw after gap _ _ ih =>
    have short : body.length ≤ rest.length := length_itemLines_le _ _ rest
    have left : after.length = rest.length - body.length := List.length_drop
    have blanks : gap ≤ after.length := (List.takeWhile_sublist Text.isBlank).length_le
    rw [List.length_drop] at ih
    simp only [ListRun.loose, ListRun.cons, List.length_cons]
    omega
  | case6 offset l rest m _ _ bullet first _ body raw after gap _ _ =>
    exact Nat.succ_le_succ (length_itemLines_le _ _ rest)

theorem linkTarget_more_le {l rest : Text} {ls : List Text} {target : Target} {more : Nat}
    (h : linkTarget? l rest ls.head? = some (target, more)) : more ≤ ls.length := by
  unfold linkTarget? at h
  obtain ⟨⟨url, after⟩, _, h⟩ := Option.bind_eq_some_iff.mp h
  dsimp only at h
  split at h
  · split at h <;> rename_i titled <;> cases h
    · cases ls with
      | nil => cases titled
      | cons => simp
    · exact Nat.zero_le _
  · obtain ⟨title, _, h⟩ := Option.map_eq_some_iff.mp h
    cases h
    exact Nat.zero_le _

def Step.more : Step → Nat
  | .leaf _ more | .footnote _ _ more => more
  | .list _ _ run => run.taken - 1
  | .malformed _ => 0

theorem StepAt.more_le {fence : Text} {ctx : Context} {l : Text} {ls : List Text} {step : Step}
    (h : StepAt fence ctx l ls step) : step.more ≤ ls.length := by
  cases h with
  | fenced opens closes => exact (List.findIdx?_eq_some_iff_getElem.mp closes).1
  | indented => exact length_codeLines_le _ _
  | raw opens closes =>
    have short := (rawExtent_append closes []).2
    rw [List.length_cons] at short
    exact Nat.sub_le_of_le_add short
  | link defines kind proper => exact linkTarget_more_le proper
  | footnote => exact (List.takeWhile_sublist _).length_le
  | quote =>
    have short := length_quoteLines_le fence false (l :: ls)
    exact Nat.sub_le_of_le_add short
  | @list m marked =>
    have short := listRun_taken_le m.ordered 0 (l :: ls)
    exact Nat.sub_le_of_le_add short
  | underlined under =>
    cases ls with
    | nil => cases under
    | cons => simp [Step.more]
  | paragraph => exact paragraphExtent_le _ _ _
  | _ => exact Nat.zero_le _

theorem StepAt.taken_pos {fence : Text} {ctx : Context} {l : Text} {ls : List Text}
    {ordered : Bool} {start : Nat} {run : ListRun}
    (h : StepAt fence ctx l ls (.list ordered start run)) : 0 < run.taken := by
  cases h with
  | list marked => exact listRun_taken_pos marked 0 ls

/-! ### Reading on behind an empty line -/

/-- Nothing that stands behind an empty line goes on with the last block. -/
def Closed (blocks : List Block) (more : List Text) : Prop :=
  (∀ block, blocks.getLast? = some block → ¬ block.staysOpen) ∨ StartsFresh more

theorem readBlocks_blanks {fence : Text} {ctx : Context} {n : Nat} {ls : List Text}
    (blank : ∀ l ∈ ls, l.isBlank) : readBlocks fence ctx n ls = .ok [] := by
  induction ls generalizing n with
  | nil => rw [readBlocks_nil]
  | cons l ls ih =>
    rw [List.forall_mem_cons] at blank
    rw [readBlocks_blank blank.1, ih blank.2]

/-- If the blocks up to the end are closed, so is each of them. -/
theorem Closed.settled {fence : Text} {ctx : Context} {n : Nat} {ls more : List Text}
    {block : Block} {others : List Block} (closed : Closed (block :: others) more)
    (read : readBlocks fence ctx n ls = .ok others) (opens : block.staysOpen) :
    Settled ls more := by
  rcases closed with last | fresh
  · cases others with
    | nil => exact absurd opens (last block rfl)
    | cons other others =>
      left
      by_contra none
      rw [readBlocks_blanks (by simpa using none)] at read
      cases read
  · exact .inr fresh

theorem Closed.tail {block : Block} {others : List Block} {more : List Text}
    (closed : Closed (block :: others) more) : Closed others more := by
  rcases closed with last | fresh
  · left
    intro other ends
    cases others with
    | nil => cases ends
    | cons => exact last other (by rwa [List.getLast?_cons_cons])
  · exact .inr fresh

theorem readBlocks_append {fence : Text} {ctx : Context} {n : Nat} {ls more : List Text}
    {blocks : List Block} (read : readBlocks fence ctx n ls = .ok blocks)
    (closed : Closed blocks more) :
    readBlocks fence ctx n (ls ++ [] :: more) =
      (readBlocks fence ctx (n + ls.length + 1) more).map (blocks ++ ·) := by
  generalize size : ls.length = k
  induction k using Nat.strongRecOn generalizing ls n blocks with
  | ind k ih =>
  cases ls with
  | nil =>
    rw [readBlocks_nil] at read
    cases read
    rw [List.nil_append, readBlocks_blank rfl, ← size, List.length_nil, Nat.add_zero]
    cases readBlocks fence ctx (n + 1) more <;> rfl
  | cons l ls =>
    rw [List.cons_append]
    rw [List.length_cons] at size
    by_cases blank : l.isBlank
    · rw [readBlocks_blank blank] at read
      rw [readBlocks_blank blank, ih ls.length (by omega) read closed rfl, Nat.add_assoc n 1,
        Nat.add_comm 1, size]
    -- the lines behind a step go on as they would without it
    have later (taken : Nat) {others : List Block} (short : taken ≤ ls.length)
        (read : readBlocks fence ctx (n + (taken + 1)) (ls.drop taken) = .ok others)
        (closed : Closed others more) :
        readBlocks fence ctx (n + (taken + 1)) ((ls ++ [] :: more).drop taken) =
          (readBlocks fence ctx (n + k + 1) more).map (others ++ ·) := by
      have fewer : (ls.drop taken).length < k := by
        rw [List.length_drop]
        omega
      rw [List.drop_append_of_le_length short, ih _ fewer read closed rfl, List.length_drop]
      congr 2
      omega
    have found : StepAt fence ctx l ls (blockAt fence ctx l ls) := stepAt rfl
    have same (settled : (blockAt fence ctx l ls).Settled ls more) := blockAt_append settled
    cases step : blockAt fence ctx l ls with
    | leaf block taken =>
      rw [step] at same found
      rw [readBlocks_leaf blank step] at read
      obtain ⟨others, rest, read⟩ := bind_ok read
      cases read
      rw [readBlocks_leaf blank (same fun opens => closed.settled rest opens),
        later taken found.more_le rest closed.tail]
      cases readBlocks fence ctx (n + k + 1) more <;> rfl
    | list ordered start run =>
      rw [step] at same found
      rw [readBlocks_list blank step] at read
      obtain ⟨items, inner, read⟩ := bind_ok read
      obtain ⟨others, rest, read⟩ := bind_ok read
      cases read
      have taken : n + run.taken = n + (run.taken - 1 + 1) := by
        rw [Nat.sub_add_cancel found.taken_pos]
      rw [taken] at rest
      rw [readBlocks_list blank (same (closed.settled rest rfl)), inner, taken,
        later (run.taken - 1) found.more_le rest closed.tail]
      cases readBlocks fence ctx (n + k + 1) more <;> rfl
    | footnote label body taken =>
      rw [step] at same found
      rw [readBlocks_footnote blank step] at read
      obtain ⟨bodyBlocks, inner, read⟩ := bind_ok read
      obtain ⟨others, rest, read⟩ := bind_ok read
      cases read
      rw [readBlocks_footnote blank (same trivial), inner,
        later taken found.more_le rest closed.tail]
      cases readBlocks fence ctx (n + k + 1) more <;> rfl
    | malformed reason =>
      rw [readBlocks_malformed blank step] at read
      cases read

/-! ### Texts -/

/-- Behind a line feed the lines of a text do not depend on what stands before it. -/
theorem lines_feed {a : Text} (plain : '\r' ∉ a) (t : Text) :
    lines (a ++ '\n' :: t) = cutAt (· == '\n') a ++ lines t := by
  have kept : ∀ piece ∈ cutAt (· == '\n') a, Text.dropReturn piece = piece := fun _ found =>
    Text.dropReturn_bare (Text.endsWith_of_notMem fun inner => plain (of_mem_cutAt found inner).1)
  rw [lines_join, List.map_congr_left kept, List.map_id']

/-- A line feed at the end makes an empty piece, but no line. -/
theorem cutAt_feed {a : Text} (plain : '\r' ∉ a) :
    cutAt (· == '\n') a = lines a ∨ cutAt (· == '\n') a = lines a ++ [[]] := by
  have pieces : lines (a ++ ['\n']) = cutAt (· == '\n') a := by
    rw [lines_feed plain, lines, List.append_nil]
  rw [← pieces]
  exact lines_end (Text.endsWith_of_notMem plain)

theorem length_cutAt {α : Type} [BEq α] (mark : α) (l : List α) :
    (cutAt (· == mark) l).length = l.count mark + 1 := by
  induction l with
  | nil => rfl
  | cons a l ih =>
    by_cases cut : a == mark
    · rw [cutAt_cons_pos (p := (· == mark)) cut, List.length_cons, ih, List.count_cons, if_pos cut]
    · obtain ⟨piece, pieces, found, whole⟩ := cutAt_cons_neg (p := (· == mark)) cut l
      rw [found] at ih
      rw [whole, List.count_cons, if_neg cut]
      exact ih

theorem StartsFresh.blank {ls : List Text} (fresh : StartsFresh ls) : StartsFresh ([] :: ls) := fresh

theorem Closed.blank {blocks : List Block} {more : List Text} (closed : Closed blocks more) :
    Closed blocks ([] :: more) := closed.imp id StartsFresh.blank

/-- Two texts with an empty line between them are read one after the other, and a failure of the
second is reported as many lines further down as stand before it. -/
theorem readDocument_join {fence a b : Text} {blocks : List Block} (plain : '\r' ∉ a)
    (read : readDocument fence a = .ok blocks) (closed : Closed blocks (lines b)) :
    readDocument fence (a ++ "\n\n".toList ++ b) =
      match readDocument fence b with
      | .ok others => .ok (blocks ++ others)
      | .error ⟨line, reason⟩ => .error ⟨line + (a ++ "\n\n".toList).count '\n', reason⟩ := by
  have joined : readDocument fence (a ++ "\n\n".toList ++ b) =
      (readBlocks fence .document (1 + (a ++ "\n\n".toList).count '\n') (lines b)).map
        (blocks ++ ·) := by
    have text : a ++ "\n\n".toList ++ b = a ++ '\n' :: '\n' :: b := by simp
    have feeds : (a ++ "\n\n".toList).count '\n' = a.count '\n' + 2 := by simp
    have pieces := length_cutAt '\n' a
    rw [readDocument, text, lines_feed plain, lines, feeds]
    rcases cutAt_feed plain with same | ended
    · rw [same] at pieces ⊢
      rw [readBlocks_append read closed, pieces]
      congr 2
    · rw [ended, List.length_append] at pieces
      rw [ended, List.append_assoc, List.singleton_append, readBlocks_append read closed.blank,
        readBlocks_blank rfl]
      congr 2
      simp only [List.length_singleton] at pieces
      omega
  rw [joined, readBlocks_below, readDocument]
  cases readBlocks fence .document 1 (lines b) <;> rfl

def listSample : Text := "- x\n\n  y".toList

def listSampleBlocks : List Block :=
  [.list false 1 true [⟨.plain, [paragraph ["x".toList], paragraph ["y".toList]]⟩]]

theorem readDocument_listSample :
    readDocument Options.default.fence listSample = .ok listSampleBlocks := by
  have cut : lines listSample = ["- x".toList, [], "  y".toList] := by decide
  have list : blockAt Options.default.fence .document "- x".toList [[], "  y".toList] =
      .list false 1 ⟨[⟨0, .plain, ["x".toList, [], "y".toList]⟩], true, 3⟩ := by
    have marked : listMarker? "- x".toList = some ⟨0, false, 1, 2, "x".toList⟩ := by decide +kernel
    have run : listRun false 0 ["- x".toList, [], "  y".toList] =
        ⟨[⟨0, .plain, ["x".toList, [], "y".toList]⟩], true, 3⟩ := by cbv
    have whole : blockAt Options.default.fence .document "- x".toList [[], "  y".toList] =
        .list false 1 (listRun false 0 ["- x".toList, [], "  y".toList]) := by
      apply blockAt_list (m := ⟨0, false, 1, 2, "x".toList⟩) <;> decide +kernel
    rw [whole, run]
  have item : lines (unlines ["x".toList, [], "y".toList]) = ["x".toList, [], "y".toList] := by
    decide
  have first : blockAt Options.default.fence .item "x".toList [[], "y".toList] =
      .leaf (paragraph ["x".toList]) 0 :=
    blockAt_text (by decide +kernel) (by decide)
  have second : blockAt Options.default.fence .item "y".toList [] =
      .leaf (paragraph ["y".toList]) 0 :=
    blockAt_text (by decide +kernel) rfl
  rw [readDocument, cut, readBlocks_list (by decide) list, readItems, item,
    readBlocks_leaf (by decide) first, List.drop_zero, readBlocks_blank rfl,
    readBlocks_leaf (by decide) second, List.drop_nil, readBlocks_nil, readItems]
  dsimp only
  rw [List.drop_of_length_le (by decide), readBlocks_nil]
  rfl

theorem readDocument_join_listSample :
    '\r' ∉ listSample ∧ readDocument Options.default.fence listSample = .ok listSampleBlocks ∧
    Closed listSampleBlocks (lines "z\n\n\x60\x60\x60".toList) ∧
    readDocument Options.default.fence
      (listSample ++ "\n\n".toList ++ "z\n\n\x60\x60\x60".toList) =
        .error ⟨7, .unterminatedFence⟩ := by
  have fresh : StartsFresh (lines "z\n\n\x60\x60\x60".toList) := by
    intro l first
    cases first
    decide
  have opening : blockAt Options.default.fence .document "z".toList [[], [tick, tick, tick]] =
      .leaf (paragraph ["z".toList]) 0 :=
    blockAt_text (by decide +kernel) (by decide)
  have fence : blockAt Options.default.fence .document [tick, tick, tick] [] =
      .malformed .unterminatedFence := by cbv
  have fails : readDocument Options.default.fence "z\n\n\x60\x60\x60".toList =
      .error ⟨3, .unterminatedFence⟩ := by
    have cut : lines "z\n\n\x60\x60\x60".toList = ["z".toList, [], [tick, tick, tick]] := by decide
    rw [readDocument, cut, readBlocks_leaf (by decide) opening, List.drop_zero,
      readBlocks_blank rfl, readBlocks_malformed (by decide) fence]
    rfl
  have whole := readDocument_join (by decide) readDocument_listSample (.inr fresh)
  rw [fails] at whole
  exact ⟨by decide, readDocument_listSample, .inr fresh, whole⟩

end CommentMarkup
