import CommentMarkup.Proofs.Block.Embedded
import CommentMarkup.Proofs.Block.Prose

/-!
# Reading makes progress

Each turn of the loop over lines takes some of them, and so does each item of a list. The texts that
are read in their turn may have more characters than the lines they come from, since a tab taken
apart leaves spaces, and as many lines; but they have less ink. So reading ends, and lists and
footnotes nest no deeper than a text has ink.
-/

namespace CommentMarkup

/-! ### Turns -/

def Step.taken : Step → Nat
  | .leaf _ more | .footnote _ _ more => more + 1
  | .list _ _ run => run.taken
  | .malformed _ => 0

def Step.items : Step → List RawItem
  | .list _ _ run => run.items
  | _ => []

def Step.inner : Step → List Text
  | .footnote _ body _ => [unlines body]
  | step => step.items.map fun raw => unlines raw.body

def Step.read (fence : Text) (n : Nat) : Step → Except Malformed Block
  | .leaf block _ => .ok block
  | .list ordered start run => (readItems fence n run.items).map (.list ordered start run.tight)
  | .footnote label body _ =>
    (readBlocks fence .item n (lines (unlines body))).map (.footnoteDef label)
  | .malformed reason => .error ⟨n, reason⟩

/-- Reading goes from the lines at one turn of the loop to those at the next one. If a text inside
the block is malformed, reading fails there and makes fewer turns than these. -/
inductive Turn (fence : Text) (ctx : Context) : List Text → List Text → Prop
  | blank {l : Text} {ls : List Text} (blank : l.isBlank) : Turn fence ctx (l :: ls) ls
  | step {l : Text} {ls : List Text} (filled : ¬ l.isBlank)
      (sound : ∀ reason, blockAt fence ctx l ls ≠ .malformed reason) :
      Turn fence ctx (l :: ls) ((l :: ls).drop (blockAt fence ctx l ls).taken)

inductive Asks (fence : Text) (ctx : Context) : List Text → Text → Prop
  | mk {l : Text} {ls : List Text} {inner : Text} (filled : ¬ l.isBlank)
      (member : inner ∈ (blockAt fence ctx l ls).inner) : Asks fence ctx (l :: ls) inner

def Calls (fence : Text) (ctx : Context) (t inner : Text) : Prop :=
  ∃ ls, Relation.ReflTransGen (Turn fence ctx) (lines t) ls ∧ Asks fence ctx ls inner

/-- What may be read next: the further lines, or the text of an item or a footnote. -/
inductive GoesOn (fence : Text) : Context × List Text → Context × List Text → Prop
  | turn {ctx : Context} {ls rest : List Text} (next : Turn fence ctx ls rest) :
      GoesOn fence (ctx, ls) (ctx, rest)
  | inner {ctx : Context} {ls : List Text} {t : Text} (asks : Asks fence ctx ls t) :
      GoesOn fence (ctx, ls) (.item, lines t)

section Turns

variable {fence : Text} {ctx : Context} {n : Nat} {l : Text} {ls : List Text}

/-- A turn of the loop reads the block that the lines start with and goes on behind the lines that
it takes. -/
theorem readBlocks_turn (filled : ¬ l.isBlank) :
    readBlocks fence ctx n (l :: ls) =
      (do
        let block ← (blockAt fence ctx l ls).read fence n
        let blocks ← readBlocks fence ctx (n + (blockAt fence ctx l ls).taken)
          ((l :: ls).drop (blockAt fence ctx l ls).taken)
        return block :: blocks) := by
  have found := stepAt (show blockAt fence ctx l ls = _ from rfl)
  cases step : blockAt fence ctx l ls with
  | leaf block more =>
    rw [readBlocks_leaf filled step]
    rfl
  | list ordered start run =>
    rw [step] at found
    have behind : (l :: ls).drop run.taken = ls.drop (run.taken - 1) := by
      rw [← Nat.sub_add_cancel found.taken_pos, List.drop_succ_cons, Nat.add_sub_cancel]
    rw [readBlocks_list filled step, Step.taken, behind]
    dsimp only [Step.read]
    cases readItems fence n run.items <;> rfl
  | footnote label body more =>
    rw [readBlocks_footnote filled step]
    dsimp only [Step.read]
    cases readBlocks fence .item n (lines (unlines body)) <;> rfl
  | malformed reason =>
    rw [readBlocks_malformed filled step]
    rfl

theorem StepAt.taken_bounds {step : Step} (found : StepAt fence ctx l ls step)
    (sound : ∀ reason, step ≠ .malformed reason) : 1 ≤ step.taken ∧ step.taken ≤ ls.length + 1 := by
  have most := found.more_le
  cases step with
  | leaf block more => exact ⟨Nat.succ_pos _, Nat.succ_le_succ most⟩
  | list ordered start run => exact ⟨found.taken_pos, Nat.le_add_of_sub_le most⟩
  | footnote label body more => exact ⟨Nat.succ_pos _, Nat.succ_le_succ most⟩
  | malformed reason => exact absurd rfl (sound reason)

end Turns

/-! ### Items -/

inductive ItemAt (ls : List Text) (k : Nat) : List Text → Prop
  | mk {l : Text} {rest : List Text} {m : ListMarker} (here : ls.drop k = l :: rest)
      (marked : listMarker? l = some m) :
      ItemAt ls k ((splitTask m.content).2 :: itemLines m.indent m.contentColumn rest)

theorem ItemAt.first {l first : Text} {rest : List Text} {m : ListMarker} {bullet : Bullet}
    (marked : listMarker? l = some m) (task : splitTask m.content = (bullet, first)) :
    ItemAt (l :: rest) 0 (first :: itemLines m.indent m.contentColumn rest) := by
  have item : ItemAt (l :: rest) 0 _ := .mk rfl marked
  rwa [task] at item

theorem ItemAt.behind {ls body : List Text} {n k : Nat} (item : ItemAt (ls.drop n) k body) :
    ItemAt ls (n + k) body := by
  cases item with
  | mk here marked =>
    rw [List.drop_drop] at here
    exact .mk here marked

theorem ItemAt.bounds {ls body : List Text} {k : Nat} (item : ItemAt ls k body) :
    1 ≤ body.length ∧ k + body.length ≤ ls.length := by
  cases item with
  | @mk l rest m here marked =>
    have left := congrArg List.length here
    have most := length_itemLines_le m.indent m.contentColumn rest
    rw [List.length_drop, List.length_cons] at left
    rw [List.length_cons]
    omega

/-- The items of the run stand one behind the other in the lines that it takes, the first of which
has number `offset`. -/
structure ListRun.Laid (offset : Nat) (ls : List Text) (run : ListRun) : Prop where
  placed : ∀ raw ∈ run.items, ∃ k, raw.offset = offset + k ∧ ItemAt ls k raw.body ∧
    k + raw.body.length ≤ run.taken
  inTurn : run.items.Pairwise fun a b => a.offset + a.body.length ≤ b.offset

namespace ListRun.Laid

variable {offset n : Nat} {ls : List Text} {run : ListRun} {raw : RawItem}

theorem cons {rest : List Text} (laid : run.Laid (offset + n) rest) (behind : ls.drop n = rest)
    (here : raw.offset = offset) (item : ItemAt ls 0 raw.body) (short : raw.body.length ≤ n) :
    (run.cons raw n).Laid offset ls where
  placed := by
    refine List.forall_mem_cons.mpr ⟨⟨0, here, item, ?_⟩, fun other member => ?_⟩
    · simp only [ListRun.cons]
      omega
    · subst behind
      obtain ⟨k, place, item', most⟩ := laid.placed other member
      refine ⟨n + k, by omega, item'.behind, ?_⟩
      simp only [ListRun.cons]
      omega
  inTurn := by
    refine List.pairwise_cons.mpr ⟨fun other member => ?_, laid.inTurn⟩
    obtain ⟨k, place, _⟩ := laid.placed other member
    omega

theorem none (offset : Nat) (ls : List Text) : Laid offset ls ⟨[], true, 0⟩ := ⟨nofun, .nil⟩

end ListRun.Laid

theorem listRun_laid (ordered : Bool) (offset : Nat) (ls : List Text) :
    (listRun ordered offset ls).Laid offset ls := by
  fun_induction listRun ordered offset ls with
  | case1 | case2 | case3 => exact .none _ _
  | case4 offset l rest m marked _ bullet first task body raw after gap _ ih =>
    exact ih.cons rfl rfl (.first marked task) (Nat.le_refl _)
  | case5 offset l rest m marked _ bullet first task body raw after gap _ _ ih =>
    have behind : (l :: rest).drop (body.length + 1 + gap) = after.drop gap := by
      rw [Nat.add_right_comm, List.drop_succ_cons, ← List.drop_drop]
    have item : ItemAt (l :: rest) 0 raw.body := .first marked task
    have laid := ih.cons behind rfl item (Nat.le_add_right _ _)
    exact ⟨laid.placed, laid.inTurn⟩
  | case6 offset l rest m marked _ bullet first task body raw after gap _ _ =>
    exact (ListRun.Laid.none _ _).cons rfl rfl (.first marked task) (Nat.le_refl (body.length + 1))

/-- A step that is not malformed takes at least one line and no more than there are, and so does
each item of a list, behind the lines of the items before it. -/
structure Step.Advances (ls : List Text) (step : Step) : Prop where
  taken : (∃ reason, step = .malformed reason) ∨ 1 ≤ step.taken ∧ step.taken ≤ ls.length
  items : ∀ raw ∈ step.items, ItemAt ls raw.offset raw.body ∧ 1 ≤ raw.body.length ∧
    raw.offset + raw.body.length ≤ step.taken
  inTurn : step.items.Pairwise fun a b => a.offset + a.body.length ≤ b.offset

theorem blockAt_advances (fence : Text) (ctx : Context) (l : Text) (ls : List Text) :
    (blockAt fence ctx l ls).Advances (l :: ls) := by
  have found := stepAt (show blockAt fence ctx l ls = _ from rfl)
  generalize blockAt fence ctx l ls = step at found
  have taken : (∃ reason, step = .malformed reason) ∨
      1 ≤ step.taken ∧ step.taken ≤ (l :: ls).length := by
    by_cases sound : ∀ reason, step ≠ .malformed reason
    · exact .inr (found.taken_bounds sound)
    · exact .inl (by simpa using sound)
  cases found with
  | @list m marked =>
    have laid := listRun_laid m.ordered 0 (l :: ls)
    refine ⟨taken, fun raw member => ?_, laid.inTurn⟩
    obtain ⟨k, place, item, most⟩ := laid.placed raw member
    rw [Nat.zero_add] at place
    subst place
    exact ⟨item, item.bounds.1, most⟩
  | _ => exact ⟨taken, nofun, .nil⟩

/-! ### Ink -/

section Ink

variable {fence : Text} {ctx : Context}

theorem inkCount_inner_lt {l inner : Text} {ls : List Text}
    (member : inner ∈ (blockAt fence ctx l ls).inner) : inner.inkCount < totalInk (l :: ls) := by
  have shrinks := blockAt_shrinks fence ctx l ls
  cases step : blockAt fence ctx l ls with
  | leaf block more =>
    rw [step] at member
    cases member
  | list ordered start run =>
    rw [step] at member shrinks
    obtain ⟨raw, listed, rfl⟩ := List.mem_map.mp member
    have part := le_sumOver (fun item : RawItem => totalInk item.body) listed
    rw [inkCount_unlines]
    exact Nat.lt_of_le_of_lt part shrinks
  | footnote label body more =>
    rw [step] at member shrinks
    rw [List.mem_singleton.mp member, inkCount_unlines]
    exact shrinks
  | malformed reason =>
    rw [step] at member
    cases member

theorem Asks.inkCount_lt {ls : List Text} {inner : Text} (asks : Asks fence ctx ls inner) :
    inner.inkCount < totalInk ls := by
  cases asks with
  | mk filled member => exact inkCount_inner_lt member

theorem Turn.totalInk_le {ls rest : List Text} (turn : Turn fence ctx ls rest) :
    totalInk rest ≤ totalInk ls := by
  cases turn with
  | blank => exact Nat.le_add_left _ _
  | step => exact totalInk_drop_le _ _

theorem Turn.length_lt {ls rest : List Text} (turn : Turn fence ctx ls rest) :
    rest.length < ls.length := by
  cases turn with
  | blank => exact Nat.lt_succ_self _
  | step filled sound =>
    have bounds := (stepAt rfl).taken_bounds sound
    rw [List.length_drop, List.length_cons]
    omega

theorem turns_totalInk_le {ls rest : List Text}
    (turns : Relation.ReflTransGen (Turn fence ctx) ls rest) : totalInk rest ≤ totalInk ls := by
  induction turns with
  | refl => exact Nat.le_refl _
  | tail _ turn ih => exact turn.totalInk_le.trans ih

/-- Neither the length of a text nor the number of its lines need to go down, but its ink does. -/
theorem Calls.inkCount_lt {t inner : Text} (calls : Calls fence ctx t inner) :
    inner.inkCount < t.inkCount := by
  obtain ⟨ls, turns, asks⟩ := calls
  rw [← totalInk_lines t]
  exact Nat.lt_of_lt_of_le asks.inkCount_lt (turns_totalInk_le turns)

/-- Reading goes on to less ink, or to fewer lines with no more ink. -/
theorem goesOn_wellFounded (fence : Text) :
    WellFounded fun after before => GoesOn fence before after := by
  let size (reading : Context × List Text) : Nat × Nat := (totalInk reading.2, reading.2.length)
  have descends {before after : Context × List Text} (goesOn : GoesOn fence before after) :
      Prod.Lex (· < ·) (· < ·) (size after) (size before) := by
    cases goesOn with
    | turn turn =>
      have ink := turn.totalInk_le.lt_or_eq
      exact Prod.lex_def.mpr (ink.imp_right fun same => ⟨same, turn.length_lt⟩)
    | inner asks =>
      have less := asks.inkCount_lt
      rw [← totalInk_lines] at less
      exact .left _ _ less
  exact Subrelation.wf descends (InvImage.wf size (wellFounded_lt.prod_lex wellFounded_lt))

end Ink

/-! ### Nesting -/

mutual

def Block.depth : Block → Nat
  | .list _ _ _ items => itemsDepth items + 1
  | .quote blocks => depth blocks
  | .footnoteDef _ blocks => depth blocks + 1
  | _ => 0

def depth : List Block → Nat
  | [] => 0
  | block :: blocks => max block.depth (depth blocks)

def itemsDepth : List (Item Block) → Nat
  | [] => 0
  | item :: items => max (depth item.blocks) (itemsDepth items)

end

theorem depth_eq_zero {blocks : List Block} (flat : ∀ block ∈ blocks, block.depth = 0) :
    depth blocks = 0 := by
  induction blocks with
  | nil => rw [depth]
  | cons block blocks ih =>
    rw [List.forall_mem_cons] at flat
    rw [depth, flat.1, ih flat.2, Nat.max_self]

theorem leaf_depth {fence l : Text} {ctx : Context} {ls : List Text} {block : Block} {more : Nat}
    (step : blockAt fence ctx l ls = .leaf block more) : block.depth = 0 := by
  cases stepAt step with
  | quote =>
    rw [Block.depth]
    apply depth_eq_zero
    intro inner member
    obtain ⟨group, _, rfl⟩ := List.mem_map.mp member
    simp [paragraph, Block.depth]
  | _ => simp [Block.depth, headingBlock, paragraph]

theorem itemsDepth_le {raws : List RawItem} {items : List (Item Block)}
    (read : ItemsRead (fun _ ls blocks => depth blocks ≤ totalInk ls) raws items) :
    itemsDepth items ≤ itemsInk raws := by
  induction read with
  | nil =>
    rw [itemsDepth]
    exact Nat.zero_le _
  | @cons raw item raws items one _ ih =>
    have first : depth item.blocks ≤ totalInk (lines (unlines raw.body)) := one.2
    rw [totalInk_lines, inkCount_unlines] at first
    rw [itemsDepth, itemsInk_cons]
    omega

/-- Each list and each footnote has ink of its own, its marker, around those that it holds. -/
theorem depth_le {fence : Text} {ctx : Context} {n : Nat} {ls : List Text} {blocks : List Block}
    (read : readBlocks fence ctx n ls = .ok blocks) : depth blocks ≤ totalInk ls := by
  refine readBlocks_induction (motive := fun _ ls blocks => depth blocks ≤ totalInk ls)
    ?nil ?blank ?leaf ?list ?footnote read
  case nil =>
    intro ctx
    rw [depth]
    exact Nat.zero_le _
  case blank =>
    intro ctx l ls blocks _ ih
    exact ih.trans (Nat.le_add_left _ _)
  case leaf =>
    intro ctx l ls block more blocks _ step ih
    have behind := totalInk_drop_le more ls
    rw [depth, leaf_depth step, totalInk_cons]
    omega
  case list =>
    intro ctx l ls ordered start run items blocks _ step inner ih
    have shrinks := blockAt_shrinks fence ctx l ls
    rw [step, Step.Shrinks, Step.innerInk] at shrinks
    have items := itemsDepth_le inner
    have behind := totalInk_drop_le (run.taken - 1) ls
    rw [totalInk_cons] at shrinks ⊢
    rw [depth, Block.depth]
    omega
  case footnote =>
    intro ctx l ls label body more inner blocks _ step ih ih'
    have shrinks := blockAt_shrinks fence ctx l ls
    rw [step, Step.Shrinks, Step.innerInk] at shrinks
    have behind := totalInk_drop_le more ls
    rw [totalInk_lines, inkCount_unlines] at ih
    rw [totalInk_cons] at shrinks ⊢
    rw [depth, Block.depth]
    omega

/-- Every block takes some of the lines that are left, every text that is read inside another has
less ink, so reading ends, and no text nests deeper than it has ink. -/
theorem reading_bounded (fence : Text) :
    (∀ ctx l ls, (blockAt fence ctx l ls).Advances (l :: ls)) ∧
    (∀ ctx t inner, Calls fence ctx t inner → inner.inkCount < t.inkCount) ∧
    (WellFounded fun after before => GoesOn fence before after) ∧
    ∀ ctx n t blocks, readBlocks fence ctx n (lines t) = .ok blocks →
      depth blocks ≤ t.inkCount := by
  refine ⟨blockAt_advances fence, fun ctx t inner calls => calls.inkCount_lt,
    goesOn_wellFounded fence, fun ctx n t blocks read => ?_⟩
  have bound := depth_le read
  rwa [totalInk_lines] at bound

theorem reading_bounded_headings :
    (Calls Options.default.fence .document "- * # a\n\n    # b".toList "* # a\n\n  # b".toList ∧
      Text.inkCount "* # a\n\n  # b".toList < Text.inkCount "- * # a\n\n    # b".toList) ∧
    readDocument Options.default.fence "- * # a\n\n    # b".toList =
      .ok (nestLists 2 headingsBlocks) ∧
    depth (nestLists 2 headingsBlocks) ≤ Text.inkCount "- * # a\n\n    # b".toList := by
  have bounded := reading_bounded Options.default.fence
  have cut : lines "- * # a\n\n    # b".toList =
      ["- * # a".toList, [], "    # b".toList] := by decide
  have run : listRun false 0 ["- * # a".toList, [], "    # b".toList] =
      ⟨[⟨0, .plain, ["* # a".toList, [], "  # b".toList]⟩], true, 3⟩ := by cbv
  have inked : Text.startsWith (fun c => !isSpace c) "* # a".toList := by decide
  have step := blockAt_bullet (.inl rfl) .document [[], "    # b".toList] inked (by decide)
  have calls : Calls Options.default.fence .document "- * # a\n\n    # b".toList
      "* # a\n\n  # b".toList := by
    refine ⟨_, .refl, ?_⟩
    rw [cut]
    refine .mk (by decide) ?_
    rw [show "- * # a".toList = '-' :: ' ' :: "* # a".toList by decide, step]
    rw [show '-' :: ' ' :: "* # a".toList = "- * # a".toList by decide, run]
    decide
  exact ⟨⟨calls, bounded.2.1 _ _ _ calls⟩, read_nested_headings,
    bounded.2.2.2 _ _ _ _ read_nested_headings⟩

end CommentMarkup
