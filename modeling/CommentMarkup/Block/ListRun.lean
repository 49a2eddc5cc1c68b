import CommentMarkup.Block.Leaf

/-!
# Items of a list

`listRun` groups lines into the items of one list, before any of them is read as blocks.
`itemsInk_listRun` says that the items of a list lack at least one character of ink each.
-/

namespace CommentMarkup

/-- An item of a list, still in lines. -/
structure RawItem where
  /-- The number of lines of the list before the item. -/
  offset : Nat
  bullet : Bullet
  /-- The item's lines, taken back to the column of its content. -/
  body : List Text
  deriving DecidableEq, Repr

/-- The items of a list and the number of lines that it takes. -/
structure ListRun where
  items : List RawItem
  tight : Bool
  taken : Nat
  deriving DecidableEq, Repr

/-- The first line with content is indented deeper than `indent`. -/
def resumesAfter (indent : Nat) (ls : List Text) : Bool :=
  (ls.find? fun l => !l.isBlank).any fun l => indent < indentColumns l

/-- The lines that continue an item whose marker is indented by `indent`, taken back to column
`content`. An empty line ends the item unless deeper content follows; a line of white space alone
stays in it. -/
def itemLines (indent content : Nat) : List Text → List Text
  | [] => []
  | l :: ls =>
    if l.isEmpty then if resumesAfter indent ls then [] :: itemLines indent content ls else []
    else if l.isBlank then [' '] :: itemLines indent content ls
    else if indentColumns l ≤ indent then []
    else removeIndent content l :: itemLines indent content ls

def startsItem (ordered : Bool) (ls : List Text) : Bool :=
  (ls.head?.bind listMarker?).any fun m => m.ordered == ordered

def ListRun.cons (item : RawItem) (taken : Nat) (run : ListRun) : ListRun :=
  ⟨item :: run.items, run.tight, taken + run.taken⟩

def ListRun.loose (run : ListRun) : ListRun := { run with tight := false }

/-- The items that the lines start with, all ordered or all not. Empty lines between two items make
the list loose; empty lines before anything else end it. -/
def listRun (ordered : Bool) (offset : Nat) (ls : List Text) : ListRun :=
  match ls with
  | [] => ⟨[], true, 0⟩
  | l :: rest =>
    match listMarker? l with
    | none => ⟨[], true, 0⟩
    | some m =>
      if m.ordered != ordered then ⟨[], true, 0⟩
      else
        let (bullet, first) := splitTask m.content
        let body := itemLines m.indent m.contentColumn rest
        let item : RawItem := ⟨offset, bullet, first :: body⟩
        let after := rest.drop body.length
        let gap := (after.takeWhile Text.isBlank).length
        if gap = 0 then
          (listRun ordered (offset + (body.length + 1)) after).cons item (body.length + 1)
        else if startsItem ordered (after.drop gap) then
          ((listRun ordered (offset + (body.length + 1 + gap)) (after.drop gap)).cons item
            (body.length + 1 + gap)).loose
        else ⟨[item], true, body.length + 1⟩
termination_by ls.length
decreasing_by all_goals simp only [List.length_cons, List.length_drop]; omega

theorem listRun_items_ne_nil {l : Text} {m : ListMarker} (hm : listMarker? l = some m)
    (offset : Nat) (ls : List Text) : (listRun m.ordered offset (l :: ls)).items ≠ [] := by
  unfold listRun
  simp only [hm, bne_self_eq_false, Bool.false_eq_true, if_false]
  split
  · exact List.cons_ne_nil _ _
  · split
    · exact List.cons_ne_nil _ _
    · exact List.cons_ne_nil _ _

/-! ### Ink -/

def itemsInk (items : List RawItem) : Nat := sumOver (fun item => totalInk item.body) items

@[simp] theorem itemsInk_nil : itemsInk [] = 0 := rfl

@[simp] theorem itemsInk_cons (item : RawItem) (items : List RawItem) :
    itemsInk (item :: items) = totalInk item.body + itemsInk items := rfl

theorem totalInk_itemLines (indent content : Nat) (ls : List Text) :
    totalInk (itemLines indent content ls) + totalInk (ls.drop (itemLines indent content ls).length)
      = totalInk ls := by
  induction ls with
  | nil => rfl
  | cons l ls ih =>
    unfold itemLines
    split
    · next h =>
      have : l = [] := by simpa using h
      subst this
      split
      · simpa using ih
      · simp
    · split
      · next h =>
        simp only [totalInk_cons, List.length_cons, List.drop_succ_cons,
          Text.isBlank_iff_inkCount.mp h]
        rw [show Text.inkCount [' '] = 0 by decide]
        omega
      · split
        · simp
        · simp only [totalInk_cons, List.length_cons, List.drop_succ_cons, inkCount_removeIndent]
          omega

/-- The items of a list lack at least a marker each. -/
theorem itemsInk_listRun (ordered : Bool) (offset : Nat) (ls : List Text) :
    itemsInk (listRun ordered offset ls).items + (listRun ordered offset ls).items.length
      ≤ totalInk ls := by
  fun_induction listRun ordered offset ls with
  | case1 | case2 | case3 => simp
  | case4 offset l rest m hm _ bullet first htask body item after gap hgap ih =>
    have h1 := ListMarker.inkCount_content_lt hm
    have h2 := inkCount_splitTask_le m.content
    have h3 := totalInk_itemLines m.indent m.contentColumn rest
    rw [htask] at h2
    simp only [ListRun.cons, itemsInk_cons, totalInk_cons, List.length_cons, item, body, after]
      at h2 h3 ih ⊢
    omega
  | case5 offset l rest m hm _ bullet first htask body item after gap hgap hnext ih =>
    have h1 := ListMarker.inkCount_content_lt hm
    have h2 := inkCount_splitTask_le m.content
    have h3 := totalInk_itemLines m.indent m.contentColumn rest
    have h4 := totalInk_drop_le gap after
    rw [htask] at h2
    simp only [ListRun.loose, ListRun.cons, itemsInk_cons, totalInk_cons, List.length_cons, item,
      body, after] at h2 h3 h4 ih ⊢
    omega
  | case6 offset l rest m hm _ bullet first htask body item after gap hgap hnext =>
    have h1 := ListMarker.inkCount_content_lt hm
    have h2 := inkCount_splitTask_le m.content
    have h3 := totalInk_itemLines m.indent m.contentColumn rest
    rw [htask] at h2
    simp only [itemsInk_cons, itemsInk_nil, totalInk_cons, List.length_cons, List.length_nil, item,
      body] at h2 h3 ⊢
    omega

end CommentMarkup
