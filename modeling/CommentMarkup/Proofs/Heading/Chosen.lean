import CommentMarkup.Proofs.Heading.Anchors

/-!
# Choice of anchors

A heading gets the slug of its visible text for an anchor, with the least number that makes it new
if an earlier heading has it. The index finds exactly these anchors, each under itself:
`assign_chosen`.
-/

namespace CommentMarkup

/-- What a heading with this base gets for an anchor when those in `used` are taken. -/
inductive Chosen (used : List Text) (base : Text) : Text → Prop
  | base (free : base ∉ used) : Chosen used base base
  | numbered (taken : base ∈ used) {k : Nat} (counted : 1 ≤ k)
      (free : base ++ '-' :: Text.ofNat k ∉ used)
      (least : ∀ j, 1 ≤ j → j < k → base ++ '-' :: Text.ofNat j ∈ used) :
      Chosen used base (base ++ '-' :: Text.ofNat k)

theorem Chosen.congr {used used' : List Text} (same : ∀ a, a ∈ used ↔ a ∈ used') {base a : Text}
    (chosen : Chosen used base a) : Chosen used' base a := by
  cases chosen with
  | base free => exact .base fun taken => free ((same _).mpr taken)
  | numbered taken counted free least =>
    exact .numbered ((same _).mp taken) counted (fun late => free ((same _).mpr late))
      fun j positive less => (same _).mp (least j positive less)

theorem freeAnchor_chosen (used : List Text) (base : Text) :
    Chosen used base (freeAnchor used base) := by
  obtain ⟨k, eq, least⟩ := freeAnchor_least used base
  have free := freeAnchor_free used base
  rw [eq] at free ⊢
  cases k with
  | zero => exact .base free
  | succ k =>
    refine .numbered (least 0 (Nat.succ_pos k)) (Nat.succ_pos k) free fun j counted less => ?_
    obtain ⟨i, rfl⟩ := Nat.exists_eq_add_of_le' counted
    exact least (i + 1) less

/-! ### The index -/

theorem HeadingIndex.used_append (index more : HeadingIndex) :
    HeadingIndex.used (index ++ more) = index.used ++ more.used := List.map_append

/-- A slug is found if it is an anchor in use, and then under itself. -/
def HeadingIndex.IsExact (index : HeadingIndex) : Prop :=
  ∀ slug a, index.lookup slug = some a ↔ a = slug ∧ a ∈ index.used

theorem HeadingIndex.IsExact.insert {index : HeadingIndex} (known : index.IsExact)
    {base a : Text} (chosen : Chosen index.used base a) :
    HeadingIndex.IsExact (index ++ [(base, a), (a, a)]) := by
  intro slug b
  rw [List.lookup_append, HeadingIndex.used_append, List.mem_append]
  cases present : index.lookup slug with
  | some c =>
    obtain ⟨rfl, listed⟩ := (known slug c).mp present
    constructor
    · rintro ⟨⟩
      exact ⟨rfl, .inl listed⟩
    · rintro ⟨rfl, _⟩
      rfl
  | none =>
    have unused : slug ∉ index.used := by
      intro listed
      rw [(known slug slug).mpr ⟨rfl, listed⟩] at present
      cases present
    -- a base that is not in use is the anchor itself
    have own : slug = base → slug = a := by
      rintro rfl
      cases chosen with
      | base => rfl
      | numbered taken => exact absurd taken unused
    have added : List.lookup slug [(base, a), (a, a)] = if slug = a then some a else none := by
      by_cases first : slug = base
      · rw [if_pos (own first), first, List.lookup_cons_self]
      · rw [List.lookup_cons, beq_false_of_ne first, List.lookup_cons, List.lookup_nil]
        by_cases second : slug = a
        · rw [if_pos second, second, BEq.rfl]
        · rw [if_neg second, beq_false_of_ne second]
    rw [Option.none_or, added, Option.ite_none_right_eq_some, Option.some.injEq]
    constructor
    · rintro ⟨rfl, rfl⟩
      exact ⟨rfl, .inr List.mem_cons_self⟩
    · rintro ⟨rfl, old | new⟩
      · exact absurd old unused
      · have same : b = a := by simpa [HeadingIndex.used] using new
        exact ⟨same, same.symm⟩

/-! ### Assigned anchors -/

def Block.headed? : Block → Option (Prose × Text)
  | .heading _ content anchor => some (content, anchor)
  | _ => none

def headings (blocks : List Block) : List (Prose × Text) := blocks.filterMap Block.headed?

theorem headings_append (a b : List Block) : headings (a ++ b) = headings a ++ headings b :=
  List.filterMap_append

theorem anchors_eq_headings (blocks : List Block) :
    anchors blocks = (headings blocks).map Prod.snd := by
  rw [headings, List.map_filterMap, anchors]
  congr 1
  funext block
  cases block <;> rfl

/-- The walk keeps the headings, chooses an anchor for each of them by those before it, and keeps
the index exact. -/
structure Chooses (index : HeadingIndex) (before blocks : List Block) (after : HeadingIndex) :
    Prop extends Assigns index before blocks after where
  contents : (headings blocks).map Prod.fst = (headings before).map Prod.fst
  chosen : ∀ i content a, (headings blocks)[i]? = some (content, a) →
    Chosen (index.used ++ ((headings blocks).take i).map Prod.snd) (anchorBase content.source) a
  exact : index.IsExact → after.IsExact

namespace Chooses

theorem quiet (index : HeadingIndex) {before blocks : List Block} (none : headings blocks = [])
    (none' : headings before = []) : Chooses index before blocks index where
  toAssigns := .quiet index before (by rw [anchors_eq_headings, none, List.map_nil])
  contents := by rw [none, none']
  chosen i content a here := by simp [none] at here
  exact known := known

theorem compose {first second third : HeadingIndex} {a a' b b' : List Block}
    (left : Chooses first a a' second) (right : Chooses second b b' third) :
    Chooses first (a ++ b) (a' ++ b') third where
  toAssigns := left.toAssigns.compose right.toAssigns
  contents := by
    rw [headings_append, headings_append, List.map_append, List.map_append, left.contents,
      right.contents]
  chosen i content anchor here := by
    rw [headings_append] at here ⊢
    rw [List.take_append, List.map_append]
    rcases Nat.lt_or_ge i (headings a').length with early | late
    · rw [List.getElem?_append_left early] at here
      rw [Nat.sub_eq_zero_of_le early.le, List.take_zero, List.map_nil, List.append_nil]
      exact left.chosen i content anchor here
    · rw [List.getElem?_append_right late] at here
      refine (right.chosen _ content anchor here).congr fun x => ?_
      rw [List.take_of_length_le late, List.mem_append, left.used, anchors_eq_headings,
        List.mem_append, List.mem_append, or_assoc]
  exact known := right.exact (left.exact known)

theorem heading (index : HeadingIndex) (level : Nat) (content : Prose) (anchor : Text) :
    Chooses index [.heading level content anchor]
      [(HeadingIndex.assignStep index (.heading level content anchor)).1]
      (HeadingIndex.assignStep index (.heading level content anchor)).2 where
  toAssigns := .heading index level content anchor
  contents := rfl
  chosen i content' a here := by
    obtain ⟨rfl, rfl, rfl⟩ : i = 0 ∧ content' = content ∧ a = freeAnchor index.used
        (anchorBase content.source) := by
      cases i with
      | zero => cases here; exact ⟨rfl, rfl, rfl⟩
      | succ i => cases here
    simpa using freeAnchor_chosen index.used (anchorBase content'.source)
  exact known := known.insert (freeAnchor_chosen index.used (anchorBase content.source))

end Chooses

theorem assign_chooses : Walks HeadingIndex.assignStep Chooses where
  idle s := .quiet s rfl rfl
  compose left right := left.compose right
  leaf s block leaf := by
    cases block with
    | heading level content anchor => exact ⟨rfl, .heading s level content anchor⟩
    | list | quote => cases leaf
    | _ => exact ⟨rfl, .quiet s rfl rfl⟩
  list s ordered start tight items items' := .quiet s rfl rfl
  quote s blocks blocks' := .quiet s rfl rfl

/-- A label finds the anchor that is its slug, if there is one. -/
theorem assign_anchor_iff (blocks : List Block) (label a : Text) :
    (HeadingIndex.assign blocks).2.anchor? label = some a ↔
      a = slugify label ∧ a ∈ anchors (flow (HeadingIndex.assign blocks).1) := by
  have chooses := assign_chooses.blocks [] blocks
  have exact : (HeadingIndex.assign blocks).2.IsExact := by
    refine chooses.exact fun slug a => ?_
    simp [HeadingIndex.used]
  have used : a ∈ (HeadingIndex.assign blocks).2.used ↔
      a ∈ anchors (flow (HeadingIndex.assign blocks).1) :=
    (chooses.used a).trans (or_iff_right List.not_mem_nil)
  rw [HeadingIndex.anchor?, exact, used]

/-- Assigning keeps the headings and gives them distinct anchors, none of them empty. Each anchor is
chosen by those of the headings before it, and a label finds the anchor that is its slug, if there
is one. -/
theorem assign_chosen (blocks : List Block) :
    let assigned := flow (HeadingIndex.assign blocks).1
    (anchors assigned).Nodup ∧ [] ∉ anchors assigned ∧
    (headings assigned).map Prod.fst = (headings (flow blocks)).map Prod.fst ∧
    (∀ i content a, (headings assigned)[i]? = some (content, a) →
      Chosen (((headings assigned).take i).map Prod.snd) (anchorBase content.source) a) ∧
    ∀ label a, (HeadingIndex.assign blocks).2.anchor? label = some a ↔
      a = slugify label ∧ a ∈ anchors assigned := by
  have chooses := assign_chooses.blocks [] blocks
  exact ⟨chooses.distinct, chooses.filled, chooses.contents, chooses.chosen,
    assign_anchor_iff blocks⟩

-- a numbered anchor can be the base of a later heading
example :
    let heading (source : String) : Block := .heading 1 (.unread source.toList) []
    let blocks := [heading "Intro", .quote [heading "Intro", heading "Intro 1"], heading "Intro",
      heading "!?"]
    anchors (flow (HeadingIndex.assign blocks).1) = ["intro".toList, "intro-1".toList,
      "intro-1-1".toList, "intro-2".toList, "heading".toList] := by
  cbv

end CommentMarkup
