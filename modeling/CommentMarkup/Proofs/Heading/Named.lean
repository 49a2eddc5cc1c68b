import CommentMarkup.Proofs.Heading.Chosen

/-!
# Headings by their text

A reference by the text of a heading leads to the first heading that has the slug of that text, be
it as the slug of its own text or as its anchor: `anchor_first_named`.
-/

namespace CommentMarkup

def textSlug (heading : Prose × Text) : Text := slugify (visibleText heading.1.source)

/-- The heading goes by the slug, because of its text or its anchor. -/
def isNamed (slug : Text) (heading : Prose × Text) : Bool :=
  textSlug heading == slug || heading.2 == slug

theorem anchorBase_of_slug {source slug : Text} (same : slugify (visibleText source) = slug)
    (filled : slug ≠ []) : anchorBase source = slug := by
  unfold anchorBase
  dsimp only
  rw [same, if_neg (by simpa using filled)]

theorem Chosen.eq_base_iff {used : List Text} {base a : Text} (chosen : Chosen used base a) :
    a = base ↔ base ∉ used := by
  cases chosen with
  | base free => exact iff_of_true rfl free
  | @numbered taken k counted free least =>
    refine iff_of_false (fun same => ?_) fun unused => unused taken
    rw [same] at free
    exact free taken

/-- A heading with this slug gets it for an anchor unless an earlier one has it. -/
theorem assign_anchor_eq_slug_iff {blocks : List Block} {before after : List (Prose × Text)}
    {heading : Prose × Text} {slug : Text} (filled : slug ≠ []) (same : textSlug heading = slug)
    (parts : headings (flow (HeadingIndex.assign blocks).1) = before ++ heading :: after) :
    heading.2 = slug ↔ slug ∉ before.map Prod.snd := by
  have here : (headings (flow (HeadingIndex.assign blocks).1))[before.length]? = some heading := by
    rw [parts, List.getElem?_append_right (Nat.le_refl _), Nat.sub_self]
    rfl
  have chosen : Chosen (((headings (flow (HeadingIndex.assign blocks).1)).take before.length).map
      Prod.snd) (anchorBase heading.1.source) heading.2 :=
    (assign_chooses.blocks [] blocks).chosen before.length heading.1 heading.2 here
  rw [parts, List.take_left, anchorBase_of_slug same filled] at chosen
  exact chosen.eq_base_iff

theorem exists_assigned {blocks : List Block} {level : Nat} {content : Prose} {anchor : Text}
    (listed : Block.heading level content anchor ∈ flow blocks) :
    ∃ a, (content, a) ∈ headings (flow (HeadingIndex.assign blocks).1) := by
  have shown : (content, anchor) ∈ headings (flow blocks) :=
    List.mem_filterMap.mpr ⟨_, listed, rfl⟩
  have before : content ∈ (headings (flow blocks)).map Prod.fst := List.mem_map_of_mem shown
  rw [← (assign_chooses.blocks [] blocks).contents] at before
  obtain ⟨⟨content, a⟩, assigned, rfl⟩ := List.mem_map.mp before
  exact ⟨a, assigned⟩

/-- The first heading that goes by the slug of a heading's text has it for an anchor. -/
theorem find_named {blocks : List Block} {heading : Prose × Text} {slug : Text}
    (filled : slug ≠ []) (same : textSlug heading = slug)
    (listed : heading ∈ headings (flow (HeadingIndex.assign blocks).1)) :
    ((headings (flow (HeadingIndex.assign blocks).1)).find? (isNamed slug)).map Prod.snd =
      some slug := by
  cases found : (headings (flow (HeadingIndex.assign blocks).1)).find? (isNamed slug) with
  | none =>
    have unnamed := List.find?_eq_none.mp found heading listed
    rw [isNamed, same, BEq.rfl] at unnamed
    exact absurd (Bool.true_or _) unnamed
  | some first =>
    obtain ⟨named, before, after, parts, unnamed⟩ := List.find?_eq_some_iff_append.mp found
    refine congrArg some ?_
    rcases Bool.or_eq_true_iff.mp named with text | anchor
    · refine (assign_anchor_eq_slug_iff filled (beq_iff_eq.mp text) parts).mpr fun taken => ?_
      obtain ⟨earlier, member, rfl⟩ := List.mem_map.mp taken
      have other := unnamed earlier member
      rw [isNamed, BEq.rfl, Bool.or_true] at other
      cases other
    · exact beq_iff_eq.mp anchor

/-- A label with the slug of a heading's text finds this slug as an anchor. -/
theorem anchor_of_named {blocks : List Block} {heading : Prose × Text} {label : Text}
    (filled : slugify label ≠ []) (same : textSlug heading = slugify label)
    (listed : heading ∈ headings (flow (HeadingIndex.assign blocks).1)) :
    (HeadingIndex.assign blocks).2.anchor? label = some (slugify label) := by
  obtain ⟨first, found, eq⟩ := Option.map_eq_some_iff.mp (find_named filled same listed)
  rw [assign_anchor_iff, anchors_eq_headings]
  exact ⟨rfl, eq ▸ List.mem_map_of_mem (List.mem_of_find?_eq_some found)⟩

/-- A heading's text that has a slug finds this slug as an anchor: that of the first heading that
goes by it. This is the first heading with that slug of its text exactly if no heading before it has
got the slug for an anchor. -/
theorem anchor_first_named {blocks : List Block} {level : Nat} {content : Prose} {anchor : Text}
    (listed : Block.heading level content anchor ∈ flow blocks)
    (filled : slugify (visibleText content.source) ≠ []) :
    let slug := slugify (visibleText content.source)
    let assigned := headings (flow (HeadingIndex.assign blocks).1)
    (HeadingIndex.assign blocks).2.anchor? (visibleText content.source) = some slug ∧
    (assigned.find? (isNamed slug)).map Prod.snd = some slug ∧
    ∃ before first after, assigned = before ++ first :: after ∧ textSlug first = slug ∧
      (∀ earlier ∈ before, textSlug earlier ≠ slug) ∧
      (first.2 = slug ↔ slug ∉ before.map Prod.snd) := by
  intro slug assigned
  obtain ⟨a, member⟩ := exists_assigned listed
  refine ⟨anchor_of_named filled rfl member, find_named filled rfl member, ?_⟩
  cases found : assigned.find? fun heading => textSlug heading == slug with
  | none =>
    have other := List.find?_eq_none.mp found _ member
    exact absurd (beq_self_eq_true slug) other
  | some first =>
    obtain ⟨same, before, after, parts, others⟩ := List.find?_eq_some_iff_append.mp found
    have same := beq_iff_eq.mp same
    refine ⟨before, first, after, parts, same, fun earlier early => ?_,
      assign_anchor_eq_slug_iff filled same parts⟩
    simpa using others earlier early

def numberedHeadings : List Block :=
  ["Intro", "Intro", "Intro 1", "intro 1!"].map fun source =>
    .heading 1 (.unread source.toList) []

theorem headings_numberedHeadings : headings (flow (HeadingIndex.assign numberedHeadings).1) =
    [(.unread "Intro".toList, "intro".toList), (.unread "Intro".toList, "intro-1".toList),
      (.unread "Intro 1".toList, "intro-1-1".toList),
      (.unread "intro 1!".toList, "intro-1-2".toList)] := by
  cbv

theorem anchor_first_named_numbered :
    Block.heading 1 (.unread "Intro 1".toList) [] ∈ flow numberedHeadings ∧
    slugify (visibleText "Intro 1".toList) = "intro-1".toList ∧
    (HeadingIndex.assign numberedHeadings).2.anchor? (visibleText "Intro 1".toList) =
      some (slugify (visibleText "Intro 1".toList)) := by
  have listed : Block.heading 1 (.unread "Intro 1".toList) [] ∈ flow numberedHeadings :=
    List.mem_cons_of_mem _ (List.mem_cons_of_mem _ List.mem_cons_self)
  have slug : slugify (visibleText "Intro 1".toList) = "intro-1".toList := by cbv
  refine ⟨listed, slug, (anchor_first_named listed ?_).1⟩
  rw [show (Prose.unread "Intro 1".toList).source = "Intro 1".toList from rfl, slug]
  decide

/-- The first heading with the text is not the one that the text leads to. -/
theorem anchor_numbered_before :
    let assigned := headings (flow (HeadingIndex.assign numberedHeadings).1)
    (assigned.find? fun heading => textSlug heading == "intro-1".toList) =
      some (.unread "Intro 1".toList, "intro-1-1".toList) ∧
    slugify (visibleText "Intro 1".toList) = "intro-1".toList ∧
    (HeadingIndex.assign numberedHeadings).2.anchor? (visibleText "Intro 1".toList) =
      some "intro-1".toList := by
  refine ⟨?_, by cbv, by cbv⟩
  rw [headings_numberedHeadings]
  cbv

end CommentMarkup
