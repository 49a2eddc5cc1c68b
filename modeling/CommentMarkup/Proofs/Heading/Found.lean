import CommentMarkup.Proofs.Block.Shape
import CommentMarkup.Proofs.Footnote.Bodies
import CommentMarkup.Proofs.Heading.Legible
import CommentMarkup.Proofs.Heading.Named
import CommentMarkup.Proofs.Heading.Resolved
import CommentMarkup.Proofs.Tree.Nested

/-!
# Headings by their entry

The text of a heading in the outline leads to a heading exactly if its slug is an anchor. It does so
for every legible heading, whose text there has the slug that its anchor is made of: `entry_found`.
-/

namespace CommentMarkup

/-! ### Headings of a document -/

def HeadingsRead (scope : Scope) (unread read : List Block) : Prop :=
  ∀ level content anchor, .heading level content anchor ∈ read →
    (∃ spans, .heading level ⟨content.source, spans⟩ anchor ∈ unread) ∧
      ∃ notes, content.spans = (readInline scope content.source notes).1

theorem resolveStep_headings (scope : Scope) :
    Walks (resolveStep scope) fun _ unread read _ => HeadingsRead scope unread read where
  idle _ := nofun
  compose left right level content anchor member := by
    rcases List.mem_append.mp member with early | late
    · refine (left level content anchor early).imp_left ?_
      rintro ⟨spans, listed⟩
      exact ⟨spans, List.mem_append_left _ listed⟩
    · refine (right level content anchor late).imp_left ?_
      rintro ⟨spans, listed⟩
      exact ⟨spans, List.mem_append_right _ listed⟩
  leaf notes block leaf := by
    cases block with
    | heading level content anchor =>
      refine ⟨rfl, fun level' content' anchor' member => ?_⟩
      cases List.mem_singleton.mp member
      exact ⟨⟨content.spans, List.mem_cons_self⟩, notes, rfl⟩
    | list | quote => cases leaf
    | _ => exact ⟨rfl, fun _ _ _ member => nomatch List.mem_singleton.mp member⟩
  list _ _ _ _ _ _ _ _ _ member := nomatch List.mem_singleton.mp member
  quote _ _ _ _ _ _ member := nomatch List.mem_singleton.mp member

/-- A heading of a document comes from one that was read, on one line, and its spans are read from
the source. -/
theorem heading_read {options : Options} {text : Text} {blocks : List Block} {document : Document}
    (read : readDocument options.fence text = .ok blocks)
    (resolved : resolve options blocks = .ok document) {level : Nat} {content : Prose}
    {anchor : Text} (listed : .heading level content anchor ∈ flow document.blocks) :
    '\n' ∉ content.source ∧
    (∃ spans, (⟨content.source, spans⟩, anchor) ∈ headings (flow (HeadingIndex.assign blocks).1)) ∧
    ∃ notes, content.spans = (readInline (.ofBlocks options blocks) content.source notes).1 := by
  obtain ⟨notes, _, flowing, _⟩ := resolve_bodies resolved
  have walked := (resolveStep_headings (.ofBlocks options blocks)).blocks
    (.start (References.collect blocks).2) (HeadingIndex.assign blocks).1
  rw [resolveBlocks] at flowing
  rw [flowing] at walked
  obtain ⟨⟨spans, unread⟩, here⟩ := walked level content anchor listed
  have assigned : (⟨content.source, spans⟩, anchor) ∈
      headings (flow (HeadingIndex.assign blocks).1) := List.mem_filterMap.mpr ⟨_, unread, rfl⟩
  refine ⟨?_, ⟨spans, assigned⟩, here⟩
  have before : (⟨content.source, spans⟩ : Prose) ∈ (headings (flow blocks)).map Prod.fst := by
    rw [← (assign_chooses.blocks [] blocks).contents]
    exact List.mem_map_of_mem assigned
  obtain ⟨⟨_, unassigned⟩, member, rfl⟩ := List.mem_map.mp before
  obtain ⟨block, flows, eq⟩ := List.mem_filterMap.mp member
  have whole := lines_whole text
  have shaped := (readBlocks_fit whole read block (flow_subset_nested blocks flows)).shaped
  cases block with
  | heading =>
    cases eq
    exact shaped.2.2.1
  | _ => cases eq

/-- Resolution keeps the anchors that were assigned, and the outline lists them. -/
theorem resolve_entries {options : Options} {blocks : List Block} {document : Document}
    (resolved : resolve options blocks = .ok document) :
    document.entries = entries document.blocks ∧
      document.entries.map Entry.anchor = anchors (flow (HeadingIndex.assign blocks).1) := by
  obtain ⟨notes, _, flowing, _, listed, _⟩ := resolve_bodies resolved
  have kept := ((resolveStep_walks (.ofBlocks options blocks)).blocks
    (.start (References.collect blocks).2) (HeadingIndex.assign blocks).1).kept
  rw [resolveBlocks] at flowing
  rw [flowing] at kept
  refine ⟨listed, ?_⟩
  rw [listed, entries_anchors]
  exact kept

/-! ### Entries -/

/-- The text of an entry whose heading has no brackets leads to a heading exactly if the slug of what
a reader sees of the source is an anchor. If the source is legible, this is the slug that the
heading's anchor is made of, so that it is an anchor unless it is empty. Escapes and emphasis are
legible. -/
theorem entry_found {options : Options} {text : Text} {blocks : List Block} {document : Document}
    (read : readDocument options.fence text = .ok blocks)
    (resolved : resolve options blocks = .ok document) {level : Nat} {content : Prose}
    {anchor : Text} (listed : .heading level content anchor ∈ flow document.blocks)
    (unbracketed : '[' ∉ content.source) :
    let entry : Entry := ⟨level, anchor, Text.trim (plainText content.spans)⟩
    let index := (HeadingIndex.assign blocks).2
    entry ∈ document.entries ∧
    slugify entry.text = slugify (readerText content.source) ∧
    ((∃ a, index.anchor? entry.text = some a) ↔
      slugify (readerText content.source) ∈ document.entries.map Entry.anchor) ∧
    (isLegible content.source → slugify entry.text = slugify (visibleText content.source) ∧
      (slugify entry.text ≠ [] → index.anchor? entry.text = some (slugify entry.text))) ∧
    ((∀ c ∈ content.source, c ∉ ['&', '<', tick]) → isLegible content.source) := by
  intro entry index
  obtain ⟨whole, ⟨spans, assigned⟩, notes, shown⟩ := heading_read read resolved listed
  obtain ⟨outline, kept⟩ := resolve_entries resolved
  have same : slugify entry.text = slugify (readerText content.source) := by
    rw [slugify_trim, shown]
    exact slugify_eq_of_gist (gist_readInline _ unbracketed whole notes)
  refine ⟨?_, same, ?_, fun legible => ?_, fun unmarked => isLegible_of_unmarked unmarked whole⟩
  · rw [outline]
    exact List.mem_filterMap.mpr ⟨_, listed, rfl⟩
  · simp only [index, assign_anchor_iff, same, kept, exists_eq_left]
  · have own : slugify entry.text = slugify (visibleText content.source) :=
      same.trans (slugify_visibleText legible unbracketed).symm
    have named : textSlug (⟨content.source, spans⟩, anchor) = slugify entry.text := own.symm
    exact ⟨own, fun filled => anchor_of_named filled named assigned⟩

def legibleSource : Text := "*A* `b` <i>c</i> \\<d <ee:f>".toList

def legibleSpans : List Inline :=
  [.emphasis [.text ['A']], .text [' '], .code ['b'], .text [' '], .rawHtml "<i>".toList,
    .text ['c'], .rawHtml "</i>".toList, .text " <d ".toList, .autolink "ee:f".toList false]

def legibleDocument : Document :=
  ⟨[.heading 1 ⟨legibleSource, legibleSpans⟩ "a-b-c-d-eef".toList], [],
    [⟨1, "a-b-c-d-eef".toList, "A b c <d ee:f".toList⟩], []⟩

theorem entry_found_marked :
    readDocument Options.default.fence ("# ".toList ++ legibleSource) =
      .ok [headingBlock 1 legibleSource] ∧
    resolve Options.default [headingBlock 1 legibleSource] = .ok legibleDocument ∧
    .heading 1 ⟨legibleSource, legibleSpans⟩ "a-b-c-d-eef".toList ∈ flow legibleDocument.blocks ∧
    '[' ∉ legibleSource ∧ isLegible legibleSource ∧
    (HeadingIndex.assign [headingBlock 1 legibleSource]).2.anchor? "A b c <d ee:f".toList =
      some "a-b-c-d-eef".toList := by
  have heading : blockAt Options.default.fence .document ("# ".toList ++ legibleSource) [] =
      .leaf (headingBlock 1 legibleSource) 0 := by
    apply blockAt_heading <;> decide +kernel
  have read := readDocument_single (by decide) (by decide) heading
  have resolved : resolve Options.default [headingBlock 1 legibleSource] = .ok legibleDocument := by
    cbv
  have listed : .heading 1 ⟨legibleSource, legibleSpans⟩ "a-b-c-d-eef".toList ∈
      flow legibleDocument.blocks := List.mem_cons_self
  have legible : isLegible legibleSource := by cbv
  have shown : Text.trim (plainText legibleSpans) = "A b c <d ee:f".toList := by cbv
  have slug : slugify "A b c <d ee:f".toList = "a-b-c-d-eef".toList := by cbv
  have found := ((entry_found read resolved listed (by decide)).2.2.2.1 legible).2
  rw [shown, slug] at found
  exact ⟨read, resolved, listed, by decide, legible, found (by decide)⟩

/-- Inside code, the visible text of a heading loses what looks like a tag, which a reader sees. -/
theorem entry_lost :
    readDocument Options.default.fence "# Use `Vec<T>`".toList =
      .ok [headingBlock 1 "Use `Vec<T>`".toList] ∧
    resolve Options.default [headingBlock 1 "Use `Vec<T>`".toList] =
      .ok ⟨[.heading 1 ⟨"Use `Vec<T>`".toList, [.text "Use ".toList, .code "Vec<T>".toList]⟩
          "use-vec".toList], [], [⟨1, "use-vec".toList, "Use Vec<T>".toList⟩], []⟩ ∧
    '[' ∉ "Use `Vec<T>`".toList ∧ slugify "Use Vec<T>".toList = "use-vect".toList ∧
    (HeadingIndex.assign [headingBlock 1 "Use `Vec<T>`".toList]).2.anchor? "Use Vec<T>".toList =
      none := by
  have heading : blockAt Options.default.fence .document "# Use `Vec<T>`".toList [] =
      .leaf (headingBlock 1 "Use `Vec<T>`".toList) 0 := by
    apply blockAt_heading <;> decide +kernel
  exact ⟨readDocument_single (by decide) (by decide) heading, by cbv, by decide, by cbv, by cbv⟩

end CommentMarkup
