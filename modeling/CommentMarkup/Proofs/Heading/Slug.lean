import CommentMarkup.Proofs.Heading.Anchors
import CommentMarkup.Proofs.Text.Lowercase

/-!
# Characters of anchors

An anchor is made of letters, numerals and hyphens. It never holds an at sign.
-/

namespace CommentMarkup

theorem slugChar_cases {c : Char} (slug : isSlugChar c) : isAlphanumeric c ∨ c = '-' := by
  simpa [isSlugChar] using slug

theorem at_notMem_lowercase {c : Char} (slug : isSlugChar c) : '@' ∉ lowercase c := by
  intro member
  rcases slugChar_cases slug with letter | rfl
  · by_cases dotted : c = '\u0130'
    · rw [dotted] at member
      exact absurd member (by decide)
    · obtain ⟨d, small, letter', _⟩ := lowercase_alphanumeric letter dotted
      rw [small, List.mem_singleton] at member
      rw [← member] at letter'
      exact absurd letter' (by decide)
  · exact absurd member (by decide)

theorem mem_intercalate {α : Type} {a : α} {separator : List α} {parts : List (List α)}
    (member : a ∈ List.intercalate separator parts) :
    a ∈ separator ∨ ∃ part ∈ parts, a ∈ part := by
  induction parts with
  | nil => cases member
  | cons part parts ih =>
    cases parts with
    | nil =>
      rw [List.intercalate_singleton] at member
      exact .inr ⟨part, List.mem_cons_self, member⟩
    | cons next parts =>
      rw [List.intercalate_cons_cons, List.mem_append, List.mem_append] at member
      rcases member with (here | between) | later
      · exact .inr ⟨part, List.mem_cons_self, here⟩
      · exact .inl between
      · refine (ih later).imp_right ?_
        rintro ⟨other, listed, inside⟩
        exact ⟨other, List.mem_cons_of_mem _ listed, inside⟩

theorem at_notMem_slugify (t : Text) : '@' ∉ slugify t := by
  intro member
  rcases mem_intercalate member with hyphen | ⟨part, listed, inside⟩
  · exact absurd hyphen (by decide)
  · obtain ⟨word, _, rfl⟩ := List.mem_map.mp (List.mem_filter.mp listed).1
    obtain ⟨c, kept, inside⟩ := List.mem_flatMap.mp inside
    exact at_notMem_lowercase (List.mem_filter.mp kept).2 inside

theorem at_notMem_anchorBase (source : Text) : '@' ∉ anchorBase source := by
  unfold anchorBase
  dsimp only
  split
  · decide
  · exact at_notMem_slugify _

theorem at_notMem_numberedAnchor {base : Text} (plain : '@' ∉ base) (k : Nat) :
    '@' ∉ numberedAnchor base k := by
  cases k with
  | zero => exact plain
  | succ k =>
    have digits := at_notMem_of_alphanum (ofNat_alphanum (k + 1))
    simp [numberedAnchor, plain, digits]

theorem at_notMem_freeAnchor (used : List Text) {base : Text} (plain : '@' ∉ base) :
    '@' ∉ freeAnchor used base := by
  obtain ⟨k, eq, _⟩ := freeAnchor_least used base
  rw [eq]
  exact at_notMem_numberedAnchor plain k

theorem assign_plain (blocks : List Block) :
    ∀ a ∈ anchors (flow (HeadingIndex.assign blocks).1), '@' ∉ a := by
  have walks : Walks HeadingIndex.assignStep fun _ _ assigned _ =>
      ∀ a ∈ anchors assigned, '@' ∉ a := by
    refine ⟨fun _ a none => (nomatch none), ?_, ?_, fun _ _ _ _ _ _ a none => (nomatch none),
      fun _ _ _ a none => (nomatch none)⟩
    · intro _ _ _ _ _ _ _ left right a member
      rw [anchors_append] at member
      exact (List.mem_append.mp member).elim (left a) (right a)
    · intro index block leaf
      cases block with
      | heading level content anchor =>
        refine ⟨rfl, fun a member => ?_⟩
        rw [List.mem_singleton.mp member]
        exact at_notMem_freeAnchor _ (at_notMem_anchorBase content.source)
      | list | quote => cases leaf
      | _ => exact ⟨rfl, fun a none => (nomatch none)⟩
  exact walks.blocks [] blocks

/-- The anchors that labels can refer to hold no at sign either: they belong to headings. -/
theorem assign_index_plain (blocks : List Block) :
    ∀ entry ∈ (HeadingIndex.assign blocks).2, '@' ∉ entry.2 := by
  intro entry listed
  have used : entry.2 ∈ (HeadingIndex.assign blocks).2.used := List.mem_map_of_mem listed
  rcases ((assign_walks.blocks [] blocks).used entry.2).mp used with none | own
  · cases none
  · exact assign_plain blocks _ own

end CommentMarkup
