import CommentMarkup.Proofs.Heading.Chosen
import CommentMarkup.Proofs.Heading.Slug
import CommentMarkup.Proofs.Text.Cut

/-!
# Slugs of slugs

A slug holds letters, numerals and hyphens, and it is its own slug, so that every anchor is found
under itself. This fails just for texts with a capital I with a dot: in lower case its dot becomes a
combining mark, which is no letter. `slugify_normal_iff`.
-/

namespace CommentMarkup

def dottedCapital : Char := '\u0130'

/-- The mark that is left of the dot in lower case. -/
def dotAbove : Char := '\u0307'

/-- A character that slugs hold: one that they keep as it is, or a left-over dot. -/
def IsSlugged (c : Char) : Prop := isSlugChar c ∧ lowercase c = [c] ∨ c = dotAbove

theorem isSlugged_hyphen : IsSlugged '-' := .inl ⟨by decide, lowercase_below (by decide)⟩

theorem isSlugChar_dottedCapital : isSlugChar dottedCapital := by decide +kernel

theorem not_isSlugChar_dotAbove : ¬ isSlugChar dotAbove := by decide +kernel

theorem isSlugChar_of_isSlugged {c : Char} (slugged : IsSlugged c) :
    isSlugChar c ↔ c ≠ dotAbove := by
  rcases slugged with ⟨slug, _⟩ | rfl
  · refine iff_of_true slug ?_
    rintro rfl
    exact not_isSlugChar_dotAbove slug
  · exact iff_of_false not_isSlugChar_dotAbove (absurd rfl)

/-! ### Characters in lower case -/

theorem lowercase_slugChar {c : Char} (slug : isSlugChar c) (other : c ≠ dottedCapital) :
    ∃ d, lowercase c = [d] ∧ isSlugChar d ∧ lowercase d = [d] := by
  rcases slugChar_cases slug with letter | rfl
  · obtain ⟨d, small, letter', fixed⟩ := lowercase_alphanumeric letter other
    exact ⟨d, small, by rw [isSlugChar, letter', Bool.true_or], fixed⟩
  · exact ⟨'-', lowercase_below (by decide), slug, lowercase_below (by decide)⟩

theorem isSlugged_lowercase {c d : Char} (slug : isSlugChar c) (member : d ∈ lowercase c) :
    IsSlugged d := by
  by_cases dotted : c = dottedCapital
  · rw [dotted] at member
    have parts : lowercase dottedCapital = ['i', dotAbove] := by decide
    rw [parts, List.mem_cons, List.mem_singleton] at member
    exact member.imp (by rintro rfl; exact ⟨by decide, by decide +kernel⟩) id
  · obtain ⟨e, small, slug', fixed⟩ := lowercase_slugChar slug dotted
    rw [small, List.mem_singleton] at member
    exact .inl (member ▸ ⟨slug', fixed⟩)

theorem dotAbove_mem_lowercase {c : Char} (slug : isSlugChar c) :
    dotAbove ∈ lowercase c ↔ c = dottedCapital := by
  constructor
  · intro member
    by_contra other
    obtain ⟨d, small, slug', _⟩ := lowercase_slugChar slug other
    rw [small, List.mem_singleton] at member
    exact not_isSlugChar_dotAbove (member ▸ slug')
  · rintro rfl
    decide

/-! ### Characters of slugs -/

theorem mem_intercalate_of_mem {α : Type} {a : α} {separator part : List α} {parts : List (List α)}
    (listed : part ∈ parts) (member : a ∈ part) : a ∈ List.intercalate separator parts := by
  induction parts with
  | nil => cases listed
  | cons first parts ih =>
    cases parts with
    | nil =>
      rw [List.mem_singleton.mp listed] at member
      rwa [List.intercalate_singleton]
    | cons next parts =>
      rw [List.intercalate_cons_cons, List.mem_append, List.mem_append]
      rcases List.mem_cons.mp listed with rfl | later
      · exact .inl (.inl member)
      · exact .inr (ih later)

/-- A character that is no white space is in a word. -/
theorem exists_mem_words {c : Char} {t : Text} (ink : ¬ isSpace c) (member : c ∈ t) :
    ∃ w ∈ t.words, c ∈ w := by
  have piece : ∃ w ∈ cutAt isSpace t, c ∈ w := by
    induction t with
    | nil => cases member
    | cons d t ih =>
      by_cases space : isSpace d
      · have later : c ∈ t := by
          refine (List.mem_cons.mp member).resolve_left ?_
          rintro rfl
          exact ink space
        obtain ⟨w, listed, inside⟩ := ih later
        exact ⟨w, by rw [cutAt_cons_pos space]; exact List.mem_cons_of_mem _ listed, inside⟩
      · obtain ⟨first, others, eq, whole⟩ := cutAt_cons_neg space t
        rw [whole]
        rcases List.mem_cons.mp member with rfl | later
        · exact ⟨_, List.mem_cons_self, List.mem_cons_self⟩
        · obtain ⟨w, listed, inside⟩ := ih later
          rw [eq] at listed
          rcases List.mem_cons.mp listed with rfl | behind
          · exact ⟨_, List.mem_cons_self, List.mem_cons_of_mem _ inside⟩
          · exact ⟨w, List.mem_cons_of_mem _ behind, inside⟩
  obtain ⟨w, listed, inside⟩ := piece
  refine ⟨w, List.mem_filter.mpr ⟨listed, ?_⟩, inside⟩
  cases w with
  | nil => cases inside
  | cons => rfl

theorem not_isSpace_of_isSlugChar {c : Char} (slug : isSlugChar c) : ¬ isSpace c := by
  rcases slugChar_cases slug with letter | rfl
  · exact isSpace_of_isAlphanumeric letter
  · decide

/-- Apart from the hyphens between words, a slug holds the small forms of what it keeps. -/
theorem mem_slugify {d : Char} (other : d ≠ '-') (t : Text) :
    d ∈ slugify t ↔ ∃ c ∈ t, isSlugChar c ∧ d ∈ lowercase c := by
  constructor
  · intro member
    rcases mem_intercalate member with hyphen | ⟨part, listed, inside⟩
    · exact absurd (List.mem_singleton.mp hyphen) other
    · obtain ⟨word, found, rfl⟩ := List.mem_map.mp (List.mem_filter.mp listed).1
      obtain ⟨c, kept, inside⟩ := List.mem_flatMap.mp inside
      obtain ⟨part, slug⟩ := List.mem_filter.mp kept
      exact ⟨c, (of_mem_cutAt (List.mem_filter.mp found).1 part).1, slug, inside⟩
  · rintro ⟨c, member, slug, inside⟩
    obtain ⟨word, found, part⟩ := exists_mem_words (not_isSpace_of_isSlugChar slug) member
    have here : d ∈ slugWord word :=
      List.mem_flatMap.mpr ⟨c, List.mem_filter.mpr ⟨part, slug⟩, inside⟩
    refine mem_intercalate_of_mem (List.mem_filter.mpr ⟨List.mem_map_of_mem found, ?_⟩) here
    cases empty : slugWord word with
    | nil => rw [empty] at here; cases here
    | cons => rfl

theorem slugify_slugged (t : Text) : ∀ d ∈ slugify t, IsSlugged d := by
  intro d member
  by_cases hyphen : d = '-'
  · exact hyphen ▸ isSlugged_hyphen
  · obtain ⟨c, _, slug, inside⟩ := (mem_slugify hyphen t).mp member
    exact isSlugged_lowercase slug inside

theorem dotAbove_mem_slugify (t : Text) : dotAbove ∈ slugify t ↔ dottedCapital ∈ t := by
  rw [mem_slugify (by decide)]
  constructor
  · rintro ⟨c, member, slug, inside⟩
    rwa [← (dotAbove_mem_lowercase slug).mp inside]
  · intro member
    exact ⟨_, member, isSlugChar_dottedCapital,
      (dotAbove_mem_lowercase isSlugChar_dottedCapital).mpr rfl⟩

/-! ### Slugs of slugs -/

/-- What slugs hold is one word, of which the left-over dots are dropped. -/
theorem slugify_of_slugged {t : Text} (slugged : ∀ c ∈ t, IsSlugged c) :
    slugify t = t.filter isSlugChar := by
  have spaceless : ∀ c ∈ t, ¬ isSpace c := by
    intro c member
    rcases slugged c member with ⟨slug, _⟩ | rfl
    · exact not_isSpace_of_isSlugChar slug
    · decide
  have one : slugWord t = t.filter isSlugChar := by
    have fixed : ∀ c ∈ t.filter isSlugChar, lowercase c = [c] := by
      intro c kept
      obtain ⟨member, slug⟩ := List.mem_filter.mp kept
      rcases slugged c member with ⟨_, fixed⟩ | rfl
      · exact fixed
      · exact absurd slug not_isSlugChar_dotAbove
    rw [slugWord, List.flatMap_congr fixed, List.flatMap_singleton']
  rw [slugify, Text.words, cutAt_whole spaceless]
  cases t with
  | nil => rfl
  | cons c t =>
    rw [← one]
    cases word : slugWord (c :: t) <;> simp [List.filter, word, List.intercalate]

theorem slugify_eq_self_iff {t : Text} (slugged : ∀ c ∈ t, IsSlugged c) :
    slugify t = t ↔ dotAbove ∉ t := by
  rw [slugify_of_slugged slugged, List.filter_eq_self]
  constructor
  · intro slug member
    exact not_isSlugChar_dotAbove (slug _ member)
  · intro undotted c member
    refine (isSlugChar_of_isSlugged (slugged c member)).mpr ?_
    rintro rfl
    exact undotted member

/-! ### Anchors -/

theorem isSlugged_digit {c : Char} {n : Nat} (member : c ∈ Text.ofNat n) : IsSlugged c := by
  have digit : c.isDigit := Nat.isDigit_of_mem_toDigits (by decide) (by decide) member
  have small : c.toNat ≤ 57 := by
    simp only [Char.isDigit, Bool.and_eq_true, decide_eq_true_eq] at digit
    exact UInt32.le_iff_toNat_le.mp digit.2
  refine .inl ⟨?_, lowercase_below (by omega)⟩
  rw [isSlugChar, isAlphanumeric, if_pos (by omega), Char.isAlphanum, digit, Bool.or_true,
    Bool.true_or]

theorem anchorBase_slugged (source : Text) : ∀ c ∈ anchorBase source, IsSlugged c := by
  unfold anchorBase
  dsimp only
  split
  · have own : slugify "heading".toList = "heading".toList := by cbv
    exact own ▸ slugify_slugged "heading".toList
  · exact slugify_slugged _

theorem dotAbove_mem_anchorBase (source : Text) :
    dotAbove ∈ anchorBase source ↔ dottedCapital ∈ visibleText source := by
  rw [← dotAbove_mem_slugify]
  unfold anchorBase
  dsimp only
  split
  · rename_i empty
    rw [List.isEmpty_iff.mp empty]
    exact iff_of_false (by decide) List.not_mem_nil
  · rfl

/-- An anchor that is chosen for a heading is its own slug unless the heading has a dotted
capital. -/
theorem Chosen.slugify_eq_iff {used : List Text} {source a : Text}
    (chosen : Chosen used (anchorBase source) a) :
    slugify a = a ↔ dottedCapital ∉ visibleText source := by
  rw [← dotAbove_mem_anchorBase]
  cases chosen with
  | base => exact slugify_eq_self_iff (anchorBase_slugged source)
  | @numbered _ k =>
    have number : dotAbove ∉ '-' :: Text.ofNat k := by
      rw [List.mem_cons, not_or]
      refine ⟨by decide, fun member => ?_⟩
      exact absurd (List.all_eq_true.mp (ofNat_alphanum k) _ member) (by decide)
    have slugged : ∀ c ∈ anchorBase source ++ '-' :: Text.ofNat k, IsSlugged c := by
      intro c member
      rcases List.mem_append.mp member with front | back
      · exact anchorBase_slugged source c front
      · rcases List.mem_cons.mp back with rfl | digit
        · exact isSlugged_hyphen
        · exact isSlugged_digit digit
    rw [slugify_eq_self_iff slugged, List.mem_append, or_iff_left number]

/-- A slug holds only letters, numerals and hyphens, and is its own slug, exactly if the text has no
dotted capital; and a label finds the anchor that it spells exactly if the heading has none. -/
theorem slugify_normal_iff (t : Text) (blocks : List Block) :
    ((∀ c ∈ slugify t, isAlphanumeric c ∨ c = '-') ↔ dottedCapital ∉ t) ∧
    (slugify (slugify t) = slugify t ↔ dottedCapital ∉ t) ∧
    ∀ content a, (content, a) ∈ headings (flow (HeadingIndex.assign blocks).1) →
      ((HeadingIndex.assign blocks).2.anchor? a = some a ↔
        dottedCapital ∉ visibleText content.source) := by
  refine ⟨?_, ?_, fun content a listed => ?_⟩
  · rw [← dotAbove_mem_slugify]
    constructor
    · intro letters member
      exact absurd (letters _ member) (by decide +kernel)
    · intro undotted c member
      refine slugChar_cases ((isSlugChar_of_isSlugged (slugify_slugged t c member)).mpr ?_)
      rintro rfl
      exact undotted member
  · rw [slugify_eq_self_iff (slugify_slugged t), dotAbove_mem_slugify]
  · obtain ⟨i, here⟩ := List.mem_iff_getElem?.mp listed
    have chosen := (assign_chooses.blocks [] blocks).chosen i content a here
    have assigned : a ∈ anchors (flow (HeadingIndex.assign blocks).1) := by
      rw [anchors_eq_headings]
      exact List.mem_map_of_mem listed
    rw [assign_anchor_iff, ← chosen.slugify_eq_iff, and_iff_left assigned, eq_comm]

def dottedHeadings : List Block :=
  ["Straße", "STRAßE", "\u0130"].map fun source => .heading 1 (.unread source.toList) []

set_option maxRecDepth 8000 in
theorem headings_dottedHeadings : headings (flow (HeadingIndex.assign dottedHeadings).1) =
    [(.unread "Straße".toList, "straße".toList), (.unread "STRAßE".toList, "straße-1".toList),
      (.unread [dottedCapital], ['i', dotAbove])] := by
  cbv

theorem slugify_normal_numbered :
    (.unread "STRAßE".toList, "straße-1".toList) ∈
      headings (flow (HeadingIndex.assign dottedHeadings).1) ∧
    dottedCapital ∉ visibleText "STRAßE".toList ∧
    (HeadingIndex.assign dottedHeadings).2.anchor? "straße-1".toList = some "straße-1".toList := by
  have listed : (.unread "STRAßE".toList, "straße-1".toList) ∈
      headings (flow (HeadingIndex.assign dottedHeadings).1) := by
    rw [headings_dottedHeadings]
    exact List.mem_cons_of_mem _ List.mem_cons_self
  have shown : visibleText "STRAßE".toList = "STRAßE".toList := by cbv
  have undotted : dottedCapital ∉ visibleText "STRAßE".toList := by
    rw [shown]
    decide
  exact ⟨listed, undotted, ((slugify_normal_iff [] dottedHeadings).2.2 _ _ listed).mpr undotted⟩

set_option maxRecDepth 8000 in
/-- The slug of a dotted capital holds a mark that its own slug has not, and a heading with it is not
found by its anchor. -/
theorem slugify_dotted :
    slugify [dottedCapital] = ['i', dotAbove] ∧ ¬ isSlugChar dotAbove ∧
    slugify (slugify [dottedCapital]) = ['i'] ∧
    (.unread [dottedCapital], ['i', dotAbove]) ∈
      headings (flow (HeadingIndex.assign dottedHeadings).1) ∧
    (HeadingIndex.assign dottedHeadings).2.anchor? ['i', dotAbove] = none := by
  refine ⟨by cbv, by decide +kernel, by cbv, ?_, by cbv⟩
  rw [headings_dottedHeadings]
  exact List.mem_cons_of_mem _ (List.mem_cons_of_mem _ List.mem_cons_self)

end CommentMarkup
