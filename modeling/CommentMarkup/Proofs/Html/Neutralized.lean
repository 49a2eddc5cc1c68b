import CommentMarkup.Html.Tag
import CommentMarkup.Proofs.Text.Ascii
import CommentMarkup.Proofs.Text.Foreign
import Mathlib.Data.List.Infix

/-!
# Tags that survive neutralizing

`opening?` finds a tag the way a reader of the page does: its name goes on up to white space, a
slash or an angle bracket, and need not be followed by a `>`. `neutralizeTags` escapes the tags that
`scanTag` accepts, so an opening that it gives up on stays as it is.
-/

namespace CommentMarkup

/-- A character of a tag's name in a page. -/
def inTagName (c : Char) : Bool := !(isSpace c || c == '/' || c == '<' || c == '>')

def afterSlash : Text → Text
  | '/' :: cs => cs
  | cs => cs

/-- The name of the tag that opens or closes at the start of the text, and what follows it. -/
def opening? : Text → Option (Text × Text)
  | '<' :: cs =>
    if Text.startsWith Char.isAlpha (afterSlash cs) then
      some ((afterSlash cs).takeWhile inTagName, (afterSlash cs).dropWhile inTagName)
    else none
  | _ => none

def TagsAllowed (t : Text) : Prop :=
  ∀ u, u <:+ t → ∀ name rest, opening? u = some (name, rest) → isAllowedTag (Text.toLower name)

def isKept (t : Text) : Bool := (scanTag t).all fun found => found.1.isAllowed

/-- Every opening in the text that is no proper tag has an allowed name, which no tag that is
escaped follows directly. -/
def BrokenTagsAllowed (t : Text) : Prop :=
  ∀ u, u <:+ t → scanTag u = none → ∀ name rest, opening? u = some (name, rest) →
    isAllowedTag (Text.toLower name) ∧ isKept rest

/-! ### Characters -/

theorem inTagName_of_isAlphanum {c : Char} (h : c.isAlphanum) : inTagName c := by
  have range := toNat_of_isAlphanum h
  have apart {d : Char} (far : d.toNat = 47 ∨ d.toNat = 60 ∨ d.toNat = 62) : c ≠ d := by
    rintro rfl
    omega
  have ink : isSpace c = false := by
    simp only [isSpace, inRanges, spaceRanges, List.any_cons, List.any_nil, Bool.or_false,
      Bool.or_eq_false_iff, Bool.and_eq_false_iff, decide_eq_false_iff_not]
    omega
  simp [inTagName, ink, apart (d := '/') (by decide), apart (d := '<') (by decide),
    apart (d := '>') (by decide)]

theorem not_inTagName_of_endsTagName {c : Char} (h : endsTagName c) : ¬ inTagName c := by
  simp only [endsTagName, Bool.or_eq_true] at h
  rcases h with (space | close) | slash
  · simp [inTagName, space]
  · simp [inTagName, close]
  · simp [inTagName, slash]

/-! ### Proper tags -/

structure Unquoted (t : Text) : Prop where
  double : '"' ∉ t
  single : '\'' ∉ t

theorem Unquoted.suffix {s t : Text} (unquoted : Unquoted t) (suffix : s <:+ t) : Unquoted s where
  double member := unquoted.double (suffix.subset member)
  single member := unquoted.single (suffix.subset member)

/-- No quote and no comment: only a tag can be recognised. -/
structure Bare (t : Text) : Prop where
  unquoted : Unquoted t
  uncommented : ¬ "<!--".toList <:+: t

theorem Bare.suffix {s t : Text} (bare : Bare t) (suffix : s <:+ t) : Bare s where
  unquoted := bare.unquoted.suffix suffix
  uncommented part := bare.uncommented (part.trans suffix.isInfix)

structure TagBody (name body : Text) : Prop where
  closed : '<' ∉ body
  opens (after : Text) : ∃ rest, opening? ('<' :: (body ++ '>' :: after)) = some (name, rest)

theorem tagEnd_split {t : Text} {n : Nat} (unquoted : Unquoted t) (h : tagEnd? none t = some n) :
    ∃ inner after, t = inner ++ '>' :: after ∧ n = inner.length + 1 ∧ '<' ∉ inner := by
  induction t generalizing n with
  | nil => cases h
  | cons c t ih =>
    have double : c ≠ '"' := fun same => unquoted.double (same ▸ List.mem_cons_self)
    have single : c ≠ '\'' := fun same => unquoted.single (same ▸ List.mem_cons_self)
    simp only [tagEnd?, double, single, or_self, if_false] at h
    split at h
    · rename_i close
      cases h
      exact ⟨[], t, by rw [close]; rfl, rfl, List.not_mem_nil⟩
    · split at h
      · cases h
      · rename_i different
        obtain ⟨k, found, eq⟩ := Option.map_eq_some_iff.mp h
        obtain ⟨inner, after, split, length, closed⟩ :=
          ih (unquoted.suffix (List.suffix_cons c t)) found
        refine ⟨c :: inner, after, by rw [split]; rfl, by rw [← eq, length]; rfl, ?_⟩
        intro member
        rcases List.mem_cons.mp member with same | member
        · exact different same.symm
        · exact closed member

theorem afterSlash_of_alpha {t : Text} (alpha : t.startsWith Char.isAlpha) : afterSlash t = t := by
  unfold afterSlash
  split
  · cases alpha
  · rfl

theorem tagName_cons (c : Char) (t : Text) :
    tagName (c :: t) = if c.isAlpha then c :: t.takeWhile Char.isAlphanum else [] := rfl

theorem tagName_append (t : Text) :
    tagName t ++ t.drop (tagName t).length = t ∧ ∀ c ∈ tagName t, inTagName c := by
  cases t with
  | nil => simp [tagName]
  | cons c t =>
    rw [tagName_cons]
    split
    · rename_i alpha
      refine ⟨?_, ?_⟩
      · rw [List.length_cons, List.drop_succ_cons, drop_takeWhile_length, List.cons_append,
          List.takeWhile_append_dropWhile]
      · intro d member
        rcases List.mem_cons.mp member with rfl | member
        · exact inTagName_of_isAlphanum (isAlphanum_of_isAlpha alpha)
        · exact inTagName_of_isAlphanum (List.mem_takeWhile_imp member)
    · simp

theorem startsWith_tagName {t : Text} (named : ¬ (tagName t).isEmpty) :
    Text.startsWith Char.isAlpha (tagName t) := by
  cases t with
  | nil => exact absurd rfl named
  | cons c t =>
    rw [tagName_cons] at named ⊢
    split
    · assumption
    · rename_i other
      rw [if_neg other] at named
      exact absurd rfl named

theorem startsWith_append {p : Char → Bool} {a : Text} (h : a.startsWith p) (b : Text) :
    Text.startsWith p (a ++ b) := by
  cases a with
  | nil => cases h
  | cons c a => exact h

/-- A tag that is accepted has its name up to the first character that no name holds. -/
theorem scanTagName_body {lead n : Nat} {t : Text} {markup : Markup}
    (unquoted : Unquoted t) (h : scanTagName lead t = some (markup, n)) :
    ∃ name body after, t = body ++ '>' :: after ∧ n = lead + body.length + 1 ∧
      markup = .tag (Text.toLower name) ∧ '<' ∉ body ∧
      ∀ after, Text.startsWith Char.isAlpha (body ++ '>' :: after) ∧
        List.takeWhile inTagName (body ++ '>' :: after) = name := by
  unfold scanTagName at h
  dsimp only at h
  split at h
  · cases h
  · rename_i proper
    obtain ⟨named, ended⟩ : ¬ (tagName t).isEmpty ∧
        Text.startsWith endsTagName (t.drop (tagName t).length) := by simpa using proper
    obtain ⟨k, found, eq⟩ := Option.map_eq_some_iff.mp h
    cases eq
    obtain ⟨whole, letters⟩ := tagName_append t
    have alpha := startsWith_tagName named
    generalize tagName t = name at whole letters alpha found ended ⊢
    generalize t.drop name.length = rest at whole found ended
    subst whole
    obtain ⟨inner, after, rfl, rfl, closed⟩ :=
      tagEnd_split (unquoted.suffix (List.suffix_append name rest)) found
    have stop (after : Text) : Text.startsWith (fun c => !inTagName c) (inner ++ '>' :: after) := by
      cases inner with
      | nil => rfl
      | cons c inner => simpa [Text.startsWith] using not_inTagName_of_endsTagName ended
    have outside : '<' ∉ name := fun member => absurd (letters _ member) (by decide)
    -- what follows `inner` may be anything: the name ends before it in every text
    refine ⟨name, name ++ inner, after, by simp, by simp; omega, rfl, ?_, ?_⟩
    · intro member
      rcases List.mem_append.mp member with inName | inRest
      · exact outside inName
      · exact closed inRest
    · intro after
      rw [List.append_assoc]
      exact ⟨startsWith_append alpha _, takeWhile_append_stop letters (stop after)⟩

/-- Without quotes and comments, what is accepted is a tag up to the first `>`. -/
theorem scanTag_body {n : Nat} {t : Text} {markup : Markup} (bare : Bare t)
    (h : scanTag t = some (markup, n)) :
    ∃ name body after, t = '<' :: (body ++ '>' :: after) ∧ n = body.length + 2 ∧
      markup = .tag (Text.toLower name) ∧ TagBody name body := by
  unfold scanTag at h
  split at h
  · rename_i cs
    exact absurd (List.prefix_append "<!--".toList cs).isInfix bare.uncommented
  · rename_i cs
    obtain ⟨name, body, after, rfl, rfl, rfl, closed, opens⟩ :=
      scanTagName_body (bare.unquoted.suffix (List.suffix_append ['<', '/'] cs)) h
    refine ⟨name, '/' :: body, after, rfl, by simp; omega, rfl, ?_, ?_⟩
    · simpa using closed
    · intro after
      obtain ⟨alpha, word⟩ := opens after
      refine ⟨(body ++ '>' :: after).dropWhile inTagName, ?_⟩
      rw [List.cons_append, opening?, afterSlash, if_pos alpha, word]
  · rename_i cs _ _
    obtain ⟨name, body, after, rfl, rfl, rfl, closed, opens⟩ :=
      scanTagName_body (bare.unquoted.suffix (List.suffix_cons '<' cs)) h
    refine ⟨name, body, after, rfl, by omega, rfl, closed, ?_⟩
    intro after
    obtain ⟨alpha, word⟩ := opens after
    refine ⟨(body ++ '>' :: after).dropWhile inTagName, ?_⟩
    rw [opening?, afterSlash_of_alpha alpha, if_pos alpha, word]
  · cases h

/-! ### What becomes of an opening -/

theorem neutralizeTags_cons {c : Char} {t : Text} (missed : scanTag (c :: t) = none) :
    neutralizeTags (c :: t) = c :: neutralizeTags t := by
  rw [neutralizeTags, missed]

theorem scanTag_other {c : Char} (other : c ≠ '<') (t : Text) : scanTag (c :: t) = none := by
  unfold scanTag
  split
  all_goals first | rfl | (rename_i same; cases same; exact absurd rfl other)

theorem neutralizeTags_tag {name body after t : Text} (split : t = '<' :: (body ++ '>' :: after))
    (found : scanTag t = some (.tag name, body.length + 2)) :
    neutralizeTags t =
      (if isAllowedTag name then '<' :: (body ++ ['>']) else escapeText ('<' :: (body ++ ['>']))) ++
        neutralizeTags after := by
  subst split
  have written :
      ('<' :: (body ++ '>' :: after)).take (body.length + 2) = '<' :: (body ++ ['>']) := by
    rw [List.take_succ_cons, List.take_length_add_append]
    rfl
  have rest : (body ++ '>' :: after).drop (body.length + 2 - 1) = after := by
    rw [Nat.add_succ_sub_one, List.drop_length_add_append]
    rfl
  rw [neutralizeTags, found]
  dsimp only
  rw [written, rest]
  rfl

theorem neutralizeTags_kept {t : Text} (bare : Bare ('<' :: t)) (kept : isKept ('<' :: t)) :
    ∃ u, neutralizeTags ('<' :: t) = '<' :: u := by
  cases found : scanTag ('<' :: t) with
  | none => exact ⟨_, neutralizeTags_cons found⟩
  | some pair =>
    obtain ⟨markup, n⟩ := pair
    obtain ⟨name, body, after, split, rfl, rfl, _⟩ := scanTag_body bare found
    have allowed : isAllowedTag name.toLower := by
      simpa [isKept, found, Markup.isAllowed] using kept
    rw [neutralizeTags_tag split found, if_pos allowed]
    exact ⟨_, rfl⟩

theorem neutralizeTags_escaped {t : Text} (bare : Bare t) (escaped : ¬ isKept t) :
    ∃ u, neutralizeTags t = '&' :: u := by
  cases found : scanTag t with
  | none => simp [isKept, found] at escaped
  | some pair =>
    obtain ⟨markup, n⟩ := pair
    obtain ⟨name, body, after, split, rfl, rfl, _⟩ := scanTag_body bare found
    have refused : ¬ isAllowedTag name.toLower := by
      simpa [isKept, found, Markup.isAllowed] using escaped
    rw [neutralizeTags_tag split found, if_neg refused]
    exact ⟨_, rfl⟩

/-- The head of a text is kept, or is a bracket that is escaped. -/
theorem startsWith_neutralizeTags {p : Char → Bool} (bracket : ¬ p '<') (ampersand : ¬ p '&')
    {t : Text} (bare : Bare t) : (neutralizeTags t).startsWith p = t.startsWith p := by
  cases t with
  | nil => rw [neutralizeTags]
  | cons c t =>
    by_cases other : c = '<'
    · subst other
      by_cases kept : isKept ('<' :: t)
      · obtain ⟨u, eq⟩ := neutralizeTags_kept bare kept
        rw [eq]
        rfl
      · obtain ⟨u, eq⟩ := neutralizeTags_escaped bare kept
        rw [eq]
        simp [Text.startsWith, bracket, ampersand]
    · rw [neutralizeTags_cons (scanTag_other other t)]
      rfl

theorem afterSlash_neutralizeTags {t : Text} (bare : Bare t) :
    afterSlash (neutralizeTags t) = neutralizeTags (afterSlash t) := by
  have other {u : Text} (h : ¬ u.startsWith (· == '/')) : afterSlash u = u := by
    unfold afterSlash
    split
    · exact absurd rfl h
    · rfl
  by_cases slash : t.startsWith (· == '/')
  · cases t with
    | nil => cases slash
    | cons c t =>
      obtain rfl : c = '/' := by simpa [Text.startsWith] using slash
      rw [neutralizeTags_cons (scanTag_other (by decide) t)]
      rfl
  · have same := startsWith_neutralizeTags (p := (· == '/')) (by decide) (by decide) bare
    rw [other slash, other (by rw [same]; exact slash)]

/-- A name goes on into a tag that is escaped. -/
theorem takeWhile_neutralizeTags {t : Text} (bare : Bare t) :
    (neutralizeTags t).takeWhile inTagName = t.takeWhile inTagName ++
      if isKept (t.dropWhile inTagName) then []
      else (neutralizeTags (t.dropWhile inTagName)).takeWhile inTagName := by
  induction t with
  | nil => rw [neutralizeTags]; rfl
  | cons c t ih =>
    by_cases letter : inTagName c
    · have other : c ≠ '<' := by
        rintro rfl
        exact absurd letter (by decide)
      rw [neutralizeTags_cons (scanTag_other other t), List.takeWhile_cons_of_pos letter,
        List.takeWhile_cons_of_pos letter, List.dropWhile_cons_of_pos letter,
        ih (bare.suffix (List.suffix_cons c t)), List.cons_append]
    · rw [List.takeWhile_cons_of_neg letter, List.dropWhile_cons_of_neg letter, List.nil_append]
      split
      · rename_i kept
        by_cases bracket : c = '<'
        · subst bracket
          obtain ⟨u, eq⟩ := neutralizeTags_kept bare kept
          rw [eq, List.takeWhile_cons_of_neg letter]
        · rw [neutralizeTags_cons (scanTag_other bracket t), List.takeWhile_cons_of_neg letter]
      · rfl

theorem ampersand_notMem {name : Text} (allowed : isAllowedTag name) : '&' ∉ name := by
  have known : ∀ tag ∈ blockTags ++ inlineTags, '&' ∉ tag := by decide
  apply known
  simpa [isAllowedTag, isBlockTag] using allowed

/-- The opening at a bracket that is kept stays allowed if its name was and meets no escaped tag. -/
theorem opening_neutralizeTags {t : Text} (bare : Bare t) :
    (∀ name rest, opening? ('<' :: neutralizeTags t) = some (name, rest) →
      isAllowedTag (Text.toLower name)) ↔
    ∀ name rest, opening? ('<' :: t) = some (name, rest) →
      isAllowedTag (Text.toLower name) ∧ isKept rest := by
  have within : Bare (afterSlash t) := by
    unfold afterSlash
    split
    · exact bare.suffix (List.suffix_cons _ _)
    · exact bare
  simp only [opening?, afterSlash_neutralizeTags bare,
    startsWith_neutralizeTags (p := Char.isAlpha) (by decide) (by decide) within]
  generalize afterSlash t = u at within
  by_cases alpha : u.startsWith Char.isAlpha
  · simp only [if_pos alpha, Option.some.injEq, Prod.mk.injEq, and_imp, forall_apply_eq_imp_iff,
      forall_eq', takeWhile_neutralizeTags within]
    by_cases kept : isKept (u.dropWhile inTagName)
    · simp [kept]
    · obtain ⟨v, eq⟩ :=
        neutralizeTags_escaped (within.suffix (List.dropWhile_suffix inTagName)) kept
      -- the tag after the name is escaped, so the name takes in an ampersand
      have refused (name : Text) :
          ¬ isAllowedTag (Text.toLower (name ++ ('&' :: v).takeWhile inTagName)) := by
        intro allowed
        apply ampersand_notMem allowed
        rw [List.takeWhile_cons_of_pos (by decide)]
        exact List.mem_map.mpr ⟨'&', by simp, by decide⟩
      rw [if_neg kept, eq]
      exact ⟨fun allowed => absurd allowed (refused _), fun both => absurd both.2 kept⟩
  · simp [alpha]

/-! ### Whole texts -/

theorem forall_suffix_cons {P : Text → Prop} {c : Char} {t : Text} :
    (∀ u, u <:+ c :: t → P u) ↔ P (c :: t) ∧ ∀ u, u <:+ t → P u := by
  simp only [List.suffix_cons_iff, or_imp, forall_and, forall_eq]

theorem forall_suffix_append {P : Text → Prop} {w : Text} (t : Text)
    (outside : ∀ c ∈ w, ∀ u, P (c :: u)) :
    (∀ u, u <:+ w ++ t → P u) ↔ ∀ u, u <:+ t → P u := by
  induction w with
  | nil => rfl
  | cons c w ih =>
    rw [List.cons_append, forall_suffix_cons,
      ih fun d member => outside d (List.mem_cons_of_mem _ member)]
    exact and_iff_right (outside c List.mem_cons_self _)

theorem opening_other {c : Char} (other : c ≠ '<') (t : Text) : opening? (c :: t) = none := by
  unfold opening?
  split
  · rename_i same
    cases same
    exact absurd rfl other
  · rfl

theorem tagsAllowed_append {w : Text} (outside : '<' ∉ w) (t : Text) :
    TagsAllowed (w ++ t) ↔ TagsAllowed t := by
  apply forall_suffix_append
  intro c member u name rest opens
  rw [opening_other (fun same => outside (same ▸ member))] at opens
  cases opens

theorem brokenTagsAllowed_append {w : Text} (outside : '<' ∉ w) (t : Text) :
    BrokenTagsAllowed (w ++ t) ↔ BrokenTagsAllowed t := by
  apply forall_suffix_append
  intro c member u _ name rest opens
  rw [opening_other (fun same => outside (same ▸ member))] at opens
  cases opens

theorem TagBody.tagsAllowed {name body : Text} (tag : TagBody name body)
    (allowed : isAllowedTag (Text.toLower name)) (t : Text) :
    TagsAllowed ('<' :: (body ++ '>' :: t)) ↔ TagsAllowed t := by
  have tail := tagsAllowed_append (w := body ++ ['>']) (by simpa using tag.closed) t
  rw [List.append_assoc] at tail
  rw [← tail, TagsAllowed, forall_suffix_cons]
  apply and_iff_right
  intro found rest opens
  obtain ⟨_, expected⟩ := tag.opens t
  rw [expected] at opens
  cases opens
  exact allowed

theorem TagBody.brokenTagsAllowed {name body t : Text} (tag : TagBody name body)
    (proper : scanTag ('<' :: (body ++ '>' :: t)) ≠ none) :
    BrokenTagsAllowed ('<' :: (body ++ '>' :: t)) ↔ BrokenTagsAllowed t := by
  have tail := brokenTagsAllowed_append (w := body ++ ['>']) (by simpa using tag.closed) t
  rw [List.append_assoc] at tail
  rw [← tail, BrokenTagsAllowed, forall_suffix_cons]
  exact and_iff_right fun missed => absurd missed proper

theorem bracket_notMem_escapeText (t : Text) : '<' ∉ escapeText t := by
  intro member
  obtain ⟨c, _, member⟩ := List.mem_flatMap.mp member
  unfold escapeTextChar at member
  split at member
  · exact absurd member (by decide)
  · split at member
    · exact absurd member (by decide)
    · split at member
      · exact absurd member (by decide)
      · rename_i other _
        exact other (List.mem_singleton.mp member).symm

/-- All tags are allowed after neutralizing just when those are that no proper tag begins at. -/
theorem neutralizeTags_allowed_iff {s : Text} (double : '"' ∉ s) (single : '\'' ∉ s)
    (uncommented : ¬ "<!--".toList <:+: s) :
    TagsAllowed (neutralizeTags s) ↔ BrokenTagsAllowed s := by
  have bare : Bare s := ⟨⟨double, single⟩, uncommented⟩
  clear double single uncommented
  fun_induction neutralizeTags s with
  | case1 =>
    simp only [TagsAllowed, BrokenTagsAllowed, List.suffix_nil, forall_eq]
    simp [opening?]
  | case2 c cs missed ih =>
    have inner := bare.suffix (List.suffix_cons c cs)
    rw [TagsAllowed, BrokenTagsAllowed, forall_suffix_cons, forall_suffix_cons]
    refine and_congr ?_ (ih inner)
    by_cases bracket : c = '<'
    · subst bracket
      rw [opening_neutralizeTags inner]
      simp [missed]
    · simp [opening_other bracket]
  | case3 c cs markup n found written ih =>
    obtain ⟨name, body, after, split, rfl, rfl, tag⟩ := scanTag_body bare found
    have rest : cs.drop (body.length + 2 - 1) = after := by
      rw [(List.cons.inj split).2, Nat.add_succ_sub_one, List.drop_length_add_append]
      rfl
    have whole : written = '<' :: (body ++ ['>']) := by
      rw [show written = (c :: cs).take (body.length + 2) from rfl, split, List.take_succ_cons,
        List.take_length_add_append]
      rfl
    rw [split] at bare found ⊢
    have inner : Bare after := bare.suffix ⟨'<' :: (body ++ ['>']), by simp⟩
    rw [rest] at ih ⊢
    rw [tag.brokenTagsAllowed (by simp [found]), whole]
    refine Iff.trans ?_ (ih inner)
    split
    · rename_i allowed
      simpa using tag.tagsAllowed allowed (neutralizeTags after)
    · exact tagsAllowed_append (bracket_notMem_escapeText _) _

theorem brokenTagsAllowed_of_proper {t : Text}
    (proper : ∀ u ∈ t.tails, scanTag u = none → opening? u = none) : BrokenTagsAllowed t := by
  intro u suffix missed name rest opens
  rw [proper u ((List.mem_tails _ _).mpr suffix) missed] at opens
  cases opens

theorem neutralizeTags_allowed_script :
    TagsAllowed (neutralizeTags "<p><script>1</script></p>".toList) := by
  apply (neutralizeTags_allowed_iff (by decide) (by decide) (by decide)).mpr
  exact brokenTagsAllowed_of_proper (by decide +kernel)

/-- The name of a custom element goes on after its hyphen, where `scanTag` gives up. -/
theorem customElement_survives :
    ¬ ∀ s : Text, '"' ∉ s → '\'' ∉ s → ¬ "<!--".toList <:+: s →
      TagsAllowed (neutralizeTags s) := by
  intro tagsAllowed
  have kept : neutralizeTags "<my-widget>".toList = "<my-widget>".toList := by decide +kernel
  have tags := tagsAllowed "<my-widget>".toList (by decide) (by decide) (by decide)
  rw [kept] at tags
  have allowed := tags _ (List.suffix_refl _) "my-widget".toList ">".toList (by decide)
  exact absurd allowed (by decide)

end CommentMarkup
