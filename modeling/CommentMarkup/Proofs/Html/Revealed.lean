import CommentMarkup.Proofs.Html.Quoted
import CommentMarkup.Proofs.Html.Tag

/-!
# Neutralizing twice

A bracket that belongs to no tag stays as it is, and so may start one as soon as the tags behind it
are escaped. Only then the second pass finds anything to do that the first one left:
`neutralizeTags_idempotent_iff`.
-/

namespace CommentMarkup

open Html

/-! ### What is escaped -/

/-- The characters of a text, each with whether neutralizing escapes it. -/
def escapeMarks : Text → List (Char × Bool)
  | [] => []
  | c :: cs =>
    match scanTag (c :: cs) with
    | none => (c, false) :: escapeMarks cs
    | some (markup, n) =>
      ((c :: cs).take n).map (·, !markup.isAllowed) ++ escapeMarks (cs.drop (n - 1))
termination_by t => t.length
decreasing_by all_goals simp only [List.length_cons, List.length_drop]; omega

def writeMark (mark : Char × Bool) : Text :=
  if mark.2 then escapeTextChar mark.1 else [mark.1]

def writeMarks (l : List (Char × Bool)) : Text := l.flatMap writeMark

theorem writeMarks_cons (mark : Char × Bool) (l : List (Char × Bool)) :
    writeMarks (mark :: l) = writeMark mark ++ writeMarks l := List.flatMap_cons

theorem writeMarks_append (a b : List (Char × Bool)) :
    writeMarks (a ++ b) = writeMarks a ++ writeMarks b := List.flatMap_append

theorem writeMarks_map (escaped : Bool) (t : Text) :
    writeMarks (t.map (·, escaped)) = if escaped then escapeText t else t := by
  rw [writeMarks, List.flatMap_map]
  cases escaped with
  | true => rfl
  | false => exact List.flatMap_singleton' t

theorem writeMarks_escapeMarks (t : Text) : writeMarks (escapeMarks t) = neutralizeTags t := by
  fun_induction neutralizeTags t with
  | case1 => rw [escapeMarks]; rfl
  | case2 c cs missed ih =>
    rw [escapeMarks, missed]
    exact congrArg (c :: ·) ih
  | case3 c cs markup n found written ih =>
    rw [escapeMarks, found]
    dsimp only
    rw [writeMarks_append, writeMarks_map, ih]
    cases markup.isAllowed <;> rfl

theorem escapeMarks_fst (t : Text) : (escapeMarks t).map Prod.fst = t := by
  fun_induction neutralizeTags t with
  | case1 => rw [escapeMarks]; rfl
  | case2 c cs missed ih =>
    rw [escapeMarks, missed]
    exact congrArg (c :: ·) ih
  | case3 c cs markup n found written ih =>
    rw [escapeMarks, found]
    dsimp only
    have same : Prod.fst ∘ (·, !markup.isAllowed) = (id : Char → Char) := rfl
    rw [List.map_append, List.map_map, same, List.map_id, ih,
      take_append_drop_pred (scanTag_pos found)]

/-- A character that scanning looks for behind the name of a tag or in a comment. -/
def isTagMark (c : Char) : Bool := isQuote c || isAngle c || c == '-'

/-- A character is written as it is, or is no quote and becomes a reference. -/
theorem writeMark_cases (mark : Char × Bool) :
    writeMark mark = [mark.1] ∨
      mark.2 = true ∧ ¬ isQuote mark.1 ∧
        ∃ w, writeMark mark = '&' :: w ∧ ∀ c ∈ '&' :: w, ¬ isTagMark c := by
  have plain {w : Text} (h : w.all fun c => !isTagMark c) : ∀ c ∈ w, ¬ isTagMark c := by
    simpa [List.all_eq_true] using h
  obtain ⟨c, escaped⟩ := mark
  cases escaped with
  | false => exact .inl rfl
  | true =>
    simp only [writeMark, if_true, escapeTextChar]
    split
    · rename_i same
      subst same
      exact .inr ⟨trivial, by decide, "amp;".toList, rfl, plain (by decide)⟩
    · split
      · rename_i same
        subst same
        exact .inr ⟨trivial, by decide, "lt;".toList, rfl, plain (by decide)⟩
      · split
        · rename_i same
          subst same
          exact .inr ⟨trivial, by decide, "gt;".toList, rfl, plain (by decide)⟩
        · exact .inl rfl

/-- What is written without an ampersand was there before. -/
theorem writeMarks_eq_append {l : List (Char × Bool)} {word x : Text} (bare : '&' ∉ word)
    (h : writeMarks l = word ++ x) :
    ∃ front back, l = front ++ back ∧ front.map Prod.fst = word ∧ writeMarks back = x := by
  induction word generalizing l with
  | nil => exact ⟨[], l, rfl, rfl, h⟩
  | cons c word ih =>
    rw [List.mem_cons, not_or] at bare
    cases l with
    | nil => cases h
    | cons mark l =>
      rw [writeMarks_cons] at h
      rcases writeMark_cases mark with same | ⟨_, _, w, reference, _⟩
      · rw [same] at h
        obtain ⟨head, tail⟩ := List.cons.inj h
        obtain ⟨front, back, rfl, rfl, rest⟩ := ih bare.2 tail
        exact ⟨mark :: front, back, rfl, by rw [List.map_cons, head], rest⟩
      · rw [reference] at h
        exact absurd (List.cons.inj h).1 bare.1

/-! ### Tags in what is written -/

theorem quoteStep_other {quote : Option Char} (mark : quote.all isQuote) {c : Char}
    (plain : ¬ isQuote c) : quoteStep quote c = quote := by
  cases quote with
  | none => exact quoteStep_plain plain
  | some q =>
    have apart : c ≠ q := by
      rintro rfl
      exact plain mark
    exact if_neg apart

theorem quoteStep_mark {quote : Option Char} (mark : quote.all isQuote) (c : Char) :
    (quoteStep quote c).all isQuote := by
  cases quote with
  | none =>
    rw [quoteStep]
    split
    · assumption
    · rfl
  | some q =>
    rw [quoteStep]
    split
    · rfl
    · exact mark

theorem tagEnd_append_plain {quote : Option Char} (mark : quote.all isQuote)
    {w : Text} (plain : ∀ c ∈ w, ¬ isTagMark c) (t : Text) :
    (tagEnd? quote (w ++ t)).isSome = (tagEnd? quote t).isSome := by
  induction w with
  | nil => rfl
  | cons c w ih =>
    rw [List.forall_mem_cons] at plain
    have marks := plain.1
    simp only [isTagMark, Bool.or_eq_true, not_or, isAngle, beq_iff_eq] at marks
    rw [List.cons_append, tagEnd_cons, if_neg (fun high => marks.1.2.2 high.2),
      if_neg (fun low => marks.1.2.1 low.2), Option.isSome_map, quoteStep_other mark marks.1.1,
      ih plain.2]

/-- A tag that ends in what is written ended before, or met a bracket that is escaped. -/
theorem tagEnd_writeMarks {quote : Option Char} (mark : quote.all isQuote)
    {l : List (Char × Bool)} (found : (tagEnd? quote (writeMarks l)).isSome) :
    (tagEnd? quote (l.map Prod.fst)).isSome ∨
      ∃ front back, l = front ++ ('<', true) :: back ∧ anglesQuoted quote (front.map Prod.fst) ∧
        (front.map Prod.fst).foldl quoteStep quote = none := by
  induction l generalizing quote with
  | nil => exact .inl found
  | cons m l ih =>
    obtain ⟨c, escaped⟩ := m
    rw [writeMarks_cons] at found
    rw [List.map_cons, tagEnd_cons]
    by_cases closes : quote = none ∧ c = '>'
    · rw [if_pos closes]
      exact .inl rfl
    rw [if_neg closes]
    -- what stands behind the character decides
    have later (found : (tagEnd? (quoteStep quote c) (writeMarks l)).isSome)
        (inside : ¬ (quote = none ∧ c = '<')) :
        (if quote = none ∧ c = '<' then none
          else (tagEnd? (quoteStep quote c) (l.map Prod.fst)).map (· + 1)).isSome ∨
        ∃ front back, (c, escaped) :: l = front ++ ('<', true) :: back ∧
          anglesQuoted quote (front.map Prod.fst) ∧
          (front.map Prod.fst).foldl quoteStep quote = none := by
      rw [if_neg inside, Option.isSome_map]
      rcases ih (quoteStep_mark mark c) found with ends | ⟨front, back, rfl, quoted, closed⟩
      · exact .inl ends
      · refine .inr ⟨(c, escaped) :: front, back, rfl, ?_, closed⟩
        rw [List.map_cons, anglesQuoted, quoted, Bool.and_true]
        cases quote with
        | some q => rfl
        | none => simp_all [isAngle]
    rcases writeMark_cases (c, escaped) with same | ⟨rfl, plain, w, reference, inert⟩
    · rw [same, List.singleton_append, tagEnd_cons, if_neg closes] at found
      by_cases opens : quote = none ∧ c = '<'
      · rw [if_pos opens] at found
        cases found
      · rw [if_neg opens, Option.isSome_map] at found
        exact later found opens
    · by_cases opens : quote = none ∧ c = '<'
      · obtain ⟨rfl, rfl⟩ := opens
        exact .inr ⟨[], l, rfl, rfl, rfl⟩
      · rw [reference, tagEnd_append_plain mark inert] at found
        exact later (by rwa [quoteStep_other mark plain]) opens

theorem infix_of_append {c : Char} {phrase w x : Text} (absent : c ∉ w)
    (inside : c :: phrase <:+: w ++ x) : c :: phrase <:+: x := by
  induction w with
  | nil => exact inside
  | cons d w ih =>
    rw [List.mem_cons, not_or] at absent
    rcases List.infix_cons_iff.mp inside with here | later
    · exact absurd (List.cons_prefix_cons.mp here).1 absent.1
    · exact ih absent.2 later

/-- A comment that ends in what is written ended before. -/
theorem infix_writeMarks {l : List (Char × Bool)} (inside : "-->".toList <:+: writeMarks l) :
    "-->".toList <:+: l.map Prod.fst := by
  induction l with
  | nil => exact inside
  | cons m l ih =>
    rw [List.map_cons]
    rcases writeMark_cases m with same | ⟨_, _, w, reference, inert⟩
    · have whole : writeMarks (m :: l) = m.1 :: writeMarks l := by
        rw [writeMarks_cons, same, List.singleton_append]
      rw [whole] at inside
      rcases List.infix_cons_iff.mp inside with ⟨x, here⟩ | later
      · obtain ⟨front, back, split, written, _⟩ :=
          writeMarks_eq_append (l := m :: l) (by decide) (whole.trans here.symm)
        rw [← List.map_cons, split, List.map_append, written]
        exact (List.prefix_append _ _).isInfix
      · exact (ih later).trans (List.suffix_cons _ _).isInfix
    · rw [writeMarks_cons, reference] at inside
      have dash : '-' ∉ '&' :: w := fun member => inert _ member (by decide)
      exact (ih (infix_of_append dash inside)).trans (List.suffix_cons _ _).isInfix

theorem startsWith_writeMarks {p : Char → Bool} (ampersand : ¬ p '&') {l : List (Char × Bool)}
    (h : Text.startsWith p (writeMarks l)) : Text.startsWith p (l.map Prod.fst) := by
  cases l with
  | nil => exact h
  | cons m l =>
    rw [writeMarks_cons] at h
    rcases writeMark_cases m with same | ⟨_, _, w, reference, _⟩
    · rw [same] at h
      exact h
    · rw [reference] at h
      exact absurd h ampersand

/-- Behind a bracket, what is written shows a tag or comment that was there before, unless a bracket
that is escaped kept it from being one. -/
theorem scanTag_writeMarks {l : List (Char × Bool)}
    (found : (scanTag ('<' :: writeMarks l)).isSome) :
    (scanTag ('<' :: l.map Prod.fst)).isSome ∨
      ∃ (head : TagHead '<') (front back : List (Char × Bool)),
        l = front ++ ('<', true) :: back ∧ '<' :: front.map Prod.fst = head.text := by
  obtain ⟨⟨markup, n⟩, found⟩ := Option.isSome_iff_exists.mp found
  cases markup with
  | comment =>
    obtain ⟨body, k, split, found, rfl⟩ := scanTag_comment_iff.mp found
    obtain ⟨front, back, rfl, written, rfl⟩ :=
      writeMarks_eq_append (show '&' ∉ "!--".toList by decide) (List.cons.inj split).2
    have inside := infix_writeMarks (find_isSome_iff.mp (Option.isSome_of_eq_some found))
    obtain ⟨m, there⟩ := Option.isSome_iff_exists.mp (find_isSome_iff.mpr inside)
    have comment : scanTag ('<' :: (front ++ back).map Prod.fst) = some (.comment, m + 7) := by
      rw [List.map_append, written]
      exact scanTag_comment_iff.mpr ⟨_, m, rfl, there, rfl⟩
    exact .inl (by rw [comment]; rfl)
  | tag name =>
    obtain ⟨tag, after, split, rfl, rfl⟩ := scanTag_tag_iff.mp found
    obtain ⟨label, bare, labelled⟩ := tag.front_cons
    rw [tag.text_eq, labelled, List.cons_append, List.cons_append, List.append_assoc] at split
    obtain ⟨front, back, rfl, rfl, rest⟩ := writeMarks_eq_append bare (List.cons.inj split).2
    have ended : Text.startsWith endsTagName (back.map Prod.fst) := by
      apply startsWith_writeMarks (by decide)
      rw [rest]
      exact tag.ended_append after
    have close : (tagEnd? none (writeMarks back)).isSome := by
      rw [rest, tagEnd_eq_some_iff.mpr ⟨_, after, rfl, rfl, tag.quoted, tag.closed⟩]
      rfl
    rcases tagEnd_writeMarks rfl close with ends | ⟨inner, tail, rfl, quoted, closed⟩
    · obtain ⟨m, there⟩ := Option.isSome_iff_exists.mp ends
      obtain ⟨inner, after, split, _, quoted, closed⟩ := tagEnd_eq_some_iff.mp there
      rw [split] at ended
      obtain ⟨tag', text⟩ := tag.withInner (startsWith_stop ended) quoted closed
      have whole : '<' :: (front ++ back).map Prod.fst = tag'.text ++ '>' :: after := by
        rw [text, labelled, List.map_append, split]
        simp
      exact .inl (by rw [scanTag_tag_iff.mpr ⟨tag', after, whole, rfl, rfl⟩]; rfl)
    · rw [List.map_append] at ended
      obtain ⟨head, text⟩ := tag.withInner (startsWith_stop ended) quoted closed
      refine .inr ⟨head, front ++ inner, tail, (List.append_assoc ..).symm, ?_⟩
      rw [text, labelled, List.map_append]
      rfl

/-! ### The second pass -/

/-- What follows each place at which neutralizing finds no tag and goes on. -/
def givenUp : Text → List Text
  | [] => []
  | c :: cs =>
    match scanTag (c :: cs) with
    | none => (c :: cs) :: givenUp cs
    | some (_, n) => givenUp (cs.drop (n - 1))
termination_by t => t.length
decreasing_by all_goals simp only [List.length_cons, List.length_drop]; omega

theorem scanTag_givenUp {t u : Text} (member : u ∈ givenUp t) : scanTag u = none := by
  fun_induction givenUp t with
  | case1 => cases member
  | case2 c cs missed ih =>
    rcases List.mem_cons.mp member with rfl | later
    · exact missed
    · exact ih later
  | case3 c cs markup n found ih => exact ih member

/-- The first tag or comment of the neutralized text that was none before, and what follows it. -/
def revealed? (t : Text) : Option (Markup × Text) :=
  (givenUp t).findSome? fun u =>
    (scanTag (neutralizeTags u)).map fun found => (found.1, (neutralizeTags u).drop found.2)

/-- The text starts like a tag, and the bracket that keeps it from being one is escaped. -/
def Blocked (t : Text) : Prop :=
  ∃ (head : TagHead '<') (after : Text), t = head.text ++ '<' :: after ∧
    (escapeMarks t)[head.text.length]? = some ('<', true)

theorem escapeMarks_cons {c : Char} {t : Text} (missed : scanTag (c :: t) = none) :
    escapeMarks (c :: t) = (c, false) :: escapeMarks t := by
  rw [escapeMarks, missed]

/-- Only at a bracket that was blocked something is revealed. -/
theorem blocked_of_revealed {t : Text} (missed : scanTag t = none)
    (found : (scanTag (neutralizeTags t)).isSome) : Blocked t := by
  cases t with
  | nil =>
    rw [neutralizeTags] at found
    cases found
  | cons c t =>
    rw [neutralizeTags_cons missed] at found
    by_cases bracket : c = '<'
    · subst bracket
      rw [← writeMarks_escapeMarks] at found
      have whole := escapeMarks_fst t
      rcases scanTag_writeMarks found with before | ⟨head, front, back, split, text⟩
      · rw [whole, missed] at before
        cases before
      · rw [split, List.map_append] at whole
        refine ⟨head, back.map Prod.fst, ?_, ?_⟩
        · rw [← text, ← whole]
          rfl
        · rw [escapeMarks_cons missed, split, ← text]
          simp
    · rw [scanTag_other bracket] at found
      cases found

theorem neutralizeTags_found {t : Text} {markup : Markup} {n : Nat}
    (found : scanTag t = some (markup, n)) :
    neutralizeTags t = (if markup.isAllowed then t.take n else escapeText (t.take n)) ++
      neutralizeTags (t.drop n) := by
  obtain ⟨k, rfl⟩ := Nat.exists_eq_add_one_of_ne_zero (Nat.pos_iff_ne_zero.mp (scanTag_pos found))
  cases t with
  | nil => cases found
  | cons c t =>
    rw [neutralizeTags, found]
    rfl

theorem neutralizeTags_append {w : Text} (outside : '<' ∉ w) (t : Text) :
    neutralizeTags (w ++ t) = w ++ neutralizeTags t := by
  induction w with
  | nil => rfl
  | cons c w ih =>
    rw [List.mem_cons, not_or] at outside
    rw [List.cons_append, neutralizeTags_cons (scanTag_other (Ne.symm outside.1) _),
      ih outside.2, List.cons_append]

/-- A tag or comment that is found stays as it is just when it is allowed and so does the rest. -/
theorem neutralizeTags_eq_self_iff {t : Text} {markup : Markup} {n : Nat}
    (found : scanTag t = some (markup, n)) :
    neutralizeTags t = t ↔ markup.isAllowed ∧ neutralizeTags (t.drop n) = t.drop n := by
  have parts := List.take_append_drop n t
  rw [neutralizeTags_found found]
  by_cases allowed : markup.isAllowed
  · rw [if_pos allowed]
    nth_rewrite 3 [← parts]
    rw [List.append_cancel_left_eq, and_iff_right allowed]
  · refine iff_of_false (fun same => ?_) fun both => allowed both.1
    rw [if_neg allowed] at same
    cases t with
    | nil => cases found
    | cons c t =>
      by_cases bracket : c = '<'
      · -- the bracket is written as a reference
        obtain ⟨k, rfl⟩ :=
          Nat.exists_eq_add_one_of_ne_zero (Nat.pos_iff_ne_zero.mp (scanTag_pos found))
        subst bracket
        rw [List.take_succ_cons] at same
        cases same
      · rw [scanTag_other bracket] at found
        cases found

/-- The second pass finds what the first one found, up to the first tag that is revealed. -/
theorem neutralizeTags_again_iff (t : Text) :
    neutralizeTags (neutralizeTags t) = neutralizeTags t ↔
      ∀ markup rest, revealed? t = some (markup, rest) →
        markup.isAllowed ∧ neutralizeTags rest = rest := by
  unfold revealed?
  fun_induction neutralizeTags t with
  | case1 => simp [neutralizeTags, givenUp]
  | case2 c cs missed ih =>
    rw [givenUp, missed]
    dsimp only
    -- the character is written as it is, so the second pass starts at it too
    rw [List.findSome?_cons, neutralizeTags_cons missed]
    cases found : scanTag (c :: neutralizeTags cs) with
    | none =>
      rw [neutralizeTags_cons found, List.cons_inj_right, ih]
      rfl
    | some pair =>
      obtain ⟨markup, n⟩ := pair
      rw [neutralizeTags_eq_self_iff found]
      simp
  | case3 c cs markup n found written ih =>
    rw [givenUp, found]
    dsimp only
    rw [← ih]
    -- what is allowed is found again, and what is escaped has no bracket left
    by_cases allowed : markup.isAllowed
    · have length : written.length = n := List.length_take_of_le (scanTag_le found)
      have again := scanTag_take_append found (neutralizeTags (cs.drop (n - 1)))
      rw [if_pos allowed, neutralizeTags_eq_self_iff again, and_iff_right allowed,
        List.drop_left' length]
    · rw [if_neg allowed, neutralizeTags_append (bracket_notMem_escapeText written),
        List.append_cancel_left_eq]

/-- Neutralizing twice is neutralizing once if what is first revealed is allowed and stays as it is
with all that follows it, and so if no bracket was blocked. -/
theorem neutralizeTags_idempotent_iff (s : Text) :
    (neutralizeTags (neutralizeTags s) = neutralizeTags s ↔
      ∀ markup rest, revealed? s = some (markup, rest) →
        markup.isAllowed ∧ neutralizeTags rest = rest) ∧
    ((∀ u ∈ givenUp s, ¬ Blocked u) → neutralizeTags (neutralizeTags s) = neutralizeTags s) := by
  refine ⟨neutralizeTags_again_iff s, fun free => (neutralizeTags_again_iff s).mpr ?_⟩
  intro markup rest revealed
  obtain ⟨u, member, found⟩ := List.exists_of_findSome?_eq_some revealed
  obtain ⟨pair, found, _⟩ := Option.map_eq_some_iff.mp found
  exact absurd (blocked_of_revealed (scanTag_givenUp member) (Option.isSome_of_eq_some found))
    (free u member)

/-- The tag that is revealed is allowed, so that it stays as it is. -/
theorem neutralizeTags_idempotent_bold :
    let s := "<b <x>> <i>".toList
    neutralizeTags s = "<b &lt;x&gt;> <i>".toList ∧
      revealed? s = some (.tag ['b'], " <i>".toList) ∧
      neutralizeTags (neutralizeTags s) = neutralizeTags s := by
  have revealed : revealed? "<b <x>> <i>".toList = some (.tag ['b'], " <i>".toList) := by
    decide +kernel
  refine ⟨by decide +kernel, revealed, (neutralizeTags_idempotent_iff _).1.mpr ?_⟩
  rintro markup rest found
  rw [revealed] at found
  cases found
  decide +kernel

/-- The tag that is revealed is not allowed, and escaped by the second pass. -/
theorem blocked_tag_escaped :
    neutralizeTags "<x <y>>".toList = "<x &lt;y&gt;>".toList ∧
      ¬ ∀ s : Text, neutralizeTags (neutralizeTags s) = neutralizeTags s := by
  have once : neutralizeTags "<x <y>>".toList = "<x &lt;y&gt;>".toList := by decide +kernel
  refine ⟨once, fun idempotent => ?_⟩
  have twice := idempotent "<x <y>>".toList
  rw [once] at twice
  exact absurd twice (by decide +kernel)

end CommentMarkup
