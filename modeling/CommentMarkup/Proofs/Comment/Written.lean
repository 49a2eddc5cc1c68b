import CommentMarkup.Proofs.Comment.Extraction
import CommentMarkup.Render
import Mathlib

/-!
# Written comments

Lines written into documentation comments, with code around them, are extracted as they were:
`comments_commentedSource`. A line may hold anything but the end of a comment, which it must not
make together with the asterisk in front either.
-/

namespace CommentMarkup

/-! ### Writing -/

def decorated (l : Text) : Text := ' ' :: '*' :: l

def commentLines (body : List Text) : List Text :=
  "/**".toList :: (body.map decorated ++ [" */".toList])

/-- A source with lines of code before each of the comments and after the last one. -/
def commentedSource (parts : List (List Text × List Text)) (after : List Text) : Text :=
  unlines (parts.flatMap (fun part => part.1 ++ commentLines part.2) ++ after)

structure CodeLine (l : Text) : Prop where
  whole : '\n' ∉ l
  code : openingIndex? false l = none

/-- A line that an asterisk in front and a line feed behind leave as it is. -/
structure FitsComment (l : Text) : Prop where
  whole : '\n' ∉ l
  unclosed : Text.find? commentClose l = none
  noSlash : l.startsWith (· == '/') = false
  bare : l.endsWith (· == '\r') = false

/-- The lines of a text that a documentation comment can hold. -/
structure CommentBody (body : List Text) : Prop where
  fits : ∀ l ∈ body, FitsComment l
  first : ∃ l, body.head? = some l ∧ l.isBlank = false
  last : ∃ l, body.getLast? = some l ∧ l.isBlank = false

/-! ### Lines of code -/

theorem exists_of_concat_eq {rest t : Text} {c : Char} (front : Text)
    (last : front.getLast? ≠ some c) (eq : t ++ [c] = front ++ rest) :
    ∃ rest', t = front ++ rest' := by
  have lead : front <+: t ++ [c] := ⟨rest, eq.symm⟩
  rcases List.prefix_concat_iff.mp lead with whole | ⟨rest', eq'⟩
  · exact absurd (by rw [whole, List.getLast?_concat]) last
  · exact ⟨rest', eq'.symm⟩

/-- A carriage return is no part of a character literal. -/
theorem charLiteralRest_concat (t : Text) :
    charLiteralRest (t ++ ['\r']) = charLiteralRest t := by
  fun_cases charLiteralRest t with
  | case1 c tail ascii => exact (charLiteralRest.eq_1 c _).trans (if_pos ascii)
  | case2 c tail ascii => exact (charLiteralRest.eq_1 c _).trans (if_neg ascii)
  | case3 tail other =>
    refine charLiteralRest.eq_2 _ fun c rest eq => ?_
    obtain ⟨rest', same⟩ := exists_of_concat_eq [c, '\''] (by simp) eq
    exact other c rest' same
  | case4 c tail _ plain ascii =>
    refine (charLiteralRest.eq_3 c _ (fun rest same => ?_) plain).trans (if_pos ascii)
    exact absurd same plain
  | case5 c tail _ plain ascii =>
    refine (charLiteralRest.eq_3 c _ (fun rest same => ?_) plain).trans (if_neg ascii)
    exact absurd same plain
  | case6 t escaped lone plain =>
    refine charLiteralRest.eq_4 _ ?_ ?_ ?_
    · intro c rest eq
      obtain ⟨rest', same⟩ := exists_of_concat_eq ['\\', c, '\''] (by simp) eq
      exact escaped c rest' same
    · intro rest eq
      obtain ⟨rest', same⟩ := exists_of_concat_eq ['\\'] (by simp) eq
      exact lone rest' same
    · intro c rest eq
      obtain ⟨rest', same⟩ := exists_of_concat_eq [c, '\''] (by simp) eq
      exact plain c rest' same

theorem charLiteralRest_le (t : Text) : charLiteralRest t ≤ t.length := by
  fun_cases charLiteralRest t <;> simp

theorem openingIndex?_return (inString : Bool) : openingIndex? inString ['\r'] = none := by
  cases inString <;> cbv

theorem openingIndex?_nil (inString : Bool) : openingIndex? inString [] = none := by
  rw [openingIndex?]

/-- A carriage return at the end of a line makes no difference to its opening. -/
theorem openingIndex?_concat (inString : Bool) (l : Text) :
    openingIndex? inString (l ++ ['\r']) = openingIndex? inString l := by
  fun_induction openingIndex? inString l with
  | case1 inString => exact openingIndex?_return inString
  | case2 cs ih =>
    have rest : openingIndex? true ((cs ++ ['\r']).drop 1) = openingIndex? true (cs.drop 1) := by
      cases cs with
      | nil => rw [List.nil_append, List.drop_one, List.tail_cons, List.drop_nil]
      | cons d cs => exact ih
    rw [List.cons_append, openingIndex?, if_pos rfl, if_pos rfl, rest]
  | case3 c cs plain ih => rw [List.cons_append, openingIndex?, if_pos rfl, if_neg plain, ih]
  | case4 inString cs outside ih =>
    rw [List.cons_append, openingIndex?, if_neg outside, if_pos rfl, ih]
  | case5 inString cs outside n _ ih =>
    have rest : (cs ++ ['\r']).drop (charLiteralRest cs) = cs.drop n ++ ['\r'] :=
      List.drop_append_of_le_length (charLiteralRest_le cs)
    rw [List.cons_append, openingIndex?, if_neg outside, if_neg (by decide), if_pos rfl]
    dsimp only
    rw [charLiteralRest_concat, rest, ih]
  | case6 inString cs outside slash | case7 inString cs outside slash =>
    obtain ⟨rest, rfl⟩ := List.head?_eq_some_iff.mp slash
    rw [List.cons_append, openingIndex?, if_neg outside, if_neg (by decide), if_neg (by decide),
      if_pos rfl]
    rfl
  | case8 inString cs outside noLine noBlock _ _ ih =>
    rw [List.cons_append, openingIndex?, if_neg outside, if_neg (by decide), if_neg (by decide),
      if_pos rfl]
    cases cs with
    | nil => rw [← ih]; rfl
    | cons d cs =>
      split
      · rename_i same; exact absurd same noLine
      · rename_i same; exact absurd same noBlock
      · rw [ih]
  | case9 inString c cs outside quote char slash ih =>
    rw [List.cons_append, openingIndex?, if_neg outside, if_neg quote, if_neg char, if_neg slash, ih]

theorem CodeLine.dropReturn {l : Text} (line : CodeLine l) :
    openingIndex? false l.dropReturn = none := by
  rw [Text.dropReturn]
  split
  · rename_i returns
    obtain ⟨u, c, rfl, same⟩ := Text.endsWith_iff.mp returns
    rw [beq_iff_eq.mp same] at line
    rw [List.dropLast_concat, ← openingIndex?_concat]
    exact line.code
  · exact line.code

/-! ### Lines of a source -/

/-- Filled lines without carriage returns at their ends are found again, whatever stands below. -/
theorem lines_unlines_append {front : List Text} (whole : ∀ l ∈ front, '\n' ∉ l)
    (filled : ∀ l ∈ front, l ≠ []) (bare : ∀ l ∈ front, l.endsWith (· == '\r') = false)
    (ls : List Text) : lines (unlines (front ++ ls)) = front ++ lines (unlines ls) := by
  induction front with
  | nil => rfl
  | cons l front ih =>
    rw [List.forall_mem_cons] at whole filled bare
    have rest := ih whole.2 filled.2 bare.2
    cases more : front ++ ls with
    | nil =>
      obtain ⟨rfl, rfl⟩ := List.append_eq_nil_iff.mp more
      exact (congrArg lines (unlines_singleton l)).trans (lines_singleton whole.1 filled.1)
    | cons l' ls' =>
      rw [more] at rest
      rw [List.cons_append, more, lines_unlines_cons whole.1, rest, Text.dropReturn_bare bare.1]
      rfl

/-! ### Decoration -/

theorem forall_commentLines {p : Text → Prop} {body : List Text} (opening : p "/**".toList)
    (each : ∀ l ∈ body, p (decorated l)) (closing : p " */".toList) :
    ∀ l ∈ commentLines body, p l := by
  intro l member
  rcases List.mem_cons.mp member with rfl | member
  · exact opening
  rcases List.mem_append.mp member with inner | last
  · obtain ⟨m, inside, rfl⟩ := List.mem_map.mp inner
    exact each m inside
  · rw [List.mem_singleton.mp last]
    exact closing

theorem undecorated?_decorated (l : Text) : undecorated? (decorated l) = some l := rfl

theorem FitsComment.decorated_unclosed {l : Text} (fits : FitsComment l) :
    Text.find? commentClose (decorated l) = none := by
  have unclosed : commentClose.isPrefixOf ('*' :: l) = false := by
    cases l with
    | nil => rfl
    | cons c l =>
      have other : ('/' == c) = false := by
        rw [beq_eq_false_iff_ne]
        rintro rfl
        cases fits.noSlash
      rw [commentClose, List.isPrefixOf, List.isPrefixOf, other]
      rfl
  have space : commentClose.isPrefixOf (' ' :: '*' :: l) = false := rfl
  rw [decorated, Text.find?, space, Text.find?, unclosed, fits.unclosed]
  rfl

theorem FitsComment.decorated_whole {l : Text} (fits : FitsComment l) : '\n' ∉ decorated l := by
  simpa [decorated] using fits.whole

theorem FitsComment.decorated_bare {l : Text} (fits : FitsComment l) :
    (decorated l).endsWith (· == '\r') = false := by
  cases l with
  | nil => rfl
  | cons c l =>
    rw [decorated, Text.endsWith_cons (by simp), Text.endsWith_cons (by simp)]
    exact fits.bare

/-- The closing line of a written comment holds nothing. -/
theorem bodyLines_commentLines {body : List Text} (fits : ∀ l ∈ body, FitsComment l)
    (ls : List Text) :
    bodyLines (body.map decorated ++ " */".toList :: ls) = (body, [] :: ls) := by
  induction body with
  | nil => rfl
  | cons l body ih =>
    rw [List.forall_mem_cons] at fits
    rw [List.map_cons, List.cons_append, bodyLines, fits.1.decorated_unclosed, ih fits.2,
      undecorated?_decorated]
    rfl

theorem CommentBody.trimLines {body : List Text} (text : CommentBody body) :
    trimLines body = body := by
  obtain ⟨first, starts, filled⟩ := text.first
  obtain ⟨last, ends, filled'⟩ := text.last
  obtain ⟨rest, rfl⟩ := List.head?_eq_some_iff.mp starts
  obtain ⟨front, eq⟩ := List.getLast?_eq_some_iff.mp ends
  rw [CommentMarkup.trimLines, List.dropWhile_cons_of_neg (by simp [filled]), eq,
    List.reverse_append, List.reverse_singleton, List.singleton_append,
    List.dropWhile_cons_of_neg (by simp [filled']), List.reverse_cons, List.reverse_reverse]

theorem CommentBody.commentText {body : List Text} (text : CommentBody body) :
    commentText [] body = unlines body := by
  have skipped : CommentMarkup.trimLines ([] :: body) = CommentMarkup.trimLines body := by
    rw [CommentMarkup.trimLines, List.dropWhile_cons_of_pos rfl]
    rfl
  rw [CommentMarkup.commentText, skipped, text.trimLines]

theorem CommentBody.filled {body : List Text} (text : CommentBody body) :
    (unlines body).isEmpty = false := by
  obtain ⟨first, starts, filled⟩ := text.first
  obtain ⟨rest, rfl⟩ := List.head?_eq_some_iff.mp starts
  cases first with
  | nil => cases filled
  | cons c first =>
    cases rest with
    | nil => rfl
    | cons l rest =>
      rw [unlines_cons_cons]
      rfl

/-! ### Extraction -/

section Extraction

variable {marker : Marker}

theorem extract_code {l : Text} (line : CodeLine l) (ls : List Text) :
    extract marker (unlines (l :: ls)) = extract marker (unlines ls) := by
  cases ls with
  | nil =>
    rw [unlines_singleton]
    cases l with
    | nil => rfl
    | cons c l =>
      rw [extract, lines_singleton line.whole (by simp), extractLines_code marker line.code]
      rfl
  | cons l' ls =>
    rw [extract, lines_unlines_cons line.whole, extractLines_code marker line.dropReturn]
    rfl

theorem extract_codeLines {code : List Text} (each : ∀ l ∈ code, CodeLine l) (ls : List Text) :
    extract marker (unlines (code ++ ls)) = extract marker (unlines ls) := by
  induction code with
  | nil => rfl
  | cons l code ih =>
    rw [List.forall_mem_cons] at each
    rw [List.cons_append, extract_code each.1, ih each.2]

theorem extract_comment (opens : marker "/**".toList = some 3) {body : List Text}
    (text : CommentBody body) (ls : List Text) :
    extract marker (unlines (commentLines body ++ ls)) =
      unlines body :: extract marker (unlines ls) := by
  have whole : ∀ l ∈ commentLines body, '\n' ∉ l :=
    forall_commentLines (by decide) (fun l inside => (text.fits l inside).decorated_whole)
      (by decide)
  have bare : ∀ l ∈ commentLines body, l.endsWith (· == '\r') = false :=
    forall_commentLines (by decide) (fun l inside => (text.fits l inside).decorated_bare)
      (by decide)
  have filled : ∀ l ∈ commentLines body, l ≠ [] :=
    forall_commentLines (by decide) (fun _ _ => List.cons_ne_nil _ _) (by decide)
  have opening : openingIndex? false "/**".toList = some 0 := by cbv
  have below := bodyLines_commentLines text.fits (lines (unlines ls))
  have comment : longText? marker "/**".toList body = some (unlines body) := by
    rw [longText?, opens]
    dsimp only [Option.bind_some]
    rw [show List.drop (max 3 2) "/**".toList = [] from rfl, text.commentText, text.filled]
    rfl
  rw [extract, lines_unlines_append whole filled bare, commentLines, List.cons_append,
    List.append_assoc, List.singleton_append,
    extractLines_long marker opening (by decide), below, List.drop_zero, comment,
    extractLines_code marker (openingIndex?_nil false)]
  rfl

theorem extract_commentedSource (opens : marker "/**".toList = some 3)
    {parts : List (List Text × List Text)} {after : List Text}
    (texts : ∀ part ∈ parts, CommentBody part.2) (code : ∀ part ∈ parts, ∀ l ∈ part.1, CodeLine l)
    (rest : ∀ l ∈ after, CodeLine l) :
    extract marker (commentedSource parts after) = parts.map fun part => unlines part.2 := by
  induction parts with
  | nil =>
    have none : extract marker (unlines (after ++ [])) = _ := extract_codeLines rest []
    rw [List.append_nil] at none
    rw [commentedSource, List.flatMap_nil, List.nil_append, none]
    exact extractLines_nil marker
  | cons part parts ih =>
    rw [List.forall_mem_cons] at texts code
    rw [commentedSource, List.flatMap_cons, List.append_assoc, List.append_assoc,
      extract_codeLines code.1, extract_comment opens texts.1, List.map_cons]
    exact congrArg _ (ih texts.2 code.2)

end Extraction

def doubleStarPattern : Pattern :=
  let character (c : Char) : Pattern := .char (Pattern.single false c)
  let opening : Pattern :=
    .sequence (character '/') (.sequence (character '*') (.sequence (character '*') .empty))
  .sequence .textStart (.sequence opening .empty)

theorem ofText?_default :
    Marker.ofText? Options.default.marker = some doubleStarPattern.find? := by
  have written : Pattern.ofText? ("^(?:".toList ++ Options.default.marker ++ ")".toList) =
      some doubleStarPattern := rfl
  rw [Marker.ofText?, written]
  rfl

theorem find?_doubleStarPattern : doubleStarPattern.find? "/**".toList = some 3 := by cbv

/-- With the default marker, of comments written with any lines of code around them the texts are
extracted, in order. -/
theorem comments_commentedSource {parts : List (List Text × List Text)} {after : List Text}
    (texts : ∀ part ∈ parts, CommentBody part.2) (code : ∀ part ∈ parts, ∀ l ∈ part.1, CodeLine l)
    (rest : ∀ l ∈ after, CodeLine l) :
    comments Options.default (commentedSource parts after) =
      .ok (parts.map fun part => unlines part.2) := by
  rw [comments, ofText?_default]
  exact congrArg _ (extract_commentedSource find?_doubleStarPattern texts code rest)

def writtenSample : List Text × List Text :=
  (["f('\"');".toList], [" /* \"a".toList, [], "* // b".toList])

theorem comments_commentedSource_sample :
    CodeLine "f('\"');".toList ∧ CommentBody writtenSample.2 ∧
      comments Options.default (commentedSource [writtenSample] [[]]) =
        .ok [" /* \"a\n\n* // b".toList] := by
  have code : CodeLine "f('\"');".toList := ⟨by decide, by cbv⟩
  have text : CommentBody writtenSample.2 := by
    refine ⟨fun l member => ?_, ⟨_, rfl, by decide⟩, ⟨_, rfl, by decide⟩⟩
    rcases List.mem_cons.mp member with rfl | member
    · constructor <;> decide
    rcases List.mem_cons.mp member with rfl | member
    · constructor <;> decide
    rw [List.mem_singleton.mp member]
    constructor <;> decide
  have found : comments Options.default (commentedSource [writtenSample] [[]]) = _ :=
    comments_commentedSource (by simpa using text)
      (by simpa [writtenSample] using code) (by simpa using ⟨by decide, openingIndex?_nil false⟩)
  exact ⟨code, text, found⟩

end CommentMarkup
