import CommentMarkup.Comment
import CommentMarkup.Proofs.Text.Cut
import Mathlib

/-!
# Extraction from joined sources

What is extracted after a comment depends on the rest of its last line and on the lines below alone.
So two sources on top of each other hold the comments of each, unless the first one ends inside a
comment: `extractLines_append`.
-/

namespace CommentMarkup

/-! ### Steps -/

def shortText? (marker : Marker) (comment : Text) (n : Nat) : Option Text :=
  (marker comment).bind fun stop =>
    let text : Text := (comment.take (n + 2)).drop (max stop 2)
    if text.isBlank then none else some text

def longText? (marker : Marker) (comment : Text) (body : List Text) : Option Text :=
  (marker comment).bind fun stop =>
    let text := commentText (comment.drop (max stop 2)) body
    if text.isEmpty then none else some text

section Steps

variable (marker : Marker) {l : Text} {opening n : Nat}

theorem extractLines_nil : extractLines marker [] = [] := by rw [extractLines]

theorem extractLines_code (code : openingIndex? false l = none) (ls : List Text) :
    extractLines marker (l :: ls) = extractLines marker ls := by
  rw [extractLines]
  split
  · rfl
  · rename_i found
    rw [code] at found
    cases found

theorem extractLines_short (opens : openingIndex? false l = some opening)
    (closes : Text.find? commentClose (l.drop (opening + 2)) = some n) (ls : List Text) :
    extractLines marker (l :: ls) =
      (shortText? marker (l.drop opening) n).toList ++
        extractLines marker (l.drop (opening + n + 4) :: ls) := by
  have rest : (l.drop opening).drop (n + 4) = l.drop (opening + n + 4) := by
    rw [List.drop_drop, Nat.add_assoc]
  rw [extractLines, shortText?]
  split
  · rename_i none
    rw [opens] at none
    cases none
  · rename_i found
    rw [opens] at found
    cases found
    dsimp only
    rw [List.drop_drop, closes]
    cases marker (l.drop opening) with
    | none =>
      dsimp only [Option.bind_none]
      rw [rest]
      rfl
    | some stop =>
      dsimp only [Option.bind_some]
      rw [rest]
      split <;> rfl

theorem extractLines_long (opens : openingIndex? false l = some opening)
    (goesOn : Text.find? commentClose (l.drop (opening + 2)) = none) (ls : List Text) :
    extractLines marker (l :: ls) =
      (longText? marker (l.drop opening) (bodyLines ls).1).toList ++
        extractLines marker (bodyLines ls).2 := by
  rw [extractLines, longText?]
  split
  · rename_i none
    rw [opens] at none
    cases none
  · rename_i found
    rw [opens] at found
    cases found
    dsimp only
    rw [List.drop_drop, goesOn]
    cases marker (l.drop opening) with
    | none => rfl
    | some stop =>
      dsimp only [Option.bind_some]
      split <;> rfl

end Steps

/-! ### Ends of comments -/

def closesComment (l : Text) : Bool := (Text.find? commentClose l).isSome

/-- Every comment in the lines has its end there. Whether it is a documentation comment makes no
difference. -/
def endsOutside : List Text → Bool
  | [] => true
  | l :: ls =>
    match _h : openingIndex? false l with
    | none => endsOutside ls
    | some opening =>
      match Text.find? commentClose (l.drop (opening + 2)) with
      | some n => endsOutside (l.drop (opening + n + 4) :: ls)
      | none => ls.any closesComment && endsOutside (bodyLines ls).2
termination_by ls => extent ls
decreasing_by
  · simp only [extent, sumOver]
    omega
  · have := openingIndex?_lt _h
    simp only [extent, sumOver, List.length_drop]
    omega
  · have := extent_bodyLines_le ls
    simp only [extent, sumOver] at this ⊢
    omega

section Ends

variable {l : Text} {opening n : Nat}

theorem endsOutside_nil : endsOutside [] := by rw [endsOutside]

theorem endsOutside_code (code : openingIndex? false l = none) (ls : List Text) :
    endsOutside (l :: ls) = endsOutside ls := by
  rw [endsOutside]
  split
  · rfl
  · rename_i found
    rw [code] at found
    cases found

theorem endsOutside_open (opens : openingIndex? false l = some opening) (ls : List Text) :
    endsOutside (l :: ls) =
      match Text.find? commentClose (l.drop (opening + 2)) with
      | some n => endsOutside (l.drop (opening + n + 4) :: ls)
      | none => ls.any closesComment && endsOutside (bodyLines ls).2 := by
  rw [endsOutside]
  split
  · rename_i none
    rw [opens] at none
    cases none
  · rename_i found
    rw [opens] at found
    cases found
    rfl

end Ends

/-- The lines below the end of a comment are not looked at before it. -/
theorem bodyLines_append {ls : List Text} (closes : ls.any closesComment) (more : List Text) :
    bodyLines (ls ++ more) = ((bodyLines ls).1, (bodyLines ls).2 ++ more) := by
  induction ls with
  | nil => cases closes
  | cons l ls ih =>
    rw [List.cons_append, bodyLines, bodyLines]
    cases here : Text.find? commentClose l with
    | some n => rfl
    | none =>
      have later : ls.any closesComment := by simpa [closesComment, here] using closes
      rw [ih later]

theorem extractLines_append (marker : Marker) {ls : List Text} (outside : endsOutside ls)
    (more : List Text) :
    extractLines marker (ls ++ more) = extractLines marker ls ++ extractLines marker more := by
  fun_induction endsOutside ls with
  | case1 => rw [extractLines_nil, List.nil_append, List.nil_append]
  | case2 l ls code ih =>
    rw [List.cons_append, extractLines_code marker code, extractLines_code marker code, ih outside]
  | case3 l ls opening opens n closes ih =>
    rw [List.cons_append, extractLines_short marker opens closes,
      extractLines_short marker opens closes, ← List.cons_append, ih outside, List.append_assoc]
  | case4 l ls opening opens goesOn ih =>
    rw [Bool.and_eq_true] at outside
    rw [List.cons_append, extractLines_long marker opens goesOn,
      extractLines_long marker opens goesOn, bodyLines_append outside.1, ih outside.2,
      List.append_assoc]

/-! ### Sources -/

/-- Of two sources on top of each other, the first of which ends neither inside a comment nor with a
carriage return, the comments of each are extracted and nothing else. -/
theorem extract_append (marker : Marker) {source : Text}
    (bare : source.endsWith (· == '\r') = false) (outside : endsOutside (lines source))
    (more : Text) :
    extract marker (source ++ '\n' :: more) = extract marker source ++ extract marker more := by
  have split : lines (source ++ '\n' :: more) = lines (source ++ ['\n']) ++ lines more := by
    rw [lines_join, lines_join, lines, List.append_nil]
  rw [extract, split, extract, extract]
  rcases lines_end bare with same | ended
  · rw [same, extractLines_append marker outside]
  · have empty : openingIndex? false [] = none := by rw [openingIndex?]
    rw [ended, List.append_assoc, extractLines_append marker outside, List.singleton_append,
      extractLines_code marker empty]

def joinSample : Text := "/* a\n */ f();".toList

def doubleStar : Marker := fun comment => if "/**".toList.isPrefixOf comment then some 3 else none

theorem extract_append_sample :
    joinSample.endsWith (· == '\r') = false ∧ endsOutside (lines joinSample) ∧
      extract doubleStar (joinSample ++ '\n' :: "/** c */".toList) =
        extract doubleStar joinSample ++ extract doubleStar "/** c */".toList := by
  have bare : joinSample.endsWith (· == '\r') = false := by decide
  have cut : lines joinSample = ["/* a".toList, " */ f();".toList] := by decide
  have code : endsOutside [" f();".toList] := by
    rw [endsOutside_code (by cbv)]
    exact endsOutside_nil
  have outside : endsOutside (lines joinSample) := by
    have opening : openingIndex? false "/* a".toList = some 0 := by cbv
    rw [cut, endsOutside_open opening]
    exact code
  exact ⟨bare, outside, extract_append doubleStar bare outside _⟩

end CommentMarkup
