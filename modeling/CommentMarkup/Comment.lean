import CommentMarkup.Marker
import CommentMarkup.Text.Lines

/-!
# Documentation comments

The texts of the documentation comments in a source. A comment whose opening the marker accepts is a
documentation comment; of its lines those count that start with an asterisk, which is taken away. A
comment on a single line counts as it stands.
-/

namespace CommentMarkup

/-! ### Openings -/

/-- The length of the rest of a character literal after its opening quote. Only literals of ASCII
characters are recognised. -/
def charLiteralRest : Text → Nat
  | '\\' :: c :: '\'' :: _ => if c.toNat < 128 then 3 else 0
  | '\\' :: _ => 0
  | c :: '\'' :: _ => if c.toNat < 128 then 2 else 0
  | _ => 0

/-- The number of characters before the first comment opening outside string and character literals,
unless a line comment comes first. -/
def openingIndex? (inString : Bool) : Text → Option Nat
  | [] => none
  | c :: cs =>
    if inString then
      if c = '\\' then (openingIndex? true (cs.drop 1)).map (· + 2)
      else (openingIndex? (c != '"') cs).map (· + 1)
    else if c = '"' then (openingIndex? true cs).map (· + 1)
    else if c = '\'' then
      let n := charLiteralRest cs
      (openingIndex? false (cs.drop n)).map (· + (n + 1))
    else if c = '/' then
      match cs.head? with
      | some '/' => none
      | some '*' => some 0
      | _ => (openingIndex? false cs).map (· + 1)
    else (openingIndex? false cs).map (· + 1)
termination_by t => t.length
decreasing_by all_goals simp only [List.length_cons, List.length_drop]; omega

/-! ### Bodies -/

def commentClose : Text := ['*', '/']

/-- The line after its decorating asterisk, if it has one. -/
def undecorated? (line : Text) : Option Text :=
  match line.trimStart with
  | '*' :: rest => some rest
  | _ => none

/-- The lines of a comment up to its end, without decoration, and what is left to look at: the rest
of the closing line and the lines after it. -/
def bodyLines : List Text → List Text × List Text
  | [] => ([], [])
  | l :: ls =>
    match Text.find? commentClose l with
    | some n => ((undecorated? (l.take n)).toList, l.drop (n + 2) :: ls)
    | none =>
      let (body, rest) := bodyLines ls
      ((undecorated? l).toList ++ body, rest)

def trimLines (ls : List Text) : List Text :=
  ((ls.dropWhile Text.isBlank).reverse.dropWhile Text.isBlank).reverse

/-- The text of a comment with `first` after its opening and `body` on the lines below. -/
def commentText (first : Text) (body : List Text) : Text :=
  unlines (trimLines (first :: body))

/-- The characters in lines and the lines themselves, counted together. -/
def extent (ls : List Text) : Nat := sumOver (fun l => l.length + 1) ls

theorem extent_bodyLines_le (ls : List Text) : extent (bodyLines ls).2 ≤ extent ls := by
  induction ls with
  | nil => simp [bodyLines]
  | cons l ls ih =>
    unfold bodyLines
    split
    · simp only [extent, sumOver, List.length_drop]
      omega
    · simp only [extent, sumOver] at ih ⊢
      omega

/-! ### Extraction -/

theorem openingIndex?_lt {inString : Bool} {t : Text} {n : Nat}
    (h : openingIndex? inString t = some n) : n < t.length := by
  fun_induction openingIndex? inString t generalizing n with
  | case1 | case6 => cases h
  | case7 =>
    cases h
    simp
  | case2 cs ih =>
    obtain ⟨m, hm, rfl⟩ := Option.map_eq_some_iff.1 h
    have := ih hm
    simp only [List.length_cons, List.length_drop] at this ⊢
    omega
  | case5 =>
    rename_i ih
    obtain ⟨m, hm, rfl⟩ := Option.map_eq_some_iff.1 h
    have := ih hm
    simp only [List.length_cons, List.length_drop] at this ⊢
    omega
  | case3 c cs _ ih | case4 inString cs _ ih | case8 inString cs _ _ _ _ _ ih
  | case9 inString c cs _ _ _ _ ih =>
    obtain ⟨m, hm, rfl⟩ := Option.map_eq_some_iff.1 h
    have := ih hm
    simp only [List.length_cons]
    omega

/-- The texts of the documentation comments in the lines of a source. A comment without text is left
out. -/
def extractLines (marker : Marker) (ls : List Text) : List Text :=
  match ls with
  | [] => []
  | l :: ls =>
    match _h : openingIndex? false l with
    | none => extractLines marker ls
    | some opening =>
      let comment := l.drop opening
      match marker comment, Text.find? commentClose (comment.drop 2) with
      | none, none => extractLines marker (bodyLines ls).2
      | none, some n => extractLines marker (comment.drop (n + 4) :: ls)
      | some stop, some n =>
        let text : Text := (comment.take (n + 2)).drop (max stop 2)
        let others := extractLines marker (comment.drop (n + 4) :: ls)
        if text.isBlank then others else text :: others
      | some stop, none =>
        let text := commentText (comment.drop (max stop 2)) (bodyLines ls).1
        let others := extractLines marker (bodyLines ls).2
        if text.isEmpty then others else text :: others
termination_by extent ls
decreasing_by
  · simp only [extent, sumOver]
    omega
  · have := extent_bodyLines_le ls
    simp only [extent, sumOver] at this ⊢
    omega
  · have := openingIndex?_lt _h
    simp only [extent, sumOver, List.length_drop]
    omega
  · have := openingIndex?_lt _h
    simp only [extent, sumOver, List.length_drop]
    omega
  · have := extent_bodyLines_le ls
    simp only [extent, sumOver] at this ⊢
    omega

def extract (marker : Marker) (source : Text) : List Text := extractLines marker (lines source)

end CommentMarkup
