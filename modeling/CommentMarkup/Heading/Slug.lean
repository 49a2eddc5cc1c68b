import CommentMarkup.Text.Alphanumeric
import CommentMarkup.Text.Basic
import CommentMarkup.Text.Lowercase

/-!
# Slugs

The slug of a text, and the text of a heading that its slug is made of.
-/

namespace CommentMarkup

def isSlugChar (c : Char) : Bool := isAlphanumeric c || c == '-'

/-- What a word contributes to a slug: its letters, numerals and hyphens in small letters. -/
def slugWord (word : Text) : Text := (word.filter isSlugChar).flatMap lowercase

/-- The words of the text in small letters, joined by hyphens. A word of punctuation alone leaves no
trace. -/
def slugify (t : Text) : Text :=
  List.intercalate ['-'] ((t.words.map slugWord).filter fun w => !w.isEmpty)

/-! ### Visible text of headings -/

/-- The number of characters before the `right` that closes a bracket, from inside `depth + 1`
brackets. -/
def closingIndex? (left right : Char) (depth : Nat) : Text → Option Nat
  | [] => none
  | c :: cs =>
    if c = left then (closingIndex? left right (depth + 1) cs).map (· + 1)
    else if c = right then
      match depth with
      | 0 => some 0
      | depth + 1 => (closingIndex? left right depth cs).map (· + 1)
    else (closingIndex? left right depth cs).map (· + 1)

/-- The length of the destination or label that follows the text of a link. -/
def targetLength : Text → Nat
  | '(' :: cs => ((closingIndex? '(' ')' 0 cs).map (· + 2)).getD 0
  | t =>
    let gap := (t.takeWhile (· == ' ')).length
    match t.drop gap with
    | '[' :: cs => ((closingIndex? '[' ']' 0 cs).map (· + gap + 2)).getD 0
    | _ => 0

/-- The number of characters of a tag after its `<`. An address in angle brackets is no tag. -/
def tagLength? (cs : Text) : Option Nat :=
  let inside := cs.takeWhile (· != '>')
  if Text.startsWith (fun c => c.isAlpha || c == '/') cs && inside.length < cs.length &&
    !inside.contains ':' then some (inside.length + 1)
  else none

/-- The visible text of a heading's source. Destinations, labels, footnote references and tags are
dropped. -/
def visibleText (t : Text) : Text :=
  match t with
  | [] => []
  | '\\' :: c :: cs => c :: visibleText cs
  | '!' :: '[' :: cs => visibleText ('[' :: cs)
  | '[' :: cs =>
    match _h : closingIndex? '[' ']' 0 cs with
    | none => '[' :: visibleText cs
    | some n =>
      let rest := cs.drop (n + 1)
      if Text.startsWith (· == '^') cs then visibleText rest
      else visibleText (cs.take n) ++ visibleText (rest.drop (targetLength rest))
  | '<' :: cs =>
    match tagLength? cs with
    | none => '<' :: visibleText cs
    | some n => visibleText (cs.drop n)
  | c :: cs => c :: visibleText cs
termination_by t.length
decreasing_by
  all_goals simp only [List.length_cons, List.length_drop, List.length_take]; omega

end CommentMarkup
