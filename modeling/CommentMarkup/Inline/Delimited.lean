import CommentMarkup.Options
import CommentMarkup.Tree

/-!
# Delimited text

Recognisers for what stands between delimiters: code spans, brackets, and the destination of a link.
Each gives the number of characters it takes, so that the text goes on after them.
-/

namespace CommentMarkup

/-- The text without the backslash before each escaped punctuation character. -/
def unescape : Text → Text
  | [] => []
  | '\\' :: c :: cs => if isPunctuation c then c :: unescape cs else '\\' :: unescape (c :: cs)
  | c :: cs => c :: unescape cs

def runLength (c : Char) (t : Text) : Nat := (t.takeWhile (· == c)).length

/-! ### Code spans -/

/-- The number of characters before the first run of exactly `n` backticks. -/
def ticksIndex? (n : Nat) : Text → Option Nat
  | [] => none
  | c :: cs =>
    if c = tick then
      let run := runLength tick cs + 1
      if run = n then some 0 else (ticksIndex? n (cs.drop (run - 1))).map (· + run)
    else (ticksIndex? n cs).map (· + 1)
termination_by t => t.length
decreasing_by all_goals simp only [List.length_cons, List.length_drop]; omega

/-- The code in a code span. Line ends become spaces; a space at either end is taken away if both
ends have one and there is more than white space. -/
def codeText (inside : Text) : Text :=
  let code : Text := inside.map fun c => if c = '\n' ∨ c = '\r' then ' ' else c
  if code.startsWith (· == ' ') && code.endsWith (· == ' ') && !code.isBlank then
    (code.drop 1).dropLast
  else code

/-- The code of the code span that the text starts with, and the length of the span. Its closing run
of backticks is as long as the opening one. -/
def codeSpan? (t : Text) : Option (Text × Nat) :=
  let n := runLength tick t
  (ticksIndex? n (t.drop n)).map fun k => (codeText ((t.drop n).take k), n + k + n)

/-! ### Brackets -/

/-- The number of characters before the bracket that closes, from inside `depth + 1` open ones.
Escaped characters and code spans are passed over. -/
def bracketIndex? (depth : Nat) : Text → Option Nat
  | [] => none
  | c :: cs =>
    if c = '\\' then (bracketIndex? depth (cs.drop 1)).map (· + 2)
    else if c = '[' then (bracketIndex? (depth + 1) cs).map (· + 1)
    else if c = ']' then
      match depth with
      | 0 => some 0
      | depth + 1 => (bracketIndex? depth cs).map (· + 1)
    else if c = tick then
      match codeSpan? (c :: cs) with
      | some (_, n) => (bracketIndex? depth (cs.drop (n - 1))).map (· + n)
      | none => (bracketIndex? depth cs).map (· + 1)
    else (bracketIndex? depth cs).map (· + 1)
termination_by t => t.length
decreasing_by all_goals simp only [List.length_cons, List.length_drop]; omega

/-! ### Destinations -/

def gapLength (t : Text) : Nat := (t.takeWhile isSpace).length

/-- The length of an address that is not in angle brackets. White space ends it, and so does a
parenthesis that closes none of its own. -/
def bareUrlLength (depth : Nat) : Text → Nat
  | [] => 0
  | '\\' :: _ :: cs => bareUrlLength depth cs + 2
  | c :: cs =>
    if c = '(' then bareUrlLength (depth + 1) cs + 1
    else if c = ')' then
      match depth with
      | 0 => 0
      | depth + 1 => bareUrlLength depth cs + 1
    else if isSpace c then 0
    else bareUrlLength depth cs + 1

/-- The address that the text starts with, and its length. In angle brackets it stays as written. -/
def url? : Text → Option (Text × Nat)
  | '<' :: cs =>
    let url := cs.takeWhile fun c => c != '>' && c != '\n'
    if Text.startsWith (· == '>') (cs.drop url.length) then some (url, url.length + 2) else none
  | t =>
    let n := bareUrlLength 0 t
    some (unescape (t.take n), n)

/-- The number of characters before the first unescaped `close`. -/
def closeIndex? (close : Char) : Text → Option Nat
  | [] => none
  | '\\' :: _ :: cs => (closeIndex? close cs).map (· + 2)
  | c :: cs =>
    if c = close then some 0
    else if c = '\\' then none
    else (closeIndex? close cs).map (· + 1)

/-- The title that the text starts with, if there is one, and its length. A title that is not closed
is an error of the destination. -/
def quotedTitle? : Text → Option (Option Text × Nat)
  | [] => some (none, 0)
  | mark :: cs =>
    if mark = '"' ∨ mark = '\'' ∨ mark = '(' then
      (closeIndex? (if mark = '(' then ')' else mark) cs).map fun n =>
        (some (unescape (cs.take n)), n + 2)
    else some (none, 0)

/-- The destination that follows an opening parenthesis, and its length with the closing one. -/
def destination? (t : Text) : Option (Target × Nat) := do
  let urlStart := gapLength t
  let (url, urlLength) ← url? (t.drop urlStart)
  let urlStop := urlStart + urlLength
  let titleStart := urlStop + gapLength (t.drop urlStop)
  let (title, titleLength) ← quotedTitle? (t.drop titleStart)
  let titleStop := titleStart + titleLength
  let stop := titleStop + gapLength (t.drop titleStop)
  if Text.startsWith (· == ')') (t.drop stop) then some (⟨url, title⟩, stop + 1) else none

end CommentMarkup
