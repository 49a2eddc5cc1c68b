import CommentMarkup.Text.Ink

/-!
# Shapes of lines

What a single line can be on its own: a fence, a line of indented code, the place of the outline, a
rule, a heading, an underline or a quoted line.
-/

namespace CommentMarkup

/-- The word after the fence that opens a code block, if the line opens one. A line with a fence
character after the fence holds inline code instead. -/
def openFence? (fence line : Text) : Option (Option Text) :=
  match fence with
  | [] => none
  | mark :: _ =>
    match Text.dropLead? fence line.trimStart with
    | none => none
    | some rest => if rest.contains mark then none else some rest.words.head?

def isClosingFence (fence line : Text) : Bool := line.trim == fence

def isTabbed (line : Text) : Bool := Text.startsWith (· == '\t') line

def codeIndent : Text := List.replicate 4 ' '

/-- A line with content after a tab or four spaces. -/
def isCodeLine (line : Text) : Bool :=
  !line.isBlank && (isTabbed line || codeIndent.isPrefixOf line)

/-- The line without a tab or four spaces at its start. -/
def dropCodeIndent (line : Text) : Text :=
  if isTabbed line then line.drop 1 else (Text.dropLead? codeIndent line).getD line

def isOutlineLine (line : Text) : Bool :=
  let word := line.trim.toLower
  word == "[toc]".toList || word == "![toc]".toList

/-- Three or more of one of `-`, `_` and `*`, with any white space between them. -/
def isRule (line : Text) : Bool :=
  let ink := line.filter fun c => !isSpace c
  3 ≤ ink.length && (ink.all (· == '-') || ink.all (· == '_') || ink.all (· == '*'))

/-- The text of a heading line after its opening number signs. A closing run of number signs counts
only when it is set off from the text. -/
def headingText (rest : Text) : Text :=
  let text := rest.trim
  let unclosed := text.dropEndWhile (· == '#')
  if unclosed.isEmpty then []
  else if unclosed.endsWith isIndent then unclosed.trimEnd
  else text

/-- Level and text of a heading that one to six number signs open. -/
def heading? (line : Text) : Option (Nat × Text) :=
  let trimmed := line.trimStart
  let level := (trimmed.takeWhile (· == '#')).length
  let rest : Text := trimmed.drop level
  if level = 0 ∨ 6 < level ∨ !rest.endsOr isIndent then none else some (level, headingText rest)

/-- The level of the heading that the line underlines: one for equals signs, two for two or more
hyphens. -/
def underline? (line : Text) : Option Nat :=
  let word := line.trim
  if !word.isEmpty && word.all (· == '=') then some 1
  else if 2 ≤ word.length && word.all (· == '-') then some 2
  else none

def isQuoteLine (line : Text) : Bool := line.trimStart.startsWith (· == '>')

/-- The line without its quote mark and one space after it. -/
def dropQuoteMark (line : Text) : Text :=
  let rest : Text := if isQuoteLine line then line.trimStart.drop 1 else line
  if rest.startsWith (· == ' ') then rest.drop 1 else rest

end CommentMarkup
