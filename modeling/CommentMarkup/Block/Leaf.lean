import CommentMarkup.Line.Bullet
import CommentMarkup.Line.Definition
import CommentMarkup.Line.RawTag
import CommentMarkup.Line.Shape

/-!
# Blocks without nested blocks

How far paragraphs, quotes and code blocks reach over the lines that follow their first one, and
what they hold.
-/

namespace CommentMarkup

/-- Where lines are read. In the body of a list item or footnote there is no indented code, and any
list marker may interrupt a paragraph. -/
inductive Context
  | document
  | item
  deriving DecidableEq, Repr

/-- The list marker may start a list right after a line of a paragraph. In a document an ordered one
does so only with the number one, so that a line that starts with another number stays text. -/
def ListMarker.interrupts (ctx : Context) (m : ListMarker) : Bool :=
  ctx == .item || !m.ordered || m.number == 1

def interruptsParagraph (fence : Text) (ctx : Context) (line : Text) : Bool :=
  (openFence? fence line).isSome || (ctx == .document && isCodeLine line) || isOutlineLine line ||
    (rawTag? line).isSome || (definitionLine? line).isSome || isRule line ||
    (heading? line).isSome || isQuoteLine line ||
    (listMarker? line).any (ListMarker.interrupts ctx)

/-! ### Paragraphs -/

/-- The text of a paragraph: its lines without leading white space, and without white space at the
very end. Spaces at the end of other lines stay, since they may break the line. -/
def paragraphText (ls : List Text) : Text := (unlines (ls.map Text.trimStart)).trimEnd

/-- The number of lines that continue a paragraph. A line with an underline below it is a heading
and does not. -/
def paragraphExtent (fence : Text) (ctx : Context) : List Text → Nat
  | [] => 0
  | l :: ls =>
    if l.isBlank || interruptsParagraph fence ctx l || (ls.head?.bind underline?).isSome then 0
    else paragraphExtent fence ctx ls + 1

def paragraph (ls : List Text) : Block := .paragraph (.unread (paragraphText ls))

/-! ### Quotes -/

/-- The lines of a quote without their marks. An unmarked line continues the quote if the line
before it has text, which `inText` tells; a blank line ends it. -/
def quoteLines (fence : Text) (inText : Bool) : List Text → List Text
  | [] => []
  | l :: ls =>
    if isQuoteLine l then
      let rest := dropQuoteMark l
      rest :: quoteLines fence (!rest.isBlank) ls
    else if l.isBlank || !inText || interruptsParagraph fence .document l then []
    else l :: quoteLines fence true ls

/-- The paragraphs of a quote, which blank lines separate. -/
def quoteParagraphs (ls : List Text) : List Block :=
  ((cutAt Text.isBlank ls).filter fun group => !group.isEmpty).map paragraph

/-! ### Code -/

def literalText (ls : List Text) : Text := ls.flatMap (· ++ ['\n'])

/-- The line continues indented code of the given kind. Tabs and spaces do not mix. -/
def continuesCode (tabbed : Bool) (line : Text) : Bool := isCodeLine line && isTabbed line == tabbed

/-- The lines of indented code: blank lines between code lines belong to it, those after it do
not. -/
def codeLines (tabbed : Bool) (ls : List Text) : List Text :=
  let run := ls.takeWhile fun l => l.isBlank || continuesCode tabbed l
  ((run.reverse.dropWhile Text.isBlank).reverse).map fun l =>
    if l.isBlank then [] else dropCodeIndent l

end CommentMarkup
