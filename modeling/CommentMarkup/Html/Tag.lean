import CommentMarkup.Html.Escape

/-!
# Tags

The tags that authors may use, a recogniser for the tag or comment at the start of a text, and
`neutralizeTags`, which escapes every tag in a text that is not allowed.
-/

namespace CommentMarkup

/-- Tags that open a raw block when they begin a line. -/
def blockTags : List Text :=
  ["blockquote", "details", "dl", "figure", "ol", "pre", "table", "ul"].map String.toList

/-- Tags that may stand inside a line. -/
def inlineTags : List Text :=
  ["a", "abbr", "b", "br", "caption", "cite", "code", "dd", "del", "dfn", "div", "dt", "em",
    "figcaption", "h1", "h2", "h3", "h4", "h5", "h6", "hr", "i", "img", "ins", "kbd", "li",
    "mark", "p", "q", "s", "samp", "small", "span", "strike", "strong", "sub", "summary", "sup",
    "tbody", "td", "tfoot", "th", "thead", "tr", "tt", "u", "var"].map String.toList

def isBlockTag (name : Text) : Bool := blockTags.contains name

def isAllowedTag (name : Text) : Bool := isBlockTag name || inlineTags.contains name

/-- What stands between `<` and `>`. -/
inductive Markup
  | comment
  /-- An opening or closing tag, with its name in small letters. -/
  | tag (name : Text)
  deriving DecidableEq, Repr

/-- Comments and allowed tags are passed through as written. -/
def Markup.isAllowed : Markup → Bool
  | .comment => true
  | .tag name => isAllowedTag name

/-- The tag name that the text starts with: a letter, then letters and digits. -/
def tagName : Text → Text
  | [] => []
  | c :: cs => if c.isAlpha then c :: cs.takeWhile Char.isAlphanum else []

/-- The number of characters up to and including the `>` that ends a tag. A `>` inside a quoted
value does not count, and a `<` outside one ends the search. -/
def tagEnd? (quote : Option Char) : Text → Option Nat
  | [] => none
  | c :: cs =>
    match quote with
    | some q => (tagEnd? (if c = q then none else some q) cs).map (· + 1)
    | none =>
      if c = '"' ∨ c = '\'' then (tagEnd? (some c) cs).map (· + 1)
      else if c = '>' then some 1
      else if c = '<' then none
      else (tagEnd? none cs).map (· + 1)

def endsTagName (c : Char) : Bool := isSpace c || c == '>' || c == '/'

/-- The tag whose name starts the text, `lead` characters after its `<`, with its length. -/
def scanTagName (lead : Nat) (t : Text) : Option (Markup × Nat) :=
  let name := tagName t
  let rest := t.drop name.length
  if name.isEmpty || !Text.startsWith endsTagName rest then none
  else (tagEnd? none rest).map fun n => (.tag (Text.toLower name), lead + name.length + n)

/-- The tag or comment that the text starts with, and its length. -/
def scanTag : Text → Option (Markup × Nat)
  | '<' :: '!' :: '-' :: '-' :: cs => (Text.find? "-->".toList cs).map fun n => (.comment, n + 7)
  | '<' :: '/' :: cs => scanTagName 2 cs
  | '<' :: cs => scanTagName 1 cs
  | _ => none

/-- The text with every tag escaped that is not allowed. Allowed tags, comments and all other text
stay as written. -/
def neutralizeTags : Text → Text
  | [] => []
  | c :: cs =>
    match scanTag (c :: cs) with
    | none => c :: neutralizeTags cs
    | some (markup, n) =>
      let written := (c :: cs).take n
      (if markup.isAllowed then written else escapeText written) ++ neutralizeTags (cs.drop (n - 1))
termination_by t => t.length
decreasing_by all_goals simp only [List.length_cons, List.length_drop]; omega

end CommentMarkup
