import CommentMarkup.Html.Tag

/-!
# Raw tags in lines

The tag that makes a line the first line of a raw block, and how the nesting of that tag changes
over a line.
-/

namespace CommentMarkup

def endsRawTagName (c : Char) : Bool := c == '>' || c == '/' || isIndent c

/-- The name, in small letters, of the tag that opens at the start of the text. -/
def openingTag? : Text → Option Text
  | '<' :: rest =>
    let name := tagName rest
    if name.isEmpty || !Text.endsOr endsRawTagName (rest.drop name.length) then none
    else some (Text.toLower name)
  | _ => none

/-- The block tag that the line opens with. -/
def rawTag? (line : Text) : Option Text := (openingTag? line.trimStart).filter isBlockTag

/-- What follows the name `tag`, if the text starts with it as a whole name. -/
def afterTagName? (tag rest : Text) : Option Text :=
  (Text.dropLead? tag rest).filter (Text.endsOr endsRawTagName)

/-- The tag whose inside is `rest` closes itself. -/
def isSelfClosing (rest : Text) : Bool :=
  rest.contains '>' && Text.endsWith (· == '/') (rest.takeWhile (· != '>'))

/-- How much the tag after a `<` nests deeper: one for an opening, minus one for a closing `tag`,
zero for one that closes itself and for all else. -/
def tagWeight (tag : Text) : Text → Int
  | '/' :: rest => if (afterTagName? tag rest).isSome then -1 else 0
  | rest =>
    match afterTagName? tag rest with
    | some inside => if isSelfClosing inside then 0 else 1
    | none => 0

/-- The openings of `tag` less its closings in a line of small letters. -/
def depthChange (tag : Text) : Text → Int
  | [] => 0
  | c :: cs => (if c = '<' then tagWeight tag cs else 0) + depthChange tag cs

/-- The number of lines, from nesting `depth`, after which every `tag` is closed. -/
def rawExtent? (tag : Text) (depth : Int) : List Text → Option Nat
  | [] => none
  | l :: ls =>
    let depth := depth + depthChange tag (Text.toLower l)
    if depth ≤ 0 then some 1 else (rawExtent? tag depth ls).map (· + 1)

end CommentMarkup
