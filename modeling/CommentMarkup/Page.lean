import CommentMarkup.Page.Block

/-!
# Pages

A document as HTML: its blocks, then the footnotes that are referenced, each with a link back to its
first reference. The outline is also written on its own.
-/

namespace CommentMarkup.Page

open Html

/-- The link from a footnote back to its first reference, an arrow. -/
def backLink (number : Nat) : Node :=
  .element .a [.href (fragment (backAnchor number)), .className "footnote-backref".toList]
    [.verbatim "&#8617;".toList]

/-- The body of a footnote. The link back goes into the last block if that is a paragraph, and after
it otherwise. -/
def footnoteBody (outline : List Node) (footnote : Footnote) : List Node :=
  let blocks := footnote.blocks.filter fun block => !block.isDefinition
  match blocks.getLast? with
  | some (.paragraph last) =>
    blocksNodes outline blocks.dropLast ++
      [.element .p [] (inlineNodes last.spans ++ [.text [' '], backLink footnote.number]), lineFeed]
  | _ => blocksNodes outline blocks ++ [backLink footnote.number, lineFeed]

def footnoteItem (outline : List Node) (footnote : Footnote) : List Node :=
  blockElement .li [.id (footnoteAnchor footnote.number)] (footnoteBody outline footnote)

/-- The footnotes after a rule; nothing if there are none. -/
def footnoteSection (outline : List Node) (footnotes : List Footnote) : List Node :=
  if footnotes.isEmpty then []
  else
    blockElement .div [.className "footnotes".toList]
      (.void .hr [] :: lineFeed :: blockElement .ol [] (footnotes.flatMap (footnoteItem outline)))

def documentNodes (document : Document) : List Node :=
  let outline := outlineNodes document.entries
  blocksNodes outline document.blocks ++ footnoteSection outline document.footnotes

def renderOutline (entries : List Entry) : Text := writeNodes (outlineNodes entries)

def render (document : Document) : Text := writeNodes (documentNodes document)

end CommentMarkup.Page
