import CommentMarkup.Html.CharRef
import CommentMarkup.Tree

/-!
# Plain text

What a reader sees of spans, without markup.
-/

namespace CommentMarkup

mutual

def Inline.plainText : Inline → Text
  | .text t | .code t => t
  | .charRef t => CharRef.decode t
  | .emphasis children | .strong children | .strikethrough children | .link _ children =>
    plainText children
  | .image _ alt => alt
  | .abbreviation term _ => term
  | .autolink target _ => target
  | .lineBreak => [' ']
  | .rawHtml _ | .footnoteRef .. => []

def plainText : List Inline → Text
  | [] => []
  | span :: spans => span.plainText ++ plainText spans

end

end CommentMarkup
