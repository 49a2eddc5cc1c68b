import CommentMarkup.Html.Node
import CommentMarkup.Tree

/-!
# Markup of spans
-/

namespace CommentMarkup.Page

open Html

def fragment (anchor : Text) : Value := .text ('#' :: anchor)

def footnoteAnchor (number : Nat) : Text := "fn-".toList ++ Text.ofNat number

/-- The anchor of the first reference to a footnote. -/
def backAnchor (number : Nat) : Text := "fnref-".toList ++ Text.ofNat number

def titleAttribute (title : Option Text) : List Attribute := (title.map .title).toList

def lineFeed : Node := .text ['\n']

mutual

def spanNodes : Inline → List Node
  | .text t => [.text t]
  | .charRef t => [.verbatim t]
  | .emphasis children => [.element .em [] (inlineNodes children)]
  | .strong children => [.element .strong [] (inlineNodes children)]
  | .strikethrough children => [.element .del [] (inlineNodes children)]
  | .code t => [.element .code [] [.text t]]
  | .lineBreak => [.void .br [], lineFeed]
  | .rawHtml t => [.verbatim t]
  | .link target children =>
    [.element .a (.href (.text target.url) :: titleAttribute target.title) (inlineNodes children)]
  | .image target alt => [.void .img (.src target.url :: .alt alt :: titleAttribute target.title)]
  | .footnoteRef _ number first =>
    [.element .sup (if first then [.id (backAnchor number)] else [])
      [.element .a [.href (fragment (footnoteAnchor number)), .className "footnote-ref".toList]
        [.text (Text.ofNat number)]]]
  | .abbreviation term expansion => [.element .abbr [.title expansion] [.text term]]
  | .autolink target false => [.element .a [.href (.text target)] [.text target]]
  | .autolink target true =>
    [.element .a [.href (.obfuscated ("mailto:".toList ++ target))] [.obfuscated target]]

def inlineNodes : List Inline → List Node
  | [] => []
  | span :: spans => spanNodes span ++ inlineNodes spans

end

end CommentMarkup.Page
