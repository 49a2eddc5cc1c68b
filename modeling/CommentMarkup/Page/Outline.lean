import CommentMarkup.Heading.Outline
import CommentMarkup.Page.Inline

/-!
# Markup of outlines
-/

namespace CommentMarkup.Page

open Html

def entryLink (entry : Entry) : Node :=
  .element .a [.href (fragment entry.anchor)] [.text entry.text]

mutual

/-- The list item of a heading, with the list of those below it. -/
def outlineItem : OutlineNode → List Node
  | .node entry [] => [.element .li [] [entryLink entry], lineFeed]
  | .node entry (child :: children) =>
    [.element .li [] (entryLink entry :: lineFeed :: [
      .element .ul [] (lineFeed :: (outlineItem child ++ outlineItems children)), lineFeed]),
      lineFeed]

def outlineItems : List OutlineNode → List Node
  | [] => []
  | node :: nodes => outlineItem node ++ outlineItems nodes

end

/-- The outline of the entries as nested lists; nothing if there are none. -/
def outlineNodes (entries : List Entry) : List Node :=
  if entries.isEmpty then []
  else [.element .ul [] (lineFeed :: outlineItems (nest entries)), lineFeed]

end CommentMarkup.Page
