import CommentMarkup.Page.Outline

/-!
# Markup of blocks

The markup of blocks, given that of the document's outline. Definitions have none.
-/

namespace CommentMarkup.Page

open Html

/-- An element on lines of its own, whose content starts on a new line. -/
def blockElement (tag : Tag) (attributes : List Attribute) (content : List Node) : List Node :=
  [.element tag attributes (lineFeed :: content), lineFeed]

def headingAttributes (anchor : Text) : List Attribute :=
  if anchor.isEmpty then [] else [.id anchor]

def codeAttributes : CodeKind → List Attribute
  | .fenced (some info) => [.className ("language-".toList ++ info)]
  | _ => []

/-- The tag and the attributes of a list. -/
def listTag (ordered : Bool) (start : Nat) : Tag × List Attribute :=
  if !ordered then (.ul, []) else if start = 1 then (.ol, []) else (.ol, [.start start])

def bulletAttributes : Bullet → List Attribute
  | .plain => []
  | .task _ => [.className "task-list-item".toList]

def bulletNodes : Bullet → List Node
  | .plain => []
  | .task checked =>
    [.void .input (.type "checkbox".toList :: .disabled :: if checked then [.checked] else [])]

/-- The space between the box of a task and a bare paragraph. -/
def bulletSpace : Bullet → List Node
  | .plain => []
  | .task _ => [.text [' ']]

mutual

def blockNodes (outline : List Node) : Block → List Node
  | .heading level content anchor =>
    [.element (.heading level) (headingAttributes anchor) (inlineNodes content.spans), lineFeed]
  | .paragraph content => [.element .p [] (inlineNodes content.spans), lineFeed]
  | .list ordered start tight items =>
    blockElement (listTag ordered start).1 (listTag ordered start).2
      (itemsNodes outline tight items)
  | .quote blocks => blockElement .blockquote [] (blocksNodes outline blocks)
  | .code kind literal =>
    [.element .pre [] [.element .code (codeAttributes kind) [.text literal]], lineFeed]
  | .rule => [.void .hr [], lineFeed]
  | .rawHtml _ html => [.verbatim html, lineFeed]
  | .outline =>
    if outline.isEmpty then [] else blockElement .div [.className "toc".toList] outline
  | .abbreviationDef .. | .referenceDef .. | .footnoteDef .. => []

def blocksNodes (outline : List Node) : List Block → List Node
  | [] => []
  | block :: blocks => blockNodes outline block ++ blocksNodes outline blocks

/-- What follows the box of a list item. A tight item shows its leading paragraph bare; the blocks
after it start on a new line. -/
def itemBody (outline : List Node) (bullet : Bullet) (tight : Bool) : List Block → List Node
  | [] => []
  | .abbreviationDef .. :: blocks | .referenceDef .. :: blocks | .footnoteDef .. :: blocks =>
    itemBody outline bullet tight blocks
  | .paragraph content :: blocks =>
    if tight then
      bulletSpace bullet ++ inlineNodes content.spans ++
        if blocks.all Block.isDefinition then []
        else lineFeed :: blocksNodes outline blocks
    else lineFeed :: (blockNodes outline (.paragraph content) ++ blocksNodes outline blocks)
  | block :: blocks => lineFeed :: (blockNodes outline block ++ blocksNodes outline blocks)

def itemsNodes (outline : List Node) (tight : Bool) : List (Item Block) → List Node
  | [] => []
  | ⟨bullet, blocks⟩ :: items =>
    .element .li (bulletAttributes bullet)
      (bulletNodes bullet ++ itemBody outline bullet tight blocks) :: lineFeed ::
      itemsNodes outline tight items

end

end CommentMarkup.Page
