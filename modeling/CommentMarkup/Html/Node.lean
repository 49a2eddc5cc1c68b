import CommentMarkup.Html.Escape

/-!
# HTML trees

The markup that documents are rendered to. Tags and attribute names come from fixed vocabularies,
and every other text is escaped when it is written, unless a node says that it is written as it
stands.
-/

namespace CommentMarkup.Html

inductive Tag
  | a
  | abbr
  | blockquote
  | code
  | del
  | div
  | em
  | heading (level : Nat)
  | li
  | ol
  | p
  | pre
  | strong
  | sup
  | ul
  deriving DecidableEq, Repr

inductive VoidTag
  | br
  | hr
  | img
  | input
  deriving DecidableEq, Repr

inductive Value
  | text (t : Text)
  /-- An address, each character of which is written as a numeric reference. -/
  | obfuscated (t : Text)
  deriving DecidableEq, Repr

inductive Attribute
  | alt (t : Text)
  | checked
  | className (t : Text)
  | disabled
  | href (value : Value)
  | id (t : Text)
  | src (t : Text)
  | start (n : Nat)
  | title (t : Text)
  | type (t : Text)
  deriving DecidableEq, Repr

inductive Node
  | text (t : Text)
  /-- Text of an address, each character of which is written as a numeric reference. -/
  | obfuscated (t : Text)
  /-- Text that is markup already. -/
  | verbatim (t : Text)
  | element (tag : Tag) (attributes : List Attribute) (children : List Node)
  | void (tag : VoidTag) (attributes : List Attribute)
  deriving Repr, Inhabited

/-! ### Writing -/

def Tag.name : Tag → Text
  | a => "a".toList
  | abbr => "abbr".toList
  | blockquote => "blockquote".toList
  | code => "code".toList
  | del => "del".toList
  | div => "div".toList
  | em => "em".toList
  | heading level => 'h' :: Text.ofNat level
  | li => "li".toList
  | ol => "ol".toList
  | p => "p".toList
  | pre => "pre".toList
  | strong => "strong".toList
  | sup => "sup".toList
  | ul => "ul".toList

def VoidTag.name : VoidTag → Text
  | br => "br".toList
  | hr => "hr".toList
  | img => "img".toList
  | input => "input".toList

def Value.write : Value → Text
  | text t => escapeAttribute t
  | obfuscated t => obfuscate t

def writeAttribute (name : String) (value : Value) : Text :=
  name.toList ++ "=\"".toList ++ value.write ++ ['"']

def Attribute.write : Attribute → Text
  | alt t => writeAttribute "alt" (.text t)
  | checked => "checked".toList
  | className t => writeAttribute "class" (.text t)
  | disabled => "disabled".toList
  | href value => writeAttribute "href" value
  | id t => writeAttribute "id" (.text t)
  | src t => writeAttribute "src" (.text t)
  | start n => writeAttribute "start" (.text (Text.ofNat n))
  | title t => writeAttribute "title" (.text t)
  | type t => writeAttribute "type" (.text t)

def writeAttributes (attributes : List Attribute) : Text :=
  attributes.flatMap fun a => ' ' :: a.write

def openTag (tag : Tag) (attributes : List Attribute) : Text :=
  '<' :: tag.name ++ writeAttributes attributes ++ ['>']

def closeTag (tag : Tag) : Text := '<' :: '/' :: tag.name ++ ['>']

def voidTag (tag : VoidTag) (attributes : List Attribute) : Text :=
  '<' :: tag.name ++ writeAttributes attributes ++ " />".toList

mutual

def Node.write : Node → Text
  | .text t => escapeText t
  | .obfuscated t => obfuscate t
  | .verbatim t => t
  | .element tag attributes children =>
    openTag tag attributes ++ writeNodes children ++ closeTag tag
  | .void tag attributes => voidTag tag attributes

def writeNodes : List Node → Text
  | [] => []
  | node :: nodes => node.write ++ writeNodes nodes

end

end CommentMarkup.Html
