import CommentMarkup.Diagnostic

/-!
# Document trees

The tree that a text is read into. Blocks hold prose: the source of a heading or paragraph, together
with the spans that inline reading makes of it once every definition is known.
-/

namespace CommentMarkup

structure Target where
  url : Text
  title : Option Text
  deriving DecidableEq, Repr

inductive Inline
  | text (t : Text)
  /-- A character reference, as written. -/
  | charRef (t : Text)
  | emphasis (children : List Inline)
  | strong (children : List Inline)
  | strikethrough (children : List Inline)
  | code (t : Text)
  | lineBreak
  /-- An allowed tag or a comment, as written. -/
  | rawHtml (t : Text)
  | link (target : Target) (children : List Inline)
  | image (target : Target) (alt : Text)
  /-- A reference to footnote `number`; the first one is where the footnote points back to. -/
  | footnoteRef (label : Text) (number : Nat) (first : Bool)
  | abbreviation (term expansion : Text)
  /-- An address in angle brackets. -/
  | autolink (target : Text) (email : Bool)
  deriving Repr, Inhabited

/-- Inline source and the spans read from it. -/
structure Prose where
  source : Text
  spans : List Inline
  deriving Repr, Inhabited

/-- Source that has not been read yet. -/
def Prose.unread (source : Text) : Prose := ⟨source, []⟩

/-- What stands before the text of a list item. -/
inductive Bullet
  | plain
  /-- A task, done or not. -/
  | task (checked : Bool)
  deriving DecidableEq, Repr, Inhabited

structure Item (β : Type) where
  bullet : Bullet
  blocks : List β
  deriving Repr, Inhabited

inductive CodeKind
  /-- Between fences, with the word that follows the opening one. -/
  | fenced (info : Option Text)
  | tabIndented
  | spaceIndented
  deriving DecidableEq, Repr, Inhabited

inductive Block
  | heading (level : Nat) (content : Prose) (anchor : Text)
  | paragraph (content : Prose)
  /-- A tight list shows the leading paragraph of each item bare. -/
  | list (ordered : Bool) (start : Nat) (tight : Bool) (items : List (Item Block))
  | quote (blocks : List Block)
  | code (kind : CodeKind) (literal : Text)
  | rule
  | rawHtml (tag html : Text)
  /-- The place for the outline of the headings. -/
  | outline
  | abbreviationDef (term expansion : Text)
  | referenceDef (label : Text) (target : Target)
  | footnoteDef (label : Text) (blocks : List Block)
  deriving Repr, Inhabited

/-- Definitions are looked up and never shown. -/
def Block.isDefinition : Block → Bool
  | .abbreviationDef .. | .referenceDef .. | .footnoteDef .. => true
  | _ => false

/-- A footnote with its number, counted from one. -/
structure Footnote where
  number : Nat
  label : Text
  blocks : List Block
  deriving Repr, Inhabited

structure Entry where
  level : Nat
  anchor : Text
  text : Text
  deriving DecidableEq, Repr, Inhabited

/-- A document with everything resolved: footnotes in the order of their first references, and the
headings and warnings in document order. -/
structure Document where
  blocks : List Block
  footnotes : List Footnote
  entries : List Entry
  warnings : List Warning
  deriving Repr, Inhabited

end CommentMarkup
