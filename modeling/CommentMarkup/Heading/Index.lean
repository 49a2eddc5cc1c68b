import CommentMarkup.Heading.Slug
import CommentMarkup.Tree.PlainText
import CommentMarkup.Tree.Walk

/-!
# Anchors of headings

Every heading gets an anchor of its own, made from its visible text. The index finds anchors by the
slug of a heading's text and by the anchors themselves.
-/

namespace CommentMarkup

/-- Anchors by slug, in the order of the headings; the first entry of a slug counts. -/
abbrev HeadingIndex := List (Text × Text)

/-- The `k`th choice of an anchor: the base itself, then the base with a number. -/
def numberedAnchor (base : Text) : Nat → Text
  | 0 => base
  | k + 1 => base ++ '-' :: Text.ofNat (k + 1)

/-- The first choice of an anchor that is not in `used`. One of the first `used.length + 1` choices
is free, because they differ. -/
def freeAnchor (used : List Text) (base : Text) : Text :=
  (((List.range (used.length + 1)).map (numberedAnchor base)).find? fun a =>
    !used.contains a).getD base

/-- The anchor that a heading has if it is free: its slug, or a general word if that is empty. -/
def anchorBase (source : Text) : Text :=
  let slug := slugify (visibleText source)
  if slug.isEmpty then "heading".toList else slug

namespace HeadingIndex

/-- The anchor of the heading whose text or anchor has the slug of `label`. -/
def anchor? (index : HeadingIndex) (label : Text) : Option Text := List.lookup (slugify label) index

/-- The block, with an anchor if it is a heading, and the index with that anchor. -/
def assignStep (index : HeadingIndex) : Block → Block × HeadingIndex
  | .heading level content _ =>
    let base := anchorBase content.source
    let anchor := freeAnchor (index.map Prod.snd) base
    (.heading level content anchor, index ++ [(base, anchor), (anchor, anchor)])
  | block => (block, index)

/-- The blocks with an anchor for every heading in their flow, and the index of the anchors. -/
def assign (blocks : List Block) : List Block × HeadingIndex := rewrite assignStep [] blocks

end HeadingIndex

def Block.entry? : Block → Option Entry
  | .heading level content anchor => some ⟨level, anchor, Text.trim (plainText content.spans)⟩
  | _ => none

def entries (blocks : List Block) : List Entry := (flow blocks).filterMap Block.entry?

end CommentMarkup
