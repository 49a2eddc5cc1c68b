import CommentMarkup.Block.Reader
import CommentMarkup.Inline.Reader

/-!
# Resolution

From blocks to documents: definitions are collected and headings get their anchors before any inline
text is read; then the flow of the document is read, and after it the bodies of the footnotes in the
order of their numbers, which may reference further footnotes.
-/

namespace CommentMarkup

/-- The block with its spans, if it is a heading or a paragraph. -/
def resolveStep (scope : Scope) (notes : Notes) : Block → Block × Notes
  | .heading level content anchor =>
    let (spans, notes) := readInline scope content.source notes
    (.heading level { content with spans } anchor, notes)
  | .paragraph content =>
    let (spans, notes) := readInline scope content.source notes
    (.paragraph { content with spans }, notes)
  | block => (block, notes)

/-- The blocks with the spans of all headings and paragraphs in their flow. -/
def resolveBlocks (scope : Scope) (notes : Notes) (blocks : List Block) : List Block × Notes :=
  rewrite (resolveStep scope) notes blocks

/-! ### Footnotes -/

def FootnoteSource.blocks (fence : Text) : FootnoteSource → Except Malformed (List Block)
  | .defined blocks => .ok blocks
  | .inPlace text => readFragment fence text

/-- The footnotes from index `next` on with their bodies resolved, at most `fuel` of them. -/
def resolveFootnotesFrom (scope : Scope) (fence : Text) (fuel next : Nat) (notes : Notes) :
    Except Malformed (List Footnote) × Notes :=
  match fuel with
  | 0 => (.ok [], notes)
  | fuel + 1 =>
    match notes.footnotes[next]? with
    | none => (.ok [], notes)
    | some pending =>
      match pending.source.blocks fence with
      | .error malformed => (.error malformed, notes)
      | .ok blocks =>
        let (blocks, notes) := resolveBlocks scope notes blocks
        let (footnotes, notes) := resolveFootnotesFrom scope fence fuel (next + 1) notes
        (footnotes.map (⟨next + 1, pending.label, blocks⟩ :: ·), notes)

/-- The number of places in a text where a footnote reference may open. -/
def openingCount : Text → Nat
  | '[' :: '^' :: cs => openingCount cs + 1
  | _ :: cs => openingCount cs
  | [] => 0

def Block.openingCount : Block → Nat
  | .heading _ content _ | .paragraph content => CommentMarkup.openingCount content.source
  | _ => 0

def FootnoteSource.openingCount : FootnoteSource → Nat
  | .defined blocks => sumOver Block.openingCount (flow blocks)
  | .inPlace text => CommentMarkup.openingCount text

/-- A bound on the number of footnotes: those referenced so far, those defined, and one for each
place in their bodies where a reference may open. -/
def footnoteBound (scope : Scope) (notes : Notes) : Nat :=
  let bodies := scope.references.footnotes.map fun (_, blocks) => FootnoteSource.defined blocks
  let sources := notes.footnotes.map PendingFootnote.source ++ bodies
  sources.length + sumOver FootnoteSource.openingCount sources

/-- The footnotes referenced so far and in their bodies, resolved. A body that cannot be read ends
the run with what has been gathered until then. -/
def resolveFootnotes (scope : Scope) (fence : Text) (notes : Notes) :
    Except Malformed (List Footnote) × Notes :=
  resolveFootnotesFrom scope fence (footnoteBound scope notes) 0 notes

/-! ### Documents -/

def resolve (options : Options) (blocks : List Block) : Except Malformed Document :=
  let (references, warnings) := References.collect blocks
  let (blocks, headings) := HeadingIndex.assign blocks
  let scope : Scope := ⟨options.emphasis, references, headings⟩
  let (blocks, notes) := resolveBlocks scope (.start warnings) blocks
  let (footnotes, notes) := resolveFootnotes scope options.fence notes
  footnotes.map fun footnotes => ⟨blocks, footnotes, entries blocks, notes.warnings⟩

def Document.ofText (options : Options) (text : Text) : Except Malformed Document :=
  (readDocument options.fence text).bind (resolve options)

end CommentMarkup
