import CommentMarkup.Abbreviation
import CommentMarkup.Block.Leaf
import CommentMarkup.Block.ListRun
import CommentMarkup.Block.Reader
import CommentMarkup.Block.Step
import CommentMarkup.Cli
import CommentMarkup.Comment
import CommentMarkup.Diagnostic
import CommentMarkup.Heading.Index
import CommentMarkup.Heading.Outline
import CommentMarkup.Heading.Slug
import CommentMarkup.Html.CharRef
import CommentMarkup.Html.CharRef.Names
import CommentMarkup.Html.Escape
import CommentMarkup.Html.Node
import CommentMarkup.Html.Tag
import CommentMarkup.Inline.Address
import CommentMarkup.Inline.Delimited
import CommentMarkup.Inline.Emphasis
import CommentMarkup.Inline.Reader
import CommentMarkup.Inline.Scan
import CommentMarkup.Json
import CommentMarkup.Line.Bullet
import CommentMarkup.Line.Definition
import CommentMarkup.Line.RawTag
import CommentMarkup.Line.Shape
import CommentMarkup.Main
import CommentMarkup.Marker
import CommentMarkup.Marker.Pattern
import CommentMarkup.Marker.Reader
import CommentMarkup.Options
import CommentMarkup.Options.Reader
import CommentMarkup.Page
import CommentMarkup.Page.Block
import CommentMarkup.Page.Inline
import CommentMarkup.Page.Outline
import CommentMarkup.Proofs.Abbreviation.Greedy
import CommentMarkup.Proofs.Abbreviation.Marked
import CommentMarkup.Proofs.Block.Aligned
import CommentMarkup.Proofs.Block.Alike
import CommentMarkup.Proofs.Block.Balance
import CommentMarkup.Proofs.Block.Charge
import CommentMarkup.Proofs.Block.Cuttings
import CommentMarkup.Proofs.Block.Embedded
import CommentMarkup.Proofs.Block.Enclosed
import CommentMarkup.Proofs.Block.Failing
import CommentMarkup.Proofs.Block.Inner
import CommentMarkup.Proofs.Block.Interrupted
import CommentMarkup.Proofs.Block.Kept
import CommentMarkup.Proofs.Block.Literal
import CommentMarkup.Proofs.Block.Local
import CommentMarkup.Proofs.Block.Located
import CommentMarkup.Proofs.Block.Lookahead
import CommentMarkup.Proofs.Block.Progress
import CommentMarkup.Proofs.Block.Prose
import CommentMarkup.Proofs.Block.Reading
import CommentMarkup.Proofs.Block.Respelled
import CommentMarkup.Proofs.Block.Shape
import CommentMarkup.Proofs.Block.TextLine
import CommentMarkup.Proofs.Block.Tightness
import CommentMarkup.Proofs.Comment.Clean
import CommentMarkup.Proofs.Comment.Extraction
import CommentMarkup.Proofs.Comment.Opening
import CommentMarkup.Proofs.Comment.Searched
import CommentMarkup.Proofs.Comment.Sliced
import CommentMarkup.Proofs.Comment.Written
import CommentMarkup.Proofs.Definition.Collected
import CommentMarkup.Proofs.Definition.Counted
import CommentMarkup.Proofs.Definition.Erased
import CommentMarkup.Proofs.Definition.First
import CommentMarkup.Proofs.Definition.Justified
import CommentMarkup.Proofs.Definition.Position
import CommentMarkup.Proofs.Definition.Tables
import CommentMarkup.Proofs.Footnote.Bound
import CommentMarkup.Proofs.Footnote.Failing
import CommentMarkup.Proofs.Footnote.Notes
import CommentMarkup.Proofs.Footnote.Numbering
import CommentMarkup.Proofs.Footnote.Openings
import CommentMarkup.Proofs.Footnote.Registered
import CommentMarkup.Proofs.Footnote.Sequence
import CommentMarkup.Proofs.Heading.Anchors
import CommentMarkup.Proofs.Heading.Chosen
import CommentMarkup.Proofs.Heading.Found
import CommentMarkup.Proofs.Heading.Gist
import CommentMarkup.Proofs.Heading.Legible
import CommentMarkup.Proofs.Heading.Named
import CommentMarkup.Proofs.Heading.NormalForm
import CommentMarkup.Proofs.Heading.Outline
import CommentMarkup.Proofs.Heading.Resolved
import CommentMarkup.Proofs.Heading.Slug
import CommentMarkup.Proofs.Html.CharRef
import CommentMarkup.Proofs.Html.Extent
import CommentMarkup.Proofs.Html.Neutralized
import CommentMarkup.Proofs.Html.Placed
import CommentMarkup.Proofs.Html.Quoted
import CommentMarkup.Proofs.Html.Revealed
import CommentMarkup.Proofs.Html.Tag
import CommentMarkup.Proofs.Html.Token
import CommentMarkup.Proofs.Html.Visible
import CommentMarkup.Proofs.Inline.Delimited
import CommentMarkup.Proofs.Inline.Drawn
import CommentMarkup.Proofs.Inline.Emphasized
import CommentMarkup.Proofs.Inline.Filtered
import CommentMarkup.Proofs.Inline.Fixed
import CommentMarkup.Proofs.Inline.Hyperlinks
import CommentMarkup.Proofs.Inline.Lexeme
import CommentMarkup.Proofs.Inline.LinkMarkup
import CommentMarkup.Proofs.Inline.Mentions
import CommentMarkup.Proofs.Inline.Outcome
import CommentMarkup.Proofs.Inline.Paired
import CommentMarkup.Proofs.Inline.Proper
import CommentMarkup.Proofs.Inline.Reported
import CommentMarkup.Proofs.Inline.Scanned
import CommentMarkup.Proofs.Inline.Seen
import CommentMarkup.Proofs.Inline.Unresolved
import CommentMarkup.Proofs.Line.Definition
import CommentMarkup.Proofs.Line.Escaped
import CommentMarkup.Proofs.Line.Fence
import CommentMarkup.Proofs.Line.Respelled
import CommentMarkup.Proofs.Line.Shape
import CommentMarkup.Proofs.Line.Strip
import CommentMarkup.Proofs.Page.CodeSpan
import CommentMarkup.Proofs.Page.Drawn
import CommentMarkup.Proofs.Page.Links
import CommentMarkup.Proofs.Page.Located
import CommentMarkup.Proofs.Page.Obfuscated
import CommentMarkup.Proofs.Page.Picked
import CommentMarkup.Proofs.Page.PlainText
import CommentMarkup.Proofs.Page.References
import CommentMarkup.Proofs.Page.Verbatim
import CommentMarkup.Proofs.Page.WellFormed
import CommentMarkup.Proofs.Text.Ascii
import CommentMarkup.Proofs.Text.Cut
import CommentMarkup.Proofs.Text.Find
import CommentMarkup.Proofs.Text.Foreign
import CommentMarkup.Proofs.Text.Indent
import CommentMarkup.Proofs.Text.Lowercase
import CommentMarkup.Proofs.Text.Measure
import CommentMarkup.Proofs.Text.Octet
import CommentMarkup.Proofs.Text.Trim
import CommentMarkup.Proofs.Text.Utf8
import CommentMarkup.Proofs.Tree.Address
import CommentMarkup.Proofs.Tree.Flow
import CommentMarkup.Proofs.Tree.Nested
import CommentMarkup.Reference
import CommentMarkup.Render
import CommentMarkup.Resolution
import CommentMarkup.Text.Alphanumeric
import CommentMarkup.Text.Basic
import CommentMarkup.Text.CaseFold
import CommentMarkup.Text.CharTable
import CommentMarkup.Text.Ink
import CommentMarkup.Text.Lines
import CommentMarkup.Text.Lowercase
import CommentMarkup.Text.Space
import CommentMarkup.Text.Word
import CommentMarkup.Tree
import CommentMarkup.Tree.PlainText
import CommentMarkup.Tree.Walk
