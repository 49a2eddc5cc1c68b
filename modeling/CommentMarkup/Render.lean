import CommentMarkup.Comment
import CommentMarkup.Options
import CommentMarkup.Page
import CommentMarkup.Resolution

/-!
# Rendering

Texts and the documentation comments of sources, rendered to HTML.
-/

namespace CommentMarkup

/-- A rendered text: its HTML, the outline on its own, and what was reported on the way. -/
structure Rendered where
  html : Text
  outline : Text
  warnings : List Warning
  deriving DecidableEq, Repr

def Document.rendered (document : Document) : Rendered :=
  ⟨Page.render document, Page.renderOutline document.entries, document.warnings⟩

def renderText (options : Options) (text : Text) : Except Failure Rendered :=
  match Document.ofText options text with
  | .error malformed => .error (.malformedBlock malformed)
  | .ok document => .ok document.rendered

def comments (options : Options) (source : Text) : Except Failure (List Text) :=
  match Marker.ofText? options.marker with
  | none => .error .invalidMarker
  | some marker => .ok (extract marker source)

/-- The documentation comments of a source, rendered as one text with empty lines between them, so
that the definitions in one comment serve the references in another. -/
def renderSource (options : Options) (source : Text) : Except Failure Rendered := do
  let texts ← comments options source
  renderText options (List.intercalate ['\n', '\n'] texts)

/-- The documentation comments of a source, each rendered on its own. -/
def renderComments (options : Options) (source : Text) : Except Failure (List Rendered) := do
  let texts ← comments options source
  texts.mapM (renderText options)

end CommentMarkup
