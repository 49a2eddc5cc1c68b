import CommentMarkup.Marker.Reader

/-!
# Markers

A marker decides which comments are documentation: it is given the text from a comment's opening to
the end of the line.
-/

namespace CommentMarkup

/-- Where the opening of a documentation comment ends, in a text that starts with a comment. -/
abbrev Marker := Text → Option Nat

/-- The marker that a pattern writes. The pattern is put into an anchored group as it is written. -/
def Marker.ofText? (t : Text) : Option Marker :=
  (Pattern.ofText? ("^(?:".toList ++ t ++ ")".toList)).map Pattern.find?

end CommentMarkup
