import CommentMarkup.Text.Basic

/-!
# Options

What a caller may set: the marker that opens a documentation comment, how underscores emphasize, and
the fence of code blocks.
-/

namespace CommentMarkup

inductive EmphasisMode
  /-- An underscore between two characters of a word is literal. -/
  | wordInternalLiteral
  /-- Underscores work like asterisks. -/
  | classic
  deriving DecidableEq, Repr

def EmphasisMode.name : EmphasisMode → Text
  | wordInternalLiteral => "word_internal_literal".toList
  | classic => "classic".toList

structure Options where
  /-- The pattern for the opening of a documentation comment. -/
  marker : Text
  emphasis : EmphasisMode
  /-- The line that opens and closes a fenced code block. -/
  fence : Text
  deriving DecidableEq, Repr

def tick : Char := '\x60'

/-- Comments open with a slash and two asterisks, underscores inside words are literal, and fences
are three backticks. -/
def Options.default : Options :=
  ⟨"/\\*\\*".toList, .wordInternalLiteral, [tick, tick, tick]⟩

end CommentMarkup
