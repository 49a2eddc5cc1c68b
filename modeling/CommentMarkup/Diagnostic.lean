import CommentMarkup.Text.Basic

/-!
# Diagnostics

Failures end the reading of a document; warnings are collected beside its result. Both are kept as
causes and get their wording from `Failure.message` and `Warning.message`.
-/

namespace CommentMarkup

inductive Reason
  | unterminatedFence
  | unterminatedTag (tag : Text)
  deriving DecidableEq, Repr

/-- A block that was opened and never closed, with the line, counted from one, that opens it. -/
structure Malformed where
  line : Nat
  reason : Reason
  deriving DecidableEq, Repr

/-- What can end a run without a result. -/
inductive Failure
  | malformedBlock (block : Malformed)
  | invalidMarker
  | invalidOptions
  deriving DecidableEq, Repr

def Reason.message : Reason → Text
  | unterminatedFence => "unterminated fenced code block".toList
  | unterminatedTag tag => "unterminated <".toList ++ tag ++ "> block".toList

def Failure.message : Failure → Text
  | malformedBlock block =>
    "malformed block at line ".toList ++ Text.ofNat block.line ++ ": ".toList ++
      block.reason.message
  | invalidMarker => "invalid comment marker pattern".toList
  | invalidOptions => "invalid options".toList

inductive LabelKind
  | link
  | footnote
  | abbreviation
  deriving DecidableEq, Repr

def LabelKind.word : LabelKind → Text
  | link => "link".toList
  | footnote => "footnote".toList
  | abbreviation => "abbreviation".toList

/-- What is reported about a document that can still be rendered. -/
inductive Warning
  /-- A label without a definition; the reference stays as written. -/
  | unresolved (kind : LabelKind) (label : Text)
  /-- A second definition of a label; the first one counts. -/
  | duplicate (kind : LabelKind) (label : Text)
  deriving DecidableEq, Repr

def Warning.message : Warning → Text
  | unresolved kind label =>
    "unresolved ".toList ++ kind.word ++ " reference [".toList ++ label ++ "]".toList
  | duplicate kind label =>
    "duplicate ".toList ++ kind.word ++ " definition [".toList ++ label ++
      "]; keeping the first".toList

end CommentMarkup
