import CommentMarkup.Render

/-!
# Command line

The command reads a source from standard input and prints the HTML of its documentation comments.
-/

namespace CommentMarkup.Cli

structure Outcome where
  stdout : Text
  stderr : Text
  code : Nat
  deriving DecidableEq, Repr

def Outcome.failed (message : Text) : Outcome := ⟨[], message ++ ['\n'], 1⟩

def runText (source : Text) : Outcome :=
  match renderSource .default source with
  | .ok rendered => ⟨rendered.html, [], 0⟩
  | .error failure => .failed failure.message

def run (input : ByteArray) : Outcome :=
  match String.fromUTF8? input with
  | some source => runText source.toList
  | none => .failed "failed to read stdin: stream did not contain valid UTF-8".toList

end CommentMarkup.Cli
