import CommentMarkup.Text.Basic
import CommentMarkup.Text.CaseFold
import CommentMarkup.Text.Word

/-!
# Patterns

The patterns that comment markers are written in, and where they match. Of several matches from one
place the leftmost alternative and, for a greedy repetition, the longest one is preferred; `ends`
lists what each match leaves of the text, in that order.
-/

namespace CommentMarkup

inductive CharSet
  /-- The characters from `first` to `last`, and those that differ from them in case alone. -/
  | range (first last : Char) (anyCase : Bool)
  | space
  | word
  | notLineFeed
  | union (sets : List CharSet)
  | complement (set : CharSet)
  deriving Repr

mutual

def CharSet.contains (c : Char) : CharSet → Bool
  | .range first last anyCase =>
    (c :: if anyCase then caseVariants c else []).any fun v => decide (first ≤ v ∧ v ≤ last)
  | .space => isSpace c
  | .word => isWordChar c
  | .notLineFeed => c != '\n'
  | .union sets => anyContains c sets
  | .complement set => !set.contains c

def anyContains (c : Char) : List CharSet → Bool
  | [] => false
  | set :: sets => set.contains c || anyContains c sets

end

inductive Pattern
  | empty
  | char (set : CharSet)
  | sequence (first second : Pattern)
  | either (first second : Pattern)
  /-- At least `least` times and, if there is a limit, at most `most` times. -/
  | repeated (body : Pattern) (least : Nat) (most : Option Nat) (greedy : Bool)
  | textStart
  | textEnd
  deriving Repr

namespace Pattern

/-- The texts without those that are as long as an earlier one. -/
def distinct : List Text → List Text
  | [] => []
  | t :: ts => t :: (distinct ts).filter fun u => u.length != t.length

/-- What is left after `step` has matched exactly `n` times. -/
def exactly (step : Text → List Text) : Nat → Text → List Text
  | 0, t => [t]
  | n + 1, t => distinct ((step t).flatMap (exactly step n))

/-- What is left after `step` has matched at most `n` times. A match that takes nothing is the
last. -/
def atMost (step : Text → List Text) (greedy : Bool) : Nat → Text → List Text
  | 0, t => [t]
  | n + 1, t =>
    let more := (step t).flatMap fun rest =>
      if rest.length < t.length then atMost step greedy n rest else [rest]
    distinct (if greedy then more ++ [t] else t :: more)

/-- The number of repetitions to try beyond `least` in a text of the given length, which all but one
of them shorten. -/
def repetitionsLeft (least : Nat) (most : Option Nat) (length : Nat) : Nat :=
  match most with
  | some most => min (most - least) (length + 1)
  | none => length + 1

/-- What a match from the start of `t` leaves of it, the preferred match first, in a text of
`length` characters that ends with `t`. -/
def ends (length : Nat) : Pattern → Text → List Text
  | empty, t => [t]
  | char _, [] => []
  | char set, c :: cs => if set.contains c then [cs] else []
  | sequence first second, t => distinct ((ends length first t).flatMap (ends length second))
  | either first second, t => distinct (ends length first t ++ ends length second t)
  | repeated body least most greedy, t =>
    distinct ((exactly (ends length body) least t).flatMap fun rest =>
      atMost (ends length body) greedy (repetitionsLeft least most rest.length) rest)
  | textStart, t => if t.length = length then [t] else []
  | textEnd, t => if t.isEmpty then [t] else []

/-- Where the first match in a text of `length` characters ends, looked for from `t` on. -/
def findFrom (pattern : Pattern) (length : Nat) : Text → Option Nat
  | [] => (pattern.ends length []).head?.map fun rest => length - rest.length
  | c :: cs =>
    match (pattern.ends length (c :: cs)).head? with
    | some rest => some (length - rest.length)
    | none => findFrom pattern length cs

def find? (pattern : Pattern) (t : Text) : Option Nat := pattern.findFrom t.length t

end Pattern
end CommentMarkup
