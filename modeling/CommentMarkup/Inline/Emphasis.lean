import CommentMarkup.Options
import CommentMarkup.Text.Alphanumeric
import CommentMarkup.Tree

/-!
# Emphasis

Runs of asterisks, underscores and tildes open and close emphasis. `delimiterRun?` tells what a run
may do by its neighbours, and `pair` matches each closing run with the nearest opening one.
-/

namespace CommentMarkup

structure Run where
  mark : Char
  count : Nat
  opens : Bool
  closes : Bool
  deriving DecidableEq, Repr

/-- A finished span or a run that may still become emphasis. -/
inductive Piece
  | span (span : Inline)
  | run (run : Run)
  deriving Repr

/-- The run of `count` delimiters between the characters `prev` and `next`, unless it can only be
text. A run opens if no white space follows it and closes if none stands before it; underscores
inside words do neither, except in classic mode. Strike-through takes two tildes, and a run right
after its own mark, escaped, is text. -/
def delimiterRun? (mode : EmphasisMode) (escaped prev : Option Char) (mark : Char) (count : Nat)
    (next : Option Char) : Option Run :=
  let inWord (c : Option Char) := mark == '_' && mode != .classic && c.any isAlphanumeric
  let opens := next.any (fun c => !isSpace c) && !inWord prev
  let closes := prev.any (fun c => !isSpace c) && !inWord next
  if escaped == some mark || (mark == '~' && count < 2) || !(opens || closes) then none
  else some ⟨mark, count, opens, closes⟩

/-! ### Leftover runs -/

/-- The spans with text in front, which joins text that they start with. -/
def consText (t : Text) : List Inline → List Inline
  | .text t' :: spans => .text (t ++ t') :: spans
  | spans => .text t :: spans

/-- The spans of pieces, with runs as text and neighbouring text joined. -/
def flatten : List Piece → List Inline
  | [] => []
  | .run run :: pieces =>
    if run.count = 0 then flatten pieces
    else consText (List.replicate run.count run.mark) (flatten pieces)
  | .span (.text t) :: pieces => consText t (flatten pieces)
  | .span span :: pieces => span :: flatten pieces

/-! ### Pairing -/

/-- The fewest delimiters that make a span. -/
def leastCount (mark : Char) : Nat := if mark = '~' then 2 else 1

def Run.canOpen (run : Run) (mark : Char) : Bool :=
  run.mark == mark && run.opens && leastCount mark ≤ run.count

def Run.canClose (run : Run) : Bool := run.closes && leastCount run.mark ≤ run.count

/-- The nearest run in `done`, which holds the pieces so far in reverse, that opens for `mark`: the
pieces after it in order, the run, and the pieces before it in reverse. -/
def findOpener? (mark : Char) (inner : List Piece) :
    List Piece → Option (List Piece × Run × List Piece)
  | [] => none
  | .run run :: done =>
    if run.canOpen mark then some (inner, run, done)
    else findOpener? mark (.run run :: inner) done
  | piece :: done => findOpener? mark (piece :: inner) done

/-- The number of delimiters that an opening and a closing run use for one span. -/
def usedCount (mark : Char) (opening closing : Nat) : Nat :=
  if mark = '~' ∨ (2 ≤ opening ∧ 2 ≤ closing) then 2 else 1

/-- The span that `used` delimiters make of its children. -/
def emphasisSpan (mark : Char) (used : Nat) (children : List Inline) : Inline :=
  if mark = '~' then .strikethrough children
  else if used = 2 then .strong children
  else .emphasis children

def Run.use (run : Run) (used : Nat) : Run := { run with count := run.count - used }

/-- The delimiters in pieces, each piece counting one more. -/
def weight : List Piece → Nat
  | [] => 0
  | .span _ :: pieces => weight pieces + 1
  | .run run :: pieces => weight pieces + run.count + 1

theorem usedCount_pos (mark : Char) (opening closing : Nat) :
    0 < usedCount mark opening closing := by
  unfold usedCount
  split <;> decide

theorem Run.canClose_pos {run : Run} (h : run.canClose) : 0 < run.count := by
  have least : 0 < leastCount run.mark := by
    unfold leastCount
    split <;> decide
  simp only [canClose, Bool.and_eq_true, decide_eq_true_eq] at h
  omega

/-- The pieces with every closing run paired, where `done` holds those already passed, in reverse. A
closing run is looked at again as long as delimiters remain. -/
def pair (done : List Piece) : List Piece → List Piece
  | [] => done.reverse
  | .span span :: rest => pair (.span span :: done) rest
  | .run run :: rest =>
    if _h : run.canClose then
      match findOpener? run.mark [] done with
      | none => pair (.run run :: done) rest
      | some (inner, opener, before) =>
        let used := usedCount run.mark opener.count run.count
        let span := emphasisSpan run.mark used (flatten inner)
        pair (.span span :: .run (opener.use used) :: before) (.run (run.use used) :: rest)
    else pair (.run run :: done) rest
termination_by rest => weight rest
decreasing_by
  all_goals simp only [weight]
  · omega
  · omega
  · have := Run.canClose_pos _h
    have := usedCount_pos run.mark opener.count run.count
    simp only [Run.use]
    omega
  · omega

/-- The spans of pieces, emphasis paired and leftover runs as text. -/
def emphasize (pieces : List Piece) : List Inline := flatten (pair [] pieces)

end CommentMarkup
