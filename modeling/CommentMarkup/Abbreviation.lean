import CommentMarkup.Reference
import CommentMarkup.Text.Alphanumeric

/-!
# Abbreviations

Where defined terms stand in a text as whole words, and the spans of a text with those places
marked.
-/

namespace CommentMarkup

/-- A defined term in a text, from the character `start` up to the character `stop`. -/
structure Occurrence where
  start : Nat
  stop : Nat
  expansion : Text
  deriving DecidableEq, Repr

def isWordBoundary (c : Option Char) : Bool := !c.any isAlphanumeric

/-- The first of the terms that the text starts with. -/
def termAt? (terms : List (Text × Text)) (t : Text) : Option (Text × Text) :=
  terms.find? fun (term, _) => term.isPrefixOf t

/-- The whole-word occurrences of the terms, left to right, in a text that begins at position `pos`
after the character `prev`. -/
def occurrencesFrom (terms : List (Text × Text)) (prev : Option Char) (pos : Nat) :
    Text → List Occurrence
  | [] => []
  | c :: cs =>
    match termAt? terms (c :: cs) with
    | none => occurrencesFrom terms (some c) (pos + 1) cs
    | some (term, expansion) =>
      let n := term.length
      if isWordBoundary prev && isWordBoundary ((c :: cs).drop n).head? then
        ⟨pos, pos + n, expansion⟩ ::
          occurrencesFrom terms term.getLast? (pos + n) (cs.drop (n - 1))
      else occurrencesFrom terms (some c) (pos + 1) cs
termination_by t => t.length
decreasing_by all_goals simp only [List.length_cons, List.length_drop]; omega

def occurrences (terms : List (Text × Text)) (t : Text) : List Occurrence :=
  occurrencesFrom terms none 0 t

/-- The octets, in UTF-8, where the occurrence starts and stops in `t`. -/
def Occurrence.octetRange (t : Text) (o : Occurrence) : Nat × Nat :=
  (Text.octets (t.take o.start), Text.octets (t.take o.stop))

def textSpan (t : Text) : List Inline := if t.isEmpty then [] else [.text t]

/-- The spans of `t` from position `pos` on, with the occurrences marked. -/
def markOccurrences (t : Text) (pos : Nat) : List Occurrence → List Inline
  | [] => textSpan (t.drop pos)
  | o :: os =>
    textSpan ((t.take o.start).drop pos) ++
      .abbreviation ((t.take o.stop).drop o.start) o.expansion :: markOccurrences t o.stop os

mutual

/-- The span with the terms in its text marked. Code, tags and addresses are left alone. -/
def Inline.expand (terms : List (Text × Text)) : Inline → List Inline
  | .text t => markOccurrences t 0 (occurrences terms t)
  | .emphasis children => [.emphasis (expandAbbreviations terms children)]
  | .strong children => [.strong (expandAbbreviations terms children)]
  | .strikethrough children => [.strikethrough (expandAbbreviations terms children)]
  | .link target children => [.link target (expandAbbreviations terms children)]
  | span => [span]

def expandAbbreviations (terms : List (Text × Text)) : List Inline → List Inline
  | [] => []
  | span :: spans => span.expand terms ++ expandAbbreviations terms spans

end

end CommentMarkup
