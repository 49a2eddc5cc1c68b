import CommentMarkup.Html.CharRef
import CommentMarkup.Marker.Pattern

/-!
# Reading patterns

The written form of patterns: characters and escapes, `.`, classes in brackets, groups,
alternatives, `^`, `$`, repetitions and the flag `i`. A marker is the pattern that it writes,
anchored at the start of a comment.
-/

namespace CommentMarkup.Pattern

/-! ### Escapes -/

/-- The control characters that have a letter. -/
def controls : List (Char × Char) :=
  [('a', '\x07'), ('f', '\x0c'), ('n', '\n'), ('r', '\r'), ('t', '\t'), ('v', '\x0b')]

/-- The character with the code point that hexadecimal digits spell. -/
def hexChar? (digits : Text) : Option Char :=
  (CharRef.number? 16 digits).bind fun n => if n.isValidChar then some (Char.ofNat n) else none

/-- A code point of `width` digits, or of any number of them in braces. -/
def hexEscape? (width : Nat) : Text → Option (Char × Text)
  | '\x7b' :: cs =>
    let digits := cs.takeWhile (· != '\x7d')
    if digits.length < cs.length then
      (hexChar? digits).map (·, cs.drop (digits.length + 1))
    else none
  | cs =>
    if width ≤ cs.length then (hexChar? (cs.take width)).map (·, cs.drop width) else none

def single (anyCase : Bool) (c : Char) : CharSet := .range c c anyCase

/-- What follows a backslash: a set, or a character as `Sum.inr`. -/
def escape? : Text → Option ((CharSet ⊕ Char) × Text)
  | [] => none
  | c :: cs =>
    if c = 's' then some (.inl .space, cs)
    else if c = 'S' then some (.inl (.complement .space), cs)
    else if c = 'w' then some (.inl .word, cs)
    else if c = 'W' then some (.inl (.complement .word), cs)
    else if c = 'x' then (hexEscape? 2 cs).map fun (e, cs) => (.inr e, cs)
    else if c = 'u' then (hexEscape? 4 cs).map fun (e, cs) => (.inr e, cs)
    else if c = 'U' then (hexEscape? 8 cs).map fun (e, cs) => (.inr e, cs)
    else
      match controls.lookup c with
      | some e => some (.inr e, cs)
      | none =>
        if c.toNat < 128 ∧ !c.isAlphanum ∧ c ≠ '<' ∧ c ≠ '>' then some (.inr c, cs) else none

/-! ### Classes -/

def classMember? : Text → Option ((CharSet ⊕ Char) × Text)
  | [] => none
  | '\\' :: cs => escape? cs
  | c :: cs => some (.inr c, cs)

def memberSet (anyCase : Bool) : CharSet ⊕ Char → CharSet
  | .inl set => set
  | .inr c => single anyCase c

/-- A member of a class, or a range between two characters in order. -/
def classRange? (anyCase : Bool) (t : Text) : Option (CharSet × Text) := do
  let (first, rest) ← classMember? t
  match rest with
  | [] => none
  | '-' :: ']' :: _ | '-' :: '-' :: _ => some (memberSet anyCase first, rest)
  | '-' :: cs =>
    match first, ← classMember? cs with
    | .inr a, (.inr b, cs) => if a ≤ b then some (.range a b anyCase, cs) else none
    | _, _ => none
  | _ => some (memberSet anyCase first, rest)

/-- The hyphens that a class starts with, or a closing bracket in their place. Both are members. -/
def classLead (anyCase : Bool) (t : Text) : List CharSet × Text :=
  match t with
  | ']' :: cs => ([single anyCase ']'], cs)
  | _ =>
    let hyphens := t.takeWhile (· == '-')
    (hyphens.map (single anyCase), t.drop hyphens.length)

mutual

/-- A class after its opening bracket. -/
def class? (anyCase : Bool) (fuel : Nat) (t : Text) : Option (CharSet × Text) :=
  match fuel with
  | 0 => none
  | fuel + 1 => do
    let (negated, t) := match t with
      | '^' :: cs => (true, cs)
      | _ => (false, t)
    let (lead, t) := classLead anyCase t
    let (members, t) ← classMembers? anyCase fuel t
    let set := CharSet.union (lead ++ members)
    return (if negated then .complement set else set, t)

/-- The members of a class up to its closing bracket. A class may hold classes. -/
def classMembers? (anyCase : Bool) (fuel : Nat) (t : Text) : Option ((List CharSet) × Text) :=
  match fuel, t with
  | 0, _ | _, [] => none
  | _ + 1, ']' :: cs => some ([], cs)
  | fuel + 1, '[' :: cs => do
    let (member, cs) ← class? anyCase fuel cs
    let (members, cs) ← classMembers? anyCase fuel cs
    return (member :: members, cs)
  | fuel + 1, t => do
    let (member, t) ← classRange? anyCase t
    let (members, t) ← classMembers? anyCase fuel t
    return (member :: members, t)

end

/-! ### Repetitions -/

/-- A decimal number, which white space may surround. -/
def count? (t : Text) : Option (Nat × Text) :=
  let t := t.trimStart
  let digits := t.takeWhile Char.isDigit
  (CharRef.number? 10 digits).bind fun n =>
    if n < 4294967296 then some (n, Text.trimStart (t.drop digits.length)) else none

/-- The counts in braces, after the opening one. -/
def counts? (t : Text) : Option ((Nat × Option Nat) × Text) := do
  let (least, t) ← count? t
  match t with
  | '\x7d' :: cs => some ((least, some least), cs)
  | ',' :: '\x7d' :: cs => some ((least, none), cs)
  | ',' :: cs =>
    match ← count? cs with
    | (most, '\x7d' :: cs) => if least ≤ most then some ((least, some most), cs) else none
    | _ => none
  | _ => none

/-- The counts of a repetition, if the text starts with one. A brace must open one. -/
def repetitionCounts? : Text → Option (Option ((Nat × Option Nat) × Text))
  | '*' :: cs => some (some ((0, none), cs))
  | '+' :: cs => some (some ((1, none), cs))
  | '?' :: cs => some (some ((0, some 1), cs))
  | '\x7b' :: cs => some (counts? cs)
  | _ => none

/-- The pattern with the repetitions that the text starts with. A question mark after one makes it
prefer fewer repetitions. -/
def repetitions? (pattern : Pattern) : (fuel : Nat) → Text → Option (Pattern × Text)
  | 0, t => some (pattern, t)
  | fuel + 1, t =>
    match repetitionCounts? t with
    | none => some (pattern, t)
    | some none => none
    | some (some ((least, most), '?' :: cs)) =>
      repetitions? (.repeated pattern least most false) fuel cs
    | some (some ((least, most), cs)) =>
      repetitions? (.repeated pattern least most true) fuel cs

/-! ### Patterns -/

/-- The flags before a colon or a closing parenthesis: whether case is disregarded after them. -/
def flags? : Text → Option (Bool × Text)
  | 'i' :: cs => some (true, cs)
  | '-' :: 'i' :: cs => some (false, cs)
  | _ => none

mutual

/-- Alternatives up to a closing parenthesis or the end, with case disregarded or not. -/
def alternatives? (fuel : Nat) (anyCase : Bool) (t : Text) : Option (Pattern × Text) :=
  match fuel with
  | 0 => none
  | fuel + 1 => do
    let ((pattern, anyCase), t) ← sequence? fuel anyCase t
    match t with
    | '|' :: cs =>
      let (other, cs) ← alternatives? fuel anyCase cs
      return (.either pattern other, cs)
    | _ => return (pattern, t)

/-- Parts one after the other. A group of flags changes what follows it, in this alternative and in
those after it. -/
def sequence? (fuel : Nat) (anyCase : Bool) (t : Text) : Option ((Pattern × Bool) × Text) :=
  match fuel, t with
  | 0, _ => none
  | _ + 1, [] => some ((.empty, anyCase), [])
  | _ + 1, ')' :: _ | _ + 1, '|' :: _ => some ((.empty, anyCase), t)
  | fuel + 1, '(' :: '?' :: cs =>
    match flags? cs with
    | some (anyCase, ')' :: cs) =>
      if (repetitionCounts? cs).isSome then none else sequence? fuel anyCase cs
    | _ => do
      let (part, t) ← part? fuel anyCase t
      followedBy? fuel anyCase part t
  | fuel + 1, t => do
    let (part, t) ← part? fuel anyCase t
    followedBy? fuel anyCase part t

/-- A part, its repetitions and the parts after it. -/
def followedBy? (fuel : Nat) (anyCase : Bool) (part : Pattern) (t : Text) :
    Option ((Pattern × Bool) × Text) :=
  match fuel with
  | 0 => none
  | fuel + 1 => do
    let (part, t) ← repetitions? part t.length t
    let ((others, anyCase), t) ← sequence? fuel anyCase t
    return ((.sequence part others, anyCase), t)

/-- One part: a group, a class, an anchor or a character. -/
def part? (fuel : Nat) (anyCase : Bool) (t : Text) : Option (Pattern × Text) :=
  match fuel, t with
  | 0, _ | _, [] => none
  | fuel + 1, '(' :: '?' :: cs =>
    match cs with
    | ':' :: cs => group? fuel anyCase cs
    | _ =>
      match flags? cs with
      | some (anyCase, ':' :: cs) => group? fuel anyCase cs
      | _ => none
  | fuel + 1, '(' :: cs => group? fuel anyCase cs
  | fuel + 1, '[' :: cs => (class? anyCase fuel cs).map fun (set, cs) => (.char set, cs)
  | _ + 1, '\\' :: cs => (escape? cs).map fun (member, cs) => (.char (memberSet anyCase member), cs)
  | _ + 1, '.' :: cs => some (.char .notLineFeed, cs)
  | _ + 1, '^' :: cs => some (.textStart, cs)
  | _ + 1, '$' :: cs => some (.textEnd, cs)
  | _ + 1, c :: cs =>
    if (repetitionCounts? t).isSome then none else some (.char (single anyCase c), cs)

/-- The alternatives of a group, and its closing parenthesis. -/
def group? (fuel : Nat) (anyCase : Bool) (t : Text) : Option (Pattern × Text) :=
  match fuel with
  | 0 => none
  | fuel + 1 => do
    let (pattern, t) ← alternatives? fuel anyCase t
    match t with
    | ')' :: cs => some (pattern, cs)
    | _ => none

end

def ofText? (t : Text) : Option Pattern :=
  match alternatives? (6 * (t.length + 1)) false t with
  | some (pattern, []) => some pattern
  | _ => none

end CommentMarkup.Pattern
