import CommentMarkup.Abbreviation
import CommentMarkup.Heading.Index
import CommentMarkup.Inline.Scan

/-!
# Reading inline text

Links, images and footnote references, resolved against the definitions and headings of a document.
Footnotes are numbered as their first references are met, and labels that name nothing are reported.
-/

namespace CommentMarkup

/-- What inline reading looks things up in. -/
structure Scope where
  mode : EmphasisMode
  references : References
  headings : HeadingIndex

/-- Where the body of a footnote comes from. -/
inductive FootnoteSource
  | defined (blocks : List Block)
  /-- A body written in place of a label. -/
  | inPlace (text : Text)
  deriving Repr

/-- A footnote that has been referenced. -/
structure PendingFootnote where
  label : Text
  source : FootnoteSource
  deriving Repr

/-- What reading has gathered so far. -/
structure Notes where
  /-- The footnotes in the order of their numbers. -/
  footnotes : List PendingFootnote
  /-- The numbers of defined footnotes by normalized label. -/
  numbers : List (Text × Nat)
  warnings : List Warning
  deriving Repr

namespace Notes

def start (warnings : List Warning) : Notes := ⟨[], [], warnings⟩

def warn (notes : Notes) (warning : Warning) : Notes :=
  { notes with warnings := notes.warnings ++ [warning] }

def nextNumber (notes : Notes) : Nat := notes.footnotes.length + 1

def register (notes : Notes) (label : Text) (source : FootnoteSource) : Notes :=
  { notes with footnotes := notes.footnotes ++ [⟨label, source⟩] }

end Notes

/-! ### Footnote references -/

/-- A single word, which can only be meant as a label. -/
def isFootnoteLabel (t : Text) : Bool :=
  !t.isEmpty && t.all fun c => isAlphanumeric c || c == '-' || c == '_' || c == '.' || c == ':'

/-- The reference that a footnote bracket with the given content makes. Content that names no
footnote is the body of a new one, unless it is a single word. -/
def footnoteRef? (scope : Scope) (content : Text) (notes : Notes) : Option Inline × Notes :=
  let key := normalizeLabel content
  let number := notes.nextNumber
  match notes.numbers.lookup key with
  | some known => (some (.footnoteRef content known false), notes)
  | none =>
    match scope.references.footnote? content with
    | some blocks =>
      let notes := notes.register content (.defined blocks)
      (some (.footnoteRef content number true),
        { notes with numbers := notes.numbers ++ [(key, number)] })
    | none =>
      if isFootnoteLabel content then (none, notes.warn (.unresolved .footnote content))
      else
        let label := Text.ofNat number
        (some (.footnoteRef label number true), notes.register label (.inPlace content))

/-- The footnote reference after an opening bracket and a caret, and its length up to the closing
bracket. -/
def readFootnote (scope : Scope) (t : Text) (notes : Notes) : Option (Inline × Nat) × Notes :=
  match bracketIndex? 0 t with
  | none => (none, notes)
  | some n =>
    let content : Text := t.take n
    if content.isBlank then (none, notes)
    else
      let (span, notes) := footnoteRef? scope content notes
      (span.map (·, n + 1), notes)

/-! ### Links and images -/

/-- What a label names: a defined link, or else a heading by its text or anchor. -/
def Scope.target? (scope : Scope) (label : Text) : Option Target :=
  (scope.references.link? label).or
    ((scope.headings.anchor? label).map fun anchor => ⟨'#' :: anchor, none⟩)

def linkSpan (scope : Scope) (image : Bool) (text : Text) (target : Target) : Inline :=
  let children := readFlat scope.mode text
  if image then .image target (plainText children) else .link target children

/-- The label in brackets that follows the text of a link after any spaces, and its length with the
spaces. -/
def linkLabel? (t : Text) : Option (Text × Nat) :=
  let gap := runLength ' ' t
  match t.drop gap with
  | '[' :: cs =>
    if Text.startsWith (· == '^') cs then none
    else (bracketIndex? 0 cs).map fun n => (cs.take n, gap + n + 2)
  | _ => none

/-- The destination in parentheses that follows the text of a link, and its length. -/
def linkDestination? : Text → Option (Target × Nat)
  | '(' :: cs => (destination? cs).map fun (target, n) => (target, n + 1)
  | _ => none

/-- The link or image after an opening bracket, and its length. The bracket's text is followed by a
destination or by a label in brackets, or is a defined label itself. -/
def readLink (scope : Scope) (image : Bool) (t : Text) (notes : Notes) :
    Option (Inline × Nat) × Notes :=
  match bracketIndex? 0 t with
  | none => (none, notes)
  | some n =>
    let text : Text := t.take n
    let after := t.drop (n + 1)
    match linkDestination? after with
    | some (target, length) => (some (linkSpan scope image text target, n + 1 + length), notes)
    | none =>
      match linkLabel? after with
      | some (label, length) =>
        let label := if label.isBlank then text else label
        match scope.target? label with
        | some target => (some (linkSpan scope image text target, n + 1 + length), notes)
        | none => (none, notes.warn (.unresolved .link label))
      | none =>
        match scope.references.link? text with
        | some target => (some (linkSpan scope image text target, n + 1), notes)
        | none => (none, notes)

/-- A span that is found `lead` characters further on, with its length from here. -/
def afterLead (lead : Nat) (found : Option (Inline × Nat) × Notes) :
    Option (Inline × Nat) × Notes :=
  (found.1.map fun (span, n) => (span, lead + n), found.2)

def readBracket (scope : Scope) : Attempt Notes := fun t notes =>
  match t with
  | '!' :: '[' :: cs => afterLead 2 (readLink scope true cs notes)
  | '[' :: '^' :: cs => afterLead 2 (readFootnote scope cs notes)
  | '[' :: cs => afterLead 1 (readLink scope false cs notes)
  | _ => (none, notes)

/-- The spans of a text, and the notes after reading it. -/
def readInline (scope : Scope) (t : Text) (notes : Notes) : List Inline × Notes :=
  let (pieces, notes) := scan scope.mode (readBracket scope) none none [] t notes
  (expandAbbreviations scope.references.abbreviations (emphasize pieces), notes)

end CommentMarkup
