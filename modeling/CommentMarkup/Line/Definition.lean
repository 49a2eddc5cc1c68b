import CommentMarkup.Text.Ink
import CommentMarkup.Tree

/-!
# Definition lines

Lines that define a link, a footnote or an abbreviation, and the target and title of a link.
`inkCount_rest_lt` says that what follows the label has less ink than the line.
-/

namespace CommentMarkup

/-- A definition line: what it defines, its label and the text after the colon. -/
structure DefinitionLine where
  kind : LabelKind
  label : Text
  rest : Text
  deriving DecidableEq, Repr

/-- The definition whose label starts `body`. The label may be neither blank nor hold brackets. -/
def DefinitionLine.ofBody? (kind : LabelKind) (body : Text) : Option DefinitionLine :=
  match Text.find? "]:".toList body with
  | none => none
  | some n =>
    let label : Text := body.take n
    if label.isBlank || label.any fun c => c == '[' || c == ']' then none
    else some ⟨kind, label.trim, body.drop (n + 2)⟩

/-- Reads `[label]: target`, `[^label]: text` or `*[term]: expansion`. -/
def definitionLine? (line : Text) : Option DefinitionLine :=
  match line.trimStart with
  | '*' :: '[' :: body => DefinitionLine.ofBody? .abbreviation body
  | '[' :: '^' :: body => DefinitionLine.ofBody? .footnote body
  | '[' :: body => DefinitionLine.ofBody? .link body
  | _ => none

/-- The title in a text that is nothing but a title, in double or single quotes or parentheses. -/
def title? : Text → Option Text
  | [] => none
  | mark :: rest =>
    let close := if mark = '(' then ')' else mark
    if (mark = '"' ∨ mark = '\'' ∨ mark = '(') ∧ Text.endsWith (· == close) rest then
      some rest.dropLast
    else none

/-- Splits what follows a link's label into the target, in angle brackets or up to white space, and
the text after it. -/
def splitTarget? (rest : Text) : Option (Text × Text) :=
  match rest.trim with
  | '<' :: inner =>
    match Text.find? ['>'] inner with
    | none | some 0 => none
    | some n => some (inner.take n, Text.trim (inner.drop (n + 1)))
  | word =>
    let url := word.takeWhile fun c => !isSpace c
    if url.isEmpty then none else some (url, Text.trim (word.drop url.length))

/-- The target of the link that `line` defines, and the number of further lines that it takes. The
title stands on the same line, or on the next one if that is indented deeper. -/
def linkTarget? (line rest : Text) (next : Option Text) : Option (Target × Nat) := do
  let (url, after) ← splitTarget? rest
  if after.isEmpty then
    let titleLine := next.filter fun l => indentColumns line < indentColumns l
    match titleLine.bind fun l => title? l.trim with
    | some title => some (⟨url, some title⟩, 1)
    | none => some (⟨url, none⟩, 0)
  else (title? after).map fun title => (⟨url, some title⟩, 0)

/-! ### Ink -/

theorem DefinitionLine.inkCount_of_ofBody? {kind : LabelKind} {body : Text} {d : DefinitionLine}
    (h : ofBody? kind body = some d) : Text.inkCount d.rest ≤ body.inkCount := by
  unfold ofBody? at h
  split at h
  · cases h
  · dsimp only at h
    split at h
    · cases h
    · cases h
      exact Text.inkCount_drop_le _ _

/-- What follows the label of a definition lacks at least the bracket. -/
theorem DefinitionLine.inkCount_rest_lt {line : Text} {d : DefinitionLine}
    (h : definitionLine? line = some d) : Text.inkCount d.rest < line.inkCount := by
  rw [← Text.inkCount_trimStart line]
  have bracket (t : Text) : Text.inkCount ('[' :: t) = t.inkCount + 1 := by
    rw [Text.inkCount_cons, if_neg (by decide)]
  unfold definitionLine? at h
  split at h
  · next body heq =>
    rw [heq, Text.inkCount_cons, bracket]
    have := inkCount_of_ofBody? h
    omega
  · next body heq =>
    rw [heq, bracket, Text.inkCount_cons]
    have := inkCount_of_ofBody? h
    omega
  · next body _ heq =>
    rw [heq, bracket]
    have := inkCount_of_ofBody? h
    omega
  · cases h

end CommentMarkup
