import CommentMarkup.Text.Ink
import CommentMarkup.Tree

/-!
# List markers

The marker that makes a line the first line of a list item, and the task box that may follow it.
`ListMarker.inkCount_content_lt` says that the content of the line has less ink than the line.
-/

namespace CommentMarkup

/-- The marker of a list item and what follows it on its line. -/
structure ListMarker where
  indent : Nat
  ordered : Bool
  /-- The ordinal of an ordered marker, one for the others. -/
  number : Nat
  /-- The column to which the lines that continue the item are taken back. -/
  contentColumn : Nat
  /-- The rest of the line, without leading white space. -/
  content : Text
  deriving DecidableEq, Repr

/-- The marker of `width` characters before `rest`, which must begin with a space or a tab or be
empty. More than four of them count as one. -/
def ListMarker.before? (indent : Nat) (ordered : Bool) (number width : Nat) (rest : Text) :
    Option ListMarker :=
  if rest.endsOr isIndent then
    let gap := (rest.takeWhile isIndent).length
    let spacing := if 4 < gap then 1 else max gap 1
    some ⟨indent, ordered, number, indent + width + spacing, rest.trimStart⟩
  else none

/-- The list marker of a line: a hyphen, a plus sign, an asterisk, or at most nine digits and a
point. -/
def listMarker? (line : Text) : Option ListMarker :=
  let indent := indentColumns line
  match line.trimStart with
  | [] => none
  | c :: rest =>
    if c = '-' ∨ c = '+' ∨ c = '*' then ListMarker.before? indent false 1 1 rest
    else
      let digits := (c :: rest).takeWhile Char.isDigit
      match (c :: rest).drop digits.length with
      | '.' :: rest' =>
        if digits.isEmpty ∨ 9 < digits.length then none
        else ListMarker.before? indent true (Nat.ofDigitChars 10 digits 0) (digits.length + 1) rest'
      | _ => none

/-- The task boxes, and whether each is checked. -/
def taskBoxes : List (Text × Bool) :=
  [("[ ]".toList, false), ("[]".toList, false), ("[x]".toList, true), ("[X]".toList, true)]

/-- The text after a task box, if the item starts with this box and a space, a tab or nothing. -/
def afterTaskBox? (box content : Text) : Option Text :=
  (Text.dropLead? box content).bind fun rest =>
    if rest.endsOr isIndent then some rest.trimStart else none

def splitTask (content : Text) : Bullet × Text :=
  match taskBoxes.findSome? fun (box, checked) => (afterTaskBox? box content).map (checked, ·) with
  | some (checked, rest) => (.task checked, rest)
  | none => (.plain, content)

/-! ### Ink -/

theorem ListMarker.inkCount_of_before? {indent number width : Nat} {ordered : Bool} {rest : Text}
    {m : ListMarker} (h : before? indent ordered number width rest = some m) :
    Text.inkCount m.content = rest.inkCount := by
  unfold before? at h
  split at h
  · cases h
    exact Text.inkCount_trimStart rest
  · cases h

/-- The content of a list item's first line lacks at least the marker. -/
theorem ListMarker.inkCount_content_lt {line : Text} {m : ListMarker}
    (h : listMarker? line = some m) : Text.inkCount m.content < line.inkCount := by
  rw [← Text.inkCount_trimStart line]
  unfold listMarker? at h
  dsimp only at h
  split at h
  · cases h
  · next c rest heq =>
    rw [heq]
    split at h
    · next hc =>
      rw [inkCount_of_before? h, Text.inkCount_cons]
      rcases hc with rfl | rfl | rfl <;> rw [if_neg (by decide)] <;> omega
    · split at h
      · next rest' hdrop =>
        split at h
        · cases h
        · rw [inkCount_of_before? h]
          have := Text.inkCount_drop_le ((c :: rest).takeWhile Char.isDigit).length (c :: rest)
          rw [hdrop, Text.inkCount_cons, if_neg (by decide)] at this
          omega
      · cases h

theorem inkCount_splitTask_le (content : Text) :
    Text.inkCount (splitTask content).2 ≤ content.inkCount := by
  unfold splitTask
  split
  · next checked rest h =>
    obtain ⟨⟨box, b⟩, _, hb⟩ := List.exists_of_findSome?_eq_some h
    obtain ⟨t, ht, hpair⟩ := Option.map_eq_some_iff.1 hb
    cases hpair
    obtain ⟨s, hs, hst⟩ := Option.bind_eq_some_iff.1 ht
    split at hst
    · cases hst
      rw [Text.inkCount_trimStart]
      exact Text.inkCount_of_dropLead? hs
    · cases hst
  · exact Nat.le_refl _

end CommentMarkup
