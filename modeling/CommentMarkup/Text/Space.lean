import CommentMarkup.Text.CharTable

/-!
# White space

`isSpace` is Unicode's White_Space property: 25 characters, none of them of zero width.
-/

namespace CommentMarkup

def spaceRanges : List (Nat × Nat) :=
  [(0x9, 0xD), (0x20, 0x20), (0x85, 0x85), (0xA0, 0xA0), (0x1680, 0x1680), (0x2000, 0x200A),
    (0x2028, 0x2029), (0x202F, 0x202F), (0x205F, 0x205F), (0x3000, 0x3000)]

def isSpace (c : Char) : Bool := inRanges spaceRanges c.toNat

/-- A space or a tab, the characters that indent a line. -/
def isIndent (c : Char) : Bool := c == ' ' || c == '\t'

theorem isSpace_of_isIndent {c : Char} (h : isIndent c) : isSpace c := by
  simp only [isIndent, Bool.or_eq_true, beq_iff_eq] at h
  rcases h with rfl | rfl <;> decide

end CommentMarkup
