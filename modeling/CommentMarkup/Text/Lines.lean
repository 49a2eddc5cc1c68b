import CommentMarkup.Text.Basic

/-!
# Lines and indentation

`lines` cuts a text into lines, `unlines` joins them again. Indentation is counted in columns, a tab
reaching to the next multiple of four.
-/

namespace CommentMarkup

/-- The lines of a text: cut at each line feed, a carriage return directly before it dropped. A
final line feed starts no further line. -/
def lines : Text → List Text
  | [] => []
  | '\n' :: cs => [] :: lines cs
  | '\r' :: '\n' :: cs => [] :: lines cs
  | c :: cs =>
    match lines cs with
    | [] => [[c]]
    | l :: ls => (c :: l) :: ls

def unlines (ls : List Text) : Text := List.intercalate ['\n'] ls

/-- The column that a tab at column `col` reaches. -/
def tabStop (col : Nat) : Nat := (col / 4 + 1) * 4

/-- The column reached by the spaces and tabs at the start of a text that begins at column `col`. -/
def indentFrom (col : Nat) : Text → Nat
  | ' ' :: cs => indentFrom (col + 1) cs
  | '\t' :: cs => indentFrom (tabStop col) cs
  | _ => col

def indentColumns (line : Text) : Nat := indentFrom 0 line

/-- The line, begun at column `col`, without its indentation up to column `limit`. -/
def removeIndentFrom (limit col : Nat) : Text → Text
  | ' ' :: cs => if col < limit then removeIndentFrom limit (col + 1) cs else ' ' :: cs
  | '\t' :: cs =>
    if col < limit then
      List.replicate (tabStop col - limit) ' ' ++ removeIndentFrom limit (tabStop col) cs
    else '\t' :: cs
  | cs => cs

/-- The line without up to `columns` columns of indentation. A tab across the boundary leaves its
remainder as spaces. -/
def removeIndent (columns : Nat) (line : Text) : Text := removeIndentFrom columns 0 line

end CommentMarkup
