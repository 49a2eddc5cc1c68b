import CommentMarkup.Block.Step

/-!
# Reading blocks

`readBlocks` reads lines into blocks, one block after the other, and reads the lines of list items
and footnotes in their turn. It ends because each nested reading has less ink than the one around
it.
-/

namespace CommentMarkup

mutual

/-- The blocks of the lines, the first of which has number `n`. -/
def readBlocks (fence : Text) (ctx : Context) (n : Nat) (ls : List Text) :
    Except Malformed (List Block) :=
  match ls with
  | [] => .ok []
  | l :: rest =>
    if l.isBlank then readBlocks fence ctx (n + 1) rest
    else
      match h : blockAt fence ctx l rest with
      | .leaf block more => do
        let blocks ← readBlocks fence ctx (n + (more + 1)) (rest.drop more)
        return block :: blocks
      | .list ordered start run => do
        let items ← readItems fence n run.items
        let blocks ← readBlocks fence ctx (n + run.taken) (rest.drop (run.taken - 1))
        return .list ordered start run.tight items :: blocks
      | .footnote label body more => do
        let inner ← readBlocks fence .item n (lines (unlines body))
        let blocks ← readBlocks fence ctx (n + (more + 1)) (rest.drop more)
        return .footnoteDef label inner :: blocks
      | .malformed reason => .error ⟨n, reason⟩
termination_by (totalInk ls, 0, ls.length)
decreasing_by
  · exact Prod.Lex.right' _ (by simp) (Prod.Lex.right _ (by simp))
  · have := totalInk_drop_le more rest
    exact Prod.Lex.right' _ (by rw [totalInk_cons]; omega)
      (Prod.Lex.right _ (by rw [List.length_drop, List.length_cons]; omega))
  · have := blockAt_shrinks fence ctx l rest
    rw [h] at this
    exact Prod.Lex.left _ _ this
  · have := totalInk_drop_le (run.taken - 1) rest
    exact Prod.Lex.right' _ (by rw [totalInk_cons]; omega)
      (Prod.Lex.right _ (by rw [List.length_drop, List.length_cons]; omega))
  · have := blockAt_shrinks fence ctx l rest
    rw [h] at this
    refine Prod.Lex.left _ _ ?_
    rw [totalInk_lines, inkCount_unlines]
    exact this
  · have := totalInk_drop_le more rest
    exact Prod.Lex.right' _ (by rw [totalInk_cons]; omega)
      (Prod.Lex.right _ (by rw [List.length_drop, List.length_cons]; omega))

def readItems (fence : Text) (n : Nat) (items : List RawItem) :
    Except Malformed (List (Item Block)) :=
  match items with
  | [] => .ok []
  | item :: rest => do
    let blocks ← readBlocks fence .item (n + item.offset) (lines (unlines item.body))
    let items ← readItems fence n rest
    return ⟨item.bullet, blocks⟩ :: items
termination_by (itemsInk items, 1, items.length)
decreasing_by
  · exact Prod.Lex.right' _ (by rw [totalInk_lines, inkCount_unlines]; simp)
      (Prod.Lex.left _ _ (by decide))
  · exact Prod.Lex.right' _ (by simp) (Prod.Lex.right _ (by simp))

end

/-- The blocks of a text. References are not resolved and spans not read. -/
def readDocument (fence text : Text) : Except Malformed (List Block) :=
  readBlocks fence .document 1 (lines text)

/-- The blocks of a text that stands outside the flow of a document, such as a footnote written in
place. -/
def readFragment (fence text : Text) : Except Malformed (List Block) :=
  readBlocks fence .item 1 (lines text)

end CommentMarkup
