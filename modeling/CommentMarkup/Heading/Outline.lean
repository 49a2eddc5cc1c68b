import CommentMarkup.Tree

/-!
# Outlines

The headings of a document as a tree: a heading stands under the closest heading before it that has
a smaller level.
-/

namespace CommentMarkup

inductive OutlineNode
  | node (entry : Entry) (children : List OutlineNode)
  deriving Repr, Inhabited

def OutlineNode.entry : OutlineNode → Entry
  | node entry _ => entry

def OutlineNode.children : OutlineNode → List OutlineNode
  | node _ children => children

/-- The tree of the entries. Below an entry stand those after it, up to the first one that is not
deeper. -/
def nest : List Entry → List OutlineNode
  | [] => []
  | entry :: rest =>
    .node entry (nest (rest.takeWhile fun e => entry.level < e.level)) ::
      nest (rest.dropWhile fun e => entry.level < e.level)
termination_by entries => entries.length
decreasing_by
  · have := (List.takeWhile_sublist (fun e => decide (entry.level < e.level)) (l := rest)).length_le
    simp only [List.length_cons]; omega
  · have := (List.dropWhile_sublist (fun e => decide (entry.level < e.level)) (l := rest)).length_le
    simp only [List.length_cons]; omega

end CommentMarkup
