/-!
# Tables over code points

Sets of characters are lists of closed ranges. Maps between characters are lists of runs: the run
`(first, last, step, image)` sends `first`, `first + step`, …, `last` to `image`, `image + step`, ….
-/

namespace CommentMarkup

def inRanges (ranges : List (Nat × Nat)) (n : Nat) : Bool :=
  ranges.any fun r => r.1 ≤ n && n ≤ r.2

/-- The image of `n` under the first run that holds it, and `n` itself outside all runs. -/
def runImage : List (Nat × Nat × Nat × Nat) → Nat → Nat
  | [], n => n
  | (first, last, step, image) :: runs, n =>
    if first ≤ n && n ≤ last && (n - first) % step == 0 then image + (n - first)
    else runImage runs n

/-- The numbers that some run sends to `n`. -/
def runSources (runs : List (Nat × Nat × Nat × Nat)) (n : Nat) : List Nat :=
  runs.filterMap fun (first, last, step, image) =>
    let offset := n - image
    if image ≤ n && offset ≤ last - first && offset % step == 0 then some (first + offset) else none

end CommentMarkup
