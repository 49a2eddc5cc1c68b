import CommentMarkup.Text.CaseFold
import CommentMarkup.Tree.Walk

/-!
# References

The definitions of a document, collected into tables before any reference is resolved. Labels of
links and footnotes compare without regard to case and to the amount of white space; abbreviations
compare exactly. The first definition of a label counts, each further one is reported.
-/

namespace CommentMarkup

/-- The form in which labels compare: words separated by single spaces, with case folded. -/
def normalizeLabel (label : Text) : Text :=
  (List.intercalate [' '] label.words).flatMap caseFold

structure References where
  /-- Targets by normalized label, the first definition first. -/
  links : List (Text × Target)
  /-- Footnote bodies by normalized label, the first definition first. -/
  footnotes : List (Text × List Block)
  /-- Expansions by term. -/
  abbreviations : List (Text × Text)
  deriving Repr, Inhabited

namespace References

def empty : References := ⟨[], [], []⟩

def link? (references : References) (label : Text) : Option Target :=
  references.links.lookup (normalizeLabel label)

def footnote? (references : References) (label : Text) : Option (List Block) :=
  references.footnotes.lookup (normalizeLabel label)

/-- The tables with the definition in `block`, if it is one, and the warnings so far. -/
def register (state : References × List Warning) (block : Block) : References × List Warning :=
  let (references, warnings) := state
  match block with
  | .referenceDef label target =>
    if (references.link? label).isSome then (references, warnings ++ [.duplicate .link label])
    else
      ({ references with links := references.links ++ [(normalizeLabel label, target)] }, warnings)
  | .footnoteDef label blocks =>
    if (references.footnote? label).isSome then
      (references, warnings ++ [.duplicate .footnote label])
    else
      ({ references with footnotes := references.footnotes ++ [(normalizeLabel label, blocks)] },
        warnings)
  | .abbreviationDef term expansion =>
    if (references.abbreviations.lookup term).isSome then
      (references, warnings ++ [.duplicate .abbreviation term])
    else
      ({ references with abbreviations := references.abbreviations ++ [(term, expansion)] },
        warnings)
  | _ => (references, warnings)

/-- The terms with longer ones before shorter ones. Terms of one length keep their order. -/
def longestFirst (terms : List (Text × Text)) : List (Text × Text) :=
  terms.mergeSort fun a b => b.1.length ≤ a.1.length

/-- The definitions in the flow of the blocks, and a warning for each that is not the first of its
label. -/
def collect (blocks : List Block) : References × List Warning :=
  let (references, warnings) := (flow blocks).foldl register (empty, [])
  ({ references with abbreviations := longestFirst references.abbreviations }, warnings)

end References
end CommentMarkup
