import CommentMarkup.Html.CharRef
import CommentMarkup.Html.Tag
import CommentMarkup.Inline.Address
import CommentMarkup.Inline.Delimited
import CommentMarkup.Inline.Emphasis

/-!
# Scanning inline text

`scan` cuts inline text into finished spans and runs of delimiters. What a bracket opens depends on
the document, so it is asked of an `Attempt`, which may carry a state along; the text of a link is
scanned with the attempt that never succeeds.
-/

namespace CommentMarkup

/-- What stands at a character that opens no bracket. Each holds the number of characters that it
takes after the first one. -/
inductive Lexeme
  /-- Text as it is shown. -/
  | text (t : Text) (more : Nat)
  /-- A punctuation character after a backslash. -/
  | escape (c : Char)
  | span (span : Inline) (more : Nat)
  | run (run : Run) (more : Nat)
  | lineBreak (more : Nat)
  deriving Repr

/-- The tag or comment that the text starts with, and its length. A tag that is not allowed is
text. -/
def rawInline? (t : Text) : Option (Inline × Nat) :=
  (scanTag t).map fun (markup, n) =>
    (if markup.isAllowed then .rawHtml (t.take n) else .text (t.take n), n)

def backslashLexeme : Text → Lexeme
  | [] => .text ['\\'] 0
  | c :: _ =>
    if c = '\n' then .lineBreak 1
    else if isPunctuation c then .escape c
    else .text ['\\'] 0

/-- What the character `c` starts, with `cs` after it, `prev` before it, `escaped` if that was
escaped, and `held` the text before it in reverse. -/
def lexeme (mode : EmphasisMode) (prev escaped : Option Char) (held : Text) (c : Char) (cs : Text) :
    Lexeme :=
  if c = '\\' then backslashLexeme cs
  else if c = tick then
    match codeSpan? (c :: cs) with
    | some (code, n) => .span (.code code) (n - 1)
    | none => .text (c :: cs.takeWhile (· == tick)) (runLength tick cs)
  else if c = '&' then
    match CharRef.length? (c :: cs) with
    | some n => .span (.charRef ((c :: cs).take n)) (n - 1)
    | none => .text [c] 0
  else if c = '<' then
    match autolink? (c :: cs) <|> rawInline? (c :: cs) with
    | some (span, n) => .span span (n - 1)
    | none => .text [c] 0
  else if c = '*' ∨ c = '_' ∨ c = '~' then
    let more := runLength c cs
    match delimiterRun? mode escaped prev c (more + 1) (cs.drop more).head? with
    | some run => .run run more
    | none => .text (List.replicate (more + 1) c) more
  else if c = '\n' ∧ [' ', ' '].isPrefixOf held then .lineBreak 0
  else .text [c] 0

/-- The character opens a bracket of a link, an image or a footnote reference. An escaped
exclamation mark keeps the bracket after it literal. -/
def opensBracket (escaped : Option Char) (c : Char) (cs : Text) : Bool :=
  (c == '!' && cs.head? == some '[') || (c == '[' && escaped != some '!')

/-- What is made of a text that starts with a bracket or with an exclamation mark and a bracket: a
span and the number of characters that it takes, or nothing, and the state afterwards. -/
abbrev Attempt (σ : Type) := Text → σ → Option (Inline × Nat) × σ

def Attempt.never : Attempt Unit := fun _ s => (none, s)

/-- The text held back, in reverse, as a piece. -/
def heldPiece (held : Text) : List Piece :=
  if held.isEmpty then [] else [.span (.text held.reverse)]

/-- The pieces of a text and the state after it. Text is held back, in reverse, until something else
follows it. -/
def scan {σ : Type} (mode : EmphasisMode) (attempt : Attempt σ) (prev escaped : Option Char)
    (held t : Text) (s : σ) : List Piece × σ :=
  match t with
  | [] => (heldPiece held, s)
  | c :: cs =>
    let last (more : Nat) := (c :: cs.take more).getLast?
    if opensBracket escaped c cs then
      match attempt (c :: cs) s with
      | (some (span, n), s) =>
        let (pieces, s) := scan mode attempt (last (n - 1)) none [] (cs.drop (n - 1)) s
        (heldPiece held ++ .span span :: pieces, s)
      | (none, s) => scan mode attempt (some c) none (c :: held) cs s
    else
      match lexeme mode prev escaped held c cs with
      | .text shown more =>
        scan mode attempt (last more) none (shown.reverse ++ held) (cs.drop more) s
      | .escape e => scan mode attempt (some e) (some e) (e :: held) (cs.drop 1) s
      | .span span more =>
        let (pieces, s) := scan mode attempt (last more) none [] (cs.drop more) s
        (heldPiece held ++ .span span :: pieces, s)
      | .run run more =>
        let (pieces, s) := scan mode attempt (last more) none [] (cs.drop more) s
        (heldPiece held ++ .run run :: pieces, s)
      | .lineBreak more =>
        let (pieces, s) := scan mode attempt (some '\n') none [] (cs.drop more) s
        (heldPiece (held.dropWhile (· == ' ')) ++ .span .lineBreak :: pieces, s)
termination_by t.length
decreasing_by all_goals simp only [List.length_cons, List.length_drop]; omega

/-- The spans of a text in which brackets mean nothing. -/
def readFlat (mode : EmphasisMode) (t : Text) : List Inline :=
  emphasize (scan mode .never none none [] t ()).1

end CommentMarkup
