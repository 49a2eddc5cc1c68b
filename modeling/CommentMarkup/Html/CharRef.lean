import CommentMarkup.Html.CharRef.Names
import CommentMarkup.Text.Basic

/-!
# Character references

`CharRef.length?` recognises a character reference by its form alone, `CharRef.decode` replaces the
references in a text by the characters that they name.
-/

namespace CommentMarkup.CharRef

def hexValue? (c : Char) : Option Nat :=
  if c.isDigit then some (c.toNat - '0'.toNat)
  else if 'a' ≤ c ∧ c ≤ 'f' then some (c.toNat - 'a'.toNat + 10)
  else if 'A' ≤ c ∧ c ≤ 'F' then some (c.toNat - 'A'.toNat + 10)
  else none

def isHexDigit (c : Char) : Bool := (hexValue? c).isSome

/-! ### Form -/

/-- The length of a reference whose body, one to `limit` characters that satisfy `valid` and then a
semicolon, stands after `lead` characters. -/
def bodyLength? (lead limit : Nat) (valid : Char → Bool) (body : Text) : Option Nat :=
  let n := (body.takeWhile valid).length
  if n = 0 ∨ limit < n ∨ !Text.startsWith (· == ';') (body.drop n) then none
  else some (lead + n + 1)

/-- The length of the character reference that the text starts with: `&` and a name of at most 32
letters and digits, `&#` and at most seven decimal digits, or `&#x` and at most six hexadecimal
digits, each ended by a semicolon. -/
def length? : Text → Option Nat
  | '&' :: '#' :: 'x' :: body => bodyLength? 3 6 isHexDigit body
  | '&' :: '#' :: 'X' :: body => bodyLength? 3 6 isHexDigit body
  | '&' :: '#' :: body => bodyLength? 2 7 Char.isDigit body
  | '&' :: body =>
    if Text.startsWith Char.isAlpha body then bodyLength? 1 32 Char.isAlphanum body else none
  | _ => none

/-! ### Meaning -/

/-- The number that digits to `base` spell; nothing for no digit or a character that is none. -/
def number? (base : Nat) (digits : Text) : Option Nat :=
  if digits.isEmpty then none
  else digits.foldlM (fun n c =>
    match hexValue? c with
    | some d => if d < base then some (n * base + d) else none
    | none => none) 0

/-- The character with code point `n`, unless it is a control character that is no white space. -/
def ofCodePoint? (n : Nat) : Option Text :=
  if n.isValidChar ∧ (32 ≤ n ∨ n = 9 ∨ n = 10 ∨ n = 12 ∨ n = 13) then some [Char.ofNat n] else none

/-- What the reference with the given body, the part between `&` and `;`, stands for. -/
def meaning? : Text → Option Text
  | '#' :: 'x' :: digits => (number? 16 digits).bind ofCodePoint?
  | '#' :: 'X' :: digits => (number? 16 digits).bind ofCodePoint?
  | '#' :: digits => (number? 10 digits).bind ofCodePoint?
  | name => (namedCodePoints? (String.ofList name)).map fun ns => ns.map Char.ofNat

/-- The body of the reference that starts after an `&`, up to its semicolon. -/
def body? (t : Text) : Option Text :=
  let body := t.takeWhile fun c => c != ';' && c != '&'
  if Text.startsWith (· == ';') (t.drop body.length) then some body else none

/-- The text with every reference replaced by what it stands for; a reference without a meaning
stays as written. -/
def decode : Text → Text
  | [] => []
  | c :: cs =>
    if c = '&' then
      match body? cs with
      | none => c :: decode cs
      | some body =>
        match meaning? body with
        | none => c :: decode cs
        | some chars => chars ++ decode (cs.drop (body.length + 1))
    else c :: decode cs
termination_by t => t.length
decreasing_by all_goals simp only [List.length_cons, List.length_drop]; omega

end CommentMarkup.CharRef
