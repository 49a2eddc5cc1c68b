import CommentMarkup.Html.CharRef

/-!
# JSON values

A strict reader of JSON. Numbers keep no value, since nothing asks for one. A string may spell code
units that form no text; such a string is kept as nothing.
-/

namespace CommentMarkup

/-- A JSON value. Members of an object stand in the order in which they are written. -/
inductive Json
  | null
  | bool (b : Bool)
  | number
  | string (t : Option Text)
  | array (values : List Json)
  | object (members : List (Option Text × Json))
  deriving Repr, Inhabited

namespace Json

def isGap (c : Char) : Bool := c == ' ' || c == '\n' || c == '\r' || c == '\t'

def skipGap (t : Text) : Text := t.dropWhile isGap

/-! ### Strings -/

/-- The characters that a letter after a backslash stands for. -/
def escapes : List (Char × Char) :=
  [('"', '"'), ('\\', '\\'), ('/', '/'), ('b', '\x08'), ('f', '\x0c'), ('n', '\n'), ('r', '\r'),
    ('t', '\t')]

/-- The code unit of four hexadecimal digits, and the text after them. -/
def codeUnit? (t : Text) : Option (Nat × Text) :=
  if 4 ≤ t.length then (CharRef.number? 16 (t.take 4)).map (·, t.drop 4) else none

/-- The first of two code units that form one character. -/
def isLeading (n : Nat) : Bool := 0xD800 ≤ n && n < 0xDC00

/-- The second of two code units that form one character. -/
def isTrailing (n : Nat) : Bool := 0xDC00 ≤ n && n < 0xE000

def ofCodeUnits? : List Nat → Option Text
  | [] => some []
  | [n] => if isLeading n || isTrailing n then none else some [Char.ofNat n]
  | n :: m :: ns =>
    if isLeading n && isTrailing m then
      (ofCodeUnits? ns).map (Char.ofNat (0x10000 + (n - 0xD800) * 0x400 + (m - 0xDC00)) :: ·)
    else if isLeading n || isTrailing n then none
    else (ofCodeUnits? (m :: ns)).map (Char.ofNat n :: ·)

def codeUnits (c : Char) : List Nat :=
  let n := c.toNat
  if n < 0x10000 then [n]
  else [0xD800 + (n - 0x10000) / 0x400, 0xDC00 + (n - 0x10000) % 0x400]

/-- The code units of a string after its opening quote, and the text after the string. -/
def stringUnits? (fuel : Nat) (t : Text) : Option (List Nat × Text) :=
  match fuel, t with
  | 0, _ | _, [] => none
  | _ + 1, '"' :: cs => some ([], cs)
  | fuel + 1, '\\' :: 'u' :: cs => do
    let (unit, cs) ← codeUnit? cs
    let (units, cs) ← stringUnits? fuel cs
    return (unit :: units, cs)
  | fuel + 1, '\\' :: e :: cs => do
    let c ← escapes.lookup e
    let (units, cs) ← stringUnits? fuel cs
    return (c.toNat :: units, cs)
  | fuel + 1, c :: cs =>
    if c = '\\' ∨ c.toNat < 32 then none
    else (stringUnits? fuel cs).map fun (units, cs) => (codeUnits c ++ units, cs)

/-- A string after its opening quote. -/
def string? (t : Text) : Option (Option Text × Text) :=
  (stringUnits? (t.length + 1) t).map fun (units, rest) => (ofCodeUnits? units, rest)

/-! ### Numbers -/

def afterDigits? (t : Text) : Option Text :=
  if Text.startsWith Char.isDigit t then some (t.dropWhile Char.isDigit) else none

/-- What follows the digits before the point. A zero stands alone. -/
def afterWhole? : Text → Option Text
  | '0' :: cs => some cs
  | t => afterDigits? t

/-- What follows the point and the digits after it, if there are any. -/
def afterFraction? : Text → Option Text
  | '.' :: cs => afterDigits? cs
  | t => some t

/-- What follows the exponent, if there is one. -/
def afterExponent? : Text → Option Text
  | c :: cs =>
    if c = 'e' ∨ c = 'E' then
      afterDigits? (match cs with
        | '+' :: ds | '-' :: ds => ds
        | _ => cs)
    else some (c :: cs)
  | [] => some []

def afterNumber? (t : Text) : Option Text :=
  (afterWhole? (match t with
    | '-' :: cs => cs
    | _ => t)).bind fun t => (afterFraction? t).bind afterExponent?

/-! ### Values -/

mutual

def value? (fuel : Nat) (t : Text) : Option (Json × Text) :=
  match fuel, skipGap t with
  | 0, _ | _, [] => none
  | _ + 1, '"' :: cs => (string? cs).map fun (s, cs) => (.string s, cs)
  | fuel + 1, '[' :: cs =>
    match skipGap cs with
    | ']' :: cs => some (.array [], cs)
    | cs => (elements? fuel cs).map fun (values, cs) => (.array values, cs)
  | fuel + 1, '\x7b' :: cs =>
    match skipGap cs with
    | '\x7d' :: cs => some (.object [], cs)
    | cs => (members? fuel cs).map fun (members, cs) => (.object members, cs)
  | _ + 1, t =>
    ((Text.dropLead? "null".toList t).map (Json.null, ·)).or <|
      ((Text.dropLead? "true".toList t).map (Json.bool true, ·)).or <|
        ((Text.dropLead? "false".toList t).map (Json.bool false, ·)).or <|
          (afterNumber? t).map (Json.number, ·)

/-- The values of an array, with commas between them, up to its closing bracket. -/
def elements? (fuel : Nat) (t : Text) : Option (List Json × Text) :=
  match fuel with
  | 0 => none
  | fuel + 1 => do
    let (value, t) ← value? fuel t
    match skipGap t with
    | ']' :: cs => some ([value], cs)
    | ',' :: cs => (elements? fuel cs).map fun (values, cs) => (value :: values, cs)
    | _ => none

/-- The members of an object, with commas between them, up to its closing brace. -/
def members? (fuel : Nat) (t : Text) : Option (List (Option Text × Json) × Text) :=
  match fuel, skipGap t with
  | fuel + 1, '"' :: cs => do
    let (name, t) ← string? cs
    let t ← Text.dropLead? [':'] (skipGap t)
    let (value, t) ← value? fuel t
    match skipGap t with
    | '\x7d' :: cs => some ([(name, value)], cs)
    | ',' :: cs => (members? fuel cs).map fun (members, cs) => ((name, value) :: members, cs)
    | _ => none
  | _, _ => none

end

def ofText? (t : Text) : Option Json :=
  (value? (2 * t.length + 2) t).bind fun (value, rest) =>
    if (skipGap rest).isEmpty then some value else none

end Json
end CommentMarkup
