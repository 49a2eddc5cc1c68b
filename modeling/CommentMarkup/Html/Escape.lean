import CommentMarkup.Text.Basic

/-!
# Escaping

How text is written in HTML: `escapeText` between tags, `escapeAttribute` inside a double-quoted
attribute value, and `obfuscate` for addresses, every character of which becomes a numeric
reference.
-/

namespace CommentMarkup

def escapeTextChar (c : Char) : Text :=
  if c = '&' then "&amp;".toList
  else if c = '<' then "&lt;".toList
  else if c = '>' then "&gt;".toList
  else [c]

def escapeAttributeChar (c : Char) : Text :=
  if c = '"' then "&quot;".toList else escapeTextChar c

def escapeText (t : Text) : Text := t.flatMap escapeTextChar

def escapeAttribute (t : Text) : Text := t.flatMap escapeAttributeChar

def decimalReference (c : Char) : Text := "&#".toList ++ Nat.toDigits 10 c.toNat ++ [';']

def hexReference (c : Char) : Text := "&#x".toList ++ Nat.toDigits 16 c.toNat ++ [';']

mutual

/-- Numeric references for every character, decimal and hexadecimal in turn. -/
def obfuscate : Text → Text
  | [] => []
  | c :: cs => decimalReference c ++ obfuscateHex cs

/-- As `obfuscate`, the first reference hexadecimal. -/
def obfuscateHex : Text → Text
  | [] => []
  | c :: cs => hexReference c ++ obfuscate cs

end

end CommentMarkup
