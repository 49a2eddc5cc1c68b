import CommentMarkup.Options
import CommentMarkup.Tree

/-!
# Addresses in angle brackets

Absolute URIs and mail addresses, and the recogniser for one in angle brackets.
-/

namespace CommentMarkup

def isSchemeChar (c : Char) : Bool := c.isAlphanum || c == '+' || c == '.' || c == '-'

/-- A scheme of two to 32 characters, a colon, and something after it. -/
def isAbsoluteUri (t : Text) : Bool :=
  let scheme := t.takeWhile (· != ':')
  2 ≤ scheme.length && scheme.length ≤ 32 && scheme.length + 1 < t.length &&
    Text.startsWith Char.isAlpha scheme && scheme.all isSchemeChar

/-- The punctuation that may stand before the at sign of a mail address. -/
def mailboxPunctuation : Text :=
  ['.', '!', '#', '$', '%', '&', '\'', '*', '+', '/', '=', '?', '^', '_', tick, '\x7b', '|', '\x7d',
    '~', '-']

def isMailboxChar (c : Char) : Bool := c.isAlphanum || mailboxPunctuation.contains c

/-- A label of a domain name: at most 63 letters, digits and hyphens, no hyphen at either end. -/
def isDomainLabel (label : Text) : Bool :=
  label.length ≤ 63 && label.startsWith Char.isAlphanum && label.endsWith Char.isAlphanum &&
    label.all fun c => c.isAlphanum || c == '-'

def isMailAddress (t : Text) : Bool :=
  let mailbox := t.takeWhile (· != '@')
  !mailbox.isEmpty && mailbox.all isMailboxChar && mailbox.length < t.length &&
    (cutAt (· == '.') (t.drop (mailbox.length + 1))).all isDomainLabel

/-- The address in angle brackets that the text starts with, and its length. -/
def autolink? : Text → Option (Inline × Nat)
  | '<' :: cs =>
    let address := cs.takeWhile fun c => c != '>' && c != '\n' && c != '<'
    if !Text.startsWith (· == '>') (cs.drop address.length) || address.any isSpace then none
    else if isMailAddress address then some (.autolink address true, address.length + 2)
    else if isAbsoluteUri address then some (.autolink address false, address.length + 2)
    else none
  | _ => none

end CommentMarkup
