import CommentMarkup.Text.Space

/-!
# Text

A text is a list of characters. This module holds the operations that every stage of reading shares:
trimming, words, and the searches that cut a text at a character or a phrase.
-/

namespace CommentMarkup

/-- A text, as the list of its characters. -/
abbrev Text := List Char

/-- An ASCII punctuation character. -/
def isPunctuation (c : Char) : Bool :=
  c.toNat < 127 && !c.isAlphanum && 32 < c.toNat

/-- The pieces of a list between the elements that satisfy `p`. -/
def cutAt {α : Type} (p : α → Bool) : List α → List (List α)
  | [] => [[]]
  | a :: l =>
    if p a then [] :: cutAt p l
    else
      match cutAt p l with
      | [] => [[a]]
      | piece :: pieces => (a :: piece) :: pieces

/-- The sum of a measure over a list. -/
def sumOver {α : Type} (measure : α → Nat) : List α → Nat
  | [] => 0
  | a :: l => measure a + sumOver measure l

theorem sumOver_append {α : Type} (measure : α → Nat) (k l : List α) :
    sumOver measure (k ++ l) = sumOver measure k + sumOver measure l := by
  induction k with
  | nil => simp [sumOver]
  | cons a k ih => simp only [List.cons_append, sumOver, ih]; omega

namespace Text

def trimStart (t : Text) : Text := t.dropWhile isSpace

/-- The text without the trailing characters that satisfy `p`. -/
def dropEndWhile (p : Char → Bool) (t : Text) : Text := (t.reverse.dropWhile p).reverse

def trimEnd (t : Text) : Text := t.dropEndWhile isSpace

def trim (t : Text) : Text := t.trimStart.trimEnd

def isBlank (t : Text) : Bool := t.all isSpace

/-- The number of characters other than white space. -/
def inkCount (t : Text) : Nat := t.countP fun c => !isSpace c

/-- What follows `lead`, if the text starts with it. -/
def dropLead? (lead t : Text) : Option Text :=
  if lead.isPrefixOf t then some (t.drop lead.length) else none

def startsWith (p : Char → Bool) : Text → Bool
  | [] => false
  | c :: _ => p c

/-- The text is empty or starts with a character that satisfies `p`. -/
def endsOr (p : Char → Bool) : Text → Bool
  | [] => true
  | c :: _ => p c

def endsWith (p : Char → Bool) (t : Text) : Bool := startsWith p t.reverse

/-- The number of characters before the first place where `phrase` stands. -/
def find? (phrase : Text) : Text → Option Nat
  | [] => if phrase.isEmpty then some 0 else none
  | c :: cs => if phrase.isPrefixOf (c :: cs) then some 0 else (find? phrase cs).map (· + 1)

/-- The maximal runs of characters other than white space. -/
def words (t : Text) : List Text := (cutAt isSpace t).filter fun w => !w.isEmpty

def octets (t : Text) : Nat := sumOver Char.utf8Size t

/-- ASCII capitals made small, all else kept. -/
def toLower (t : Text) : Text := t.map Char.toLower

def ofNat (n : Nat) : Text := Nat.toDigits 10 n

end Text
end CommentMarkup
