import CommentMarkup.Proofs.Comment.Searched
import CommentMarkup.Proofs.Text.Find
import CommentMarkup.Proofs.Text.Foreign
import CommentMarkup.Proofs.Text.Octet

/-!
# Extraction by octets

The extraction as it runs on UTF-8: the places where lines are cut are counted in octets, and a cut
that is out of range, or inside a character, would end it. No cut does so, and what is extracted is
the same as by characters, whatever the marker takes for the end of an opening: `sliced_eq`.
-/

namespace CommentMarkup

open Text

def commentOpen : Text := ['/', '*']

/-! ### Lines cut by octets -/

def findOctet? (phrase t : Text) : Option Nat :=
  (find? phrase t).map fun n => octets (t.take n)

/-- As `bodyLines`, with the line that ends the comment cut by octets. A comment that is passed over
is cut in no other place. -/
def slicedBody? : List Text → Option (List Text × List Text)
  | [] => some ([], [])
  | l :: ls =>
    match findOctet? commentClose l with
    | some close => do
      let inside ← takeOctets? close l
      let rest ← dropOctets? (close + 2) l
      return ((undecorated? inside).toList, rest :: ls)
    | none => do
      let (body, rest) ← slicedBody? ls
      return ((undecorated? l).toList ++ body, rest)

def dropLines? (n : Nat) (ls : List Text) : Option (List Text) :=
  if n ≤ ls.length then some (ls.drop n) else none

/-- As `commentText`, with the blank lines at the start cut off by their number. -/
def slicedText? (first : Text) (body : List Text) : Option Text :=
  let ls := if first.isBlank then body else first :: body
  let ended := (ls.reverse.dropWhile isBlank).reverse
  (dropLines? (ended.takeWhile isBlank).length ended).map unlines

/-- The text of a comment that opens and ends in the line at the given octets. It is empty if the
marker ends behind it or inside a character. -/
def shortSlice? (ends : Text → Option Nat) (l comment : Text) (opening close : Nat) : Option Text :=
  (ends comment).bind fun stop =>
    let text := ((takeOctets? close l).bind (dropOctets? (opening + max stop 2))).getD []
    if text.isBlank then none else some text

/-- The text of a comment that goes on below the line, if it is a documentation comment with text.
Cutting it may fail, as told by the outer option. -/
def longSlice? (ends : Text → Option Nat) (l comment : Text) (opening : Nat) (body : List Text) :
    Option (Option Text) :=
  match ends comment with
  | none => some none
  | some stop =>
    let first := (dropOctets? (opening + max stop 2) l).getD []
    (slicedText? first body).map fun text => if text.isEmpty then none else some text

def turn? (ends : Text → Option Nat) (l : Text) (ls : List Text) :
    Option (Option Text × List Text) :=
  match searchOctets? false (utf8 l) with
  | none => some (none, ls)
  | some opening => do
    let inside ← dropOctets? (opening + 2) l
    let comment ← dropOctets? opening l
    match findOctet? commentClose inside with
    | some n =>
      let close := opening + 2 + n
      let rest ← dropOctets? (close + 2) l
      return (shortSlice? ends l comment opening close, rest :: ls)
    | none =>
      let (body, rest) ← slicedBody? ls
      let found ← longSlice? ends l comment opening body
      return (found, rest)

/-- The marker with its ends counted in characters. An end inside a character counts as the end of
the line. -/
def Marker.ofOctets (ends : Text → Option Nat) : Marker := fun comment =>
  (ends comment).map fun stop => charCount stop comment

/-! ### Openings -/

theorem openingIndex_stands {inString : Bool} {l : Text} {n : Nat}
    (opens : openingIndex? inString l = some n) : commentOpen <+: l.drop n := by
  fun_induction openingIndex? inString l generalizing n with
  | case1 | case6 => cases opens
  | case7 inString cs outside star =>
    cases opens
    obtain ⟨rest, rfl⟩ := List.head?_eq_some_iff.mp star
    exact ⟨rest, rfl⟩
  | case2 cs ih =>
    obtain ⟨m, found, rfl⟩ := Option.map_eq_some_iff.mp opens
    have stands := ih found
    rwa [List.drop_drop, Nat.add_comm 1] at stands
  | case5 =>
    rename_i ih
    obtain ⟨m, found, rfl⟩ := Option.map_eq_some_iff.mp opens
    have stands := ih found
    rw [List.drop_drop, Nat.add_comm] at stands
    exact stands
  | case3 c cs _ ih | case4 inString cs _ ih | case8 inString cs _ _ _ _ _ ih
  | case9 inString c cs _ _ _ _ ih =>
    obtain ⟨m, found, rfl⟩ := Option.map_eq_some_iff.mp opens
    exact ih found

/-- A line with an opening, cut there. -/
theorem opening_split {l : Text} {n : Nat} (opens : openingIndex? false l = some n) :
    ∃ front inner, l = front ++ (commentOpen ++ inner) ∧ front.length = n ∧
      searchOctets? false (utf8 l) = some (octets front) := by
  obtain ⟨inner, stands⟩ := openingIndex_stands opens
  refine ⟨l.take n, inner, ?_, List.length_take_of_le (openingIndex?_lt opens).le, ?_⟩
  · exact (List.take_append_drop n l).symm.trans (congrArg _ stands.symm)
  · rw [searchOctets_opening, openingOctet?, opens, Option.map_some]

theorem close_split {inner : Text} {m : Nat} (closes : find? commentClose inner = some m) :
    ∃ text after, inner = text ++ (commentClose ++ after) ∧ text.length = m ∧
      findOctet? commentClose inner = some (octets text) := by
  refine ⟨inner.take m, inner.drop (m + commentClose.length), ?_, ?_, ?_⟩
  · rw [← List.append_assoc, find_split closes]
  · have short := find_length (by decide) closes
    exact List.length_take_of_le (by omega)
  · rw [findOctet?, closes, Option.map_some]

/-- A mark of two octets is passed as a whole. -/
theorem dropOctets_mark {mark : Text} (size : octets mark = 2) (front rest : Text) :
    dropOctets? (octets front + 2) (front ++ (mark ++ rest)) = some rest := by
  rw [dropOctets_append, ← size, dropOctets_octets]

/-! ### Bodies -/

theorem slicedBody_eq (ls : List Text) : slicedBody? ls = some (bodyLines ls) := by
  induction ls with
  | nil => rfl
  | cons l ls ih =>
    rw [slicedBody?, bodyLines]
    cases closes : find? commentClose l with
    | none =>
      rw [findOctet?, closes, ih]
      rfl
    | some m =>
      obtain ⟨text, after, rfl, rfl, octet⟩ := close_split closes
      have behind : (text ++ (commentClose ++ after)).drop (text.length + 2) = after := by
        simp [commentClose]
      rw [octet]
      dsimp only
      rw [takeOctets_octets, dropOctets_mark rfl, List.take_left, behind]
      rfl

/-- What satisfies `p` can be cut off the two ends of a list in either order. -/
theorem dropWhile_dropEnd {α : Type} (p : α → Bool) (l : List α) :
    ((l.reverse.dropWhile p).reverse).dropWhile p =
      ((l.dropWhile p).reverse.dropWhile p).reverse := by
  induction l with
  | nil => rfl
  | cons a l ih =>
    have ending : (a :: l).reverse.dropWhile p =
        if (l.reverse.dropWhile p).isEmpty then [a].dropWhile p
        else l.reverse.dropWhile p ++ [a] := by rw [List.reverse_cons, List.dropWhile_append]
    by_cases first : p a
    · rw [List.dropWhile_cons_of_pos first, ending, ← ih]
      split
      · rename_i none
        simp [first, List.isEmpty_iff.mp none]
      · rw [List.reverse_append, List.reverse_singleton, List.singleton_append,
          List.dropWhile_cons_of_pos first]
    · rw [List.dropWhile_cons_of_neg first, ending]
      split
      · simp [first]
      · rw [List.reverse_append, List.reverse_singleton, List.singleton_append,
          List.dropWhile_cons_of_neg first]

theorem slicedText_eq (first : Text) (body : List Text) :
    slicedText? first body = some (commentText first body) := by
  have start : (if first.isBlank then body else first :: body).dropWhile isBlank =
      (first :: body).dropWhile isBlank := by
    split
    · rename_i blank
      rw [List.dropWhile_cons_of_pos blank]
    · rfl
  rw [slicedText?, dropLines?, if_pos (List.takeWhile_prefix _).length_le, drop_takeWhile_length,
    dropWhile_dropEnd, start]
  rfl

/-! ### Texts -/

/-- The text behind a marker is the same whether its end is counted in octets or in characters. -/
theorem dropOctets_marker (stop : Nat) (front text behind : Text) :
    (dropOctets? (octets front + max stop 2) (front ++ (commentOpen ++ text))).getD [] =
      (commentOpen ++ text).drop (max (charCount stop (commentOpen ++ (text ++ behind))) 2) := by
  have size : octets commentOpen = 2 := rfl
  have octet : max stop 2 = octets commentOpen + (stop - 2) := by omega
  have character : max (charCount stop (commentOpen ++ (text ++ behind))) 2 =
      commentOpen.length + charCount (stop - 2) (text ++ behind) := by
    have zero (t : Text) : charCount 0 t = 0 := charCount_octets [] t
    obtain rfl | rfl | ⟨k, rfl⟩ : stop = 0 ∨ stop = 1 ∨ ∃ k, stop = octets commentOpen + k := by
      rcases Nat.lt_or_ge stop 2 with early | late
      · omega
      · exact .inr (.inr ⟨stop - 2, by omega⟩)
    · rw [zero, zero]
      rfl
    · have one : charCount 1 (commentOpen ++ (text ++ behind)) = 1 :=
        charCount_octets ['/'] ('*' :: (text ++ behind))
      rw [one, zero]
      rfl
    · rw [charCount_append, size, Nat.add_sub_cancel_left]
      exact Nat.max_eq_left (Nat.le_add_right 2 _)
  rw [dropOctets_append, octet, dropOctets_append, dropOctets_getD, character,
    List.drop_length_add_append, drop_charCount_append]

variable (ends : Text → Option Nat)

theorem shortSlice_eq (front text behind : Text) :
    shortSlice? ends (front ++ (commentOpen ++ (text ++ behind)))
        (commentOpen ++ (text ++ behind)) (octets front) (octets front + 2 + octets text) =
      shortText? (.ofOctets ends) (commentOpen ++ (text ++ behind)) text.length := by
  have taken : takeOctets? (octets front + 2 + octets text)
      (front ++ (commentOpen ++ (text ++ behind))) = some (front ++ (commentOpen ++ text)) := by
    have size : octets front + 2 + octets text = octets (front ++ (commentOpen ++ text)) := by
      rw [octets_append, octets_append, ← Nat.add_assoc]
      rfl
    have whole : front ++ (commentOpen ++ (text ++ behind)) =
        front ++ (commentOpen ++ text) ++ behind := by simp only [List.append_assoc]
    rw [size, whole, takeOctets_octets]
  have inside : (commentOpen ++ (text ++ behind)).take (text.length + 2) = commentOpen ++ text := by
    simp [commentOpen]
  rw [shortSlice?, shortText?, taken, inside, Marker.ofOctets]
  cases ends (commentOpen ++ (text ++ behind)) with
  | none => rfl
  | some stop =>
    rw [Option.bind_some, Option.map_some, Option.bind_some, Option.bind_some,
      dropOctets_marker stop front text behind]

theorem longSlice_eq (front inner : Text) (body : List Text) :
    longSlice? ends (front ++ (commentOpen ++ inner)) (commentOpen ++ inner) (octets front) body =
      some (longText? (.ofOctets ends) (commentOpen ++ inner) body) := by
  have marked (stop : Nat) := dropOctets_marker stop front inner []
  rw [List.append_nil] at marked
  rw [longSlice?, longText?, Marker.ofOctets]
  cases ends (commentOpen ++ inner) with
  | none => rfl
  | some stop =>
    dsimp only [Option.map_some, Option.bind_some]
    rw [marked, slicedText_eq, Option.map_some]

/-! ### Turns -/

theorem drop_opening (front inner : Text) :
    (front ++ (commentOpen ++ inner)).drop (front.length + 2) = inner := by
  rw [List.drop_length_add_append]
  rfl

section Turns

variable {l : Text} {opening n : Nat} (ls : List Text)

theorem turn_short (opens : openingIndex? false l = some opening)
    (closes : find? commentClose (l.drop (opening + 2)) = some n) :
    turn? ends l ls =
      some (shortText? (.ofOctets ends) (l.drop opening) n, l.drop (opening + n + 4) :: ls) := by
  obtain ⟨front, inner, rfl, rfl, octet⟩ := opening_split opens
  rw [drop_opening] at closes
  obtain ⟨text, after, rfl, rfl, close⟩ := close_split closes
  have rest : dropOctets? (octets front + 2 + octets text + 2)
      (front ++ (commentOpen ++ (text ++ (commentClose ++ after)))) = some after := by
    have mark : octets front + 2 = octets (front ++ commentOpen) :=
      (octets_append front commentOpen).symm
    rw [mark, ← List.append_assoc, Nat.add_assoc, dropOctets_append, dropOctets_mark rfl]
  have behind : (front ++ (commentOpen ++ (text ++ (commentClose ++ after)))).drop
      (front.length + text.length + 4) = after := by
    rw [Nat.add_assoc, List.drop_length_add_append]
    simp [commentOpen, commentClose]
  rw [turn?, octet]
  dsimp only
  rw [dropOctets_mark rfl, dropOctets_octets]
  simp only [Option.bind_eq_bind, Option.bind_some, close, rest, behind, List.drop_left,
    shortSlice_eq]
  rfl

theorem turn_long (opens : openingIndex? false l = some opening)
    (goesOn : find? commentClose (l.drop (opening + 2)) = none) :
    turn? ends l ls =
      some (longText? (.ofOctets ends) (l.drop opening) (bodyLines ls).1, (bodyLines ls).2) := by
  obtain ⟨front, inner, rfl, rfl, octet⟩ := opening_split opens
  rw [drop_opening] at goesOn
  rw [turn?, octet]
  dsimp only
  rw [dropOctets_mark rfl, dropOctets_octets]
  simp only [Option.bind_eq_bind, Option.bind_some, findOctet?, goesOn, Option.map_none,
    slicedBody_eq, longSlice_eq, List.drop_left]
  rfl

theorem turn_code (code : openingIndex? false l = none) : turn? ends l ls = some (none, ls) := by
  rw [turn?, searchOctets_opening, openingOctet?, code]
  rfl

end Turns

/-- A turn never fails. It finds the next of the texts to extract, if there is one in the line, and
takes something off the lines. -/
theorem turn_eq (l : Text) (ls : List Text) :
    ∃ found rest, turn? ends l ls = some (found, rest) ∧ extent rest < extent (l :: ls) ∧
      extractLines (.ofOctets ends) (l :: ls) =
        found.toList ++ extractLines (.ofOctets ends) rest := by
  cases opens : openingIndex? false l with
  | none =>
    refine ⟨none, ls, turn_code ends ls opens, ?_, extractLines_code _ opens ls⟩
    simp only [extent, sumOver]
    omega
  | some opening =>
    cases closes : find? commentClose (l.drop (opening + 2)) with
    | some n =>
      refine ⟨_, _, turn_short ends ls opens closes, ?_, extractLines_short _ opens closes ls⟩
      have inside := openingIndex?_lt opens
      simp only [extent, sumOver, List.length_drop]
      omega
    | none =>
      refine ⟨_, _, turn_long ends ls opens closes, ?_, extractLines_long _ opens closes ls⟩
      have shorter := extent_bodyLines_le ls
      simp only [extent, sumOver] at shorter ⊢
      omega

theorem turn_extent {l : Text} {ls rest : List Text} {found : Option Text}
    (turned : turn? ends l ls = some (found, rest)) : extent rest < extent (l :: ls) := by
  obtain ⟨_, _, same, shorter, _⟩ := turn_eq ends l ls
  rw [turned] at same
  cases same
  exact shorter

/-- The texts that are found in turn after turn, unless one of them fails. -/
def slicedLines? : List Text → Option (List Text)
  | [] => some []
  | l :: ls =>
    match _h : turn? ends l ls with
    | none => none
    | some (found, rest) => (slicedLines? rest).map (found.toList ++ ·)
termination_by ls => extent ls
decreasing_by exact turn_extent ends _h

def sliced? (source : Text) : Option (List Text) := slicedLines? ends (lines source)

theorem slicedLines_eq (ls : List Text) :
    slicedLines? ends ls = some (extractLines (.ofOctets ends) ls) := by
  fun_induction slicedLines? ends ls with
  | case1 => rw [extractLines_nil]
  | case2 l ls failed =>
    obtain ⟨_, _, turned, _⟩ := turn_eq ends l ls
    rw [failed] at turned
    cases turned
  | case3 l ls found rest turned ih =>
    obtain ⟨_, _, same, _, extracted⟩ := turn_eq ends l ls
    rw [turned] at same
    cases same
    rw [ih, extracted, Option.map_some]

theorem sliced_eq (source : Text) : sliced? ends source = some (extract (.ofOctets ends) source) :=
  slicedLines_eq ends (lines source)

end CommentMarkup
