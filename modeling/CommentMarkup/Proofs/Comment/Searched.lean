import CommentMarkup.Proofs.Comment.Opening
import CommentMarkup.Proofs.Text.Utf8

/-!
# Openings in UTF-8

The search for a comment opening as it runs on octets. It may step into a character beyond ASCII,
but never finds anything there: `searchOctets_opening`.
-/

namespace CommentMarkup

open Text

/-- As `charLiteralRest`, on octets: only the octet where the closing quote has to be is looked
at. -/
def literalOctets (bs : List UInt8) : Nat :=
  let n := if bs.head? = some '\\'.toUInt8 then 3 else 2
  if bs[n - 1]? = some '\''.toUInt8 then n else 0

/-- As `openingIndex?`, on octets. Behind a backslash one octet is passed over, not a character. -/
def searchOctets? (inString : Bool) : List UInt8 → Option Nat
  | [] => none
  | b :: bs =>
    if inString then
      if b = '\\'.toUInt8 then (searchOctets? true (bs.drop 1)).map (· + 2)
      else (searchOctets? (b != '"'.toUInt8) bs).map (· + 1)
    else if b = '"'.toUInt8 then (searchOctets? true bs).map (· + 1)
    else if b = '\''.toUInt8 then
      let n := literalOctets bs
      (searchOctets? false (bs.drop n)).map (· + (n + 1))
    else if b = '/'.toUInt8 then
      if bs.head? = some '/'.toUInt8 then none
      else if bs.head? = some '*'.toUInt8 then some 0
      else (searchOctets? false bs).map (· + 1)
    else (searchOctets? false bs).map (· + 1)
termination_by bs => bs.length
decreasing_by all_goals simp only [List.length_cons, List.length_drop]; omega

/-! ### Literals -/

theorem head_utf8_iff {d : Char} (ascii : d.toNat < 128) {t : Text} :
    (utf8 t).head? = some d.toUInt8 ↔ t.head? = some d := by
  rw [List.head?_eq_getElem?, utf8_getElem_iff ascii, List.head?_eq_some_iff]
  constructor
  · rintro ⟨front, rest, rfl, none⟩
    cases front with
    | nil => exact ⟨rest, rfl⟩
    | cons c front => exact absurd none (Nat.ne_of_gt (octets_pos (List.cons_ne_nil c front)))
  · rintro ⟨rest, rfl⟩
    exact ⟨[], rest, rfl, rfl⟩

/-- The second octet of a text is a quote if a quote follows an ASCII character. -/
theorem quote_second_iff {t : Text} :
    (utf8 t)[1]? = some '\''.toUInt8 ↔ ∃ c rest, t = c :: '\'' :: rest ∧ c.toNat < 128 := by
  rw [utf8_getElem_iff (by decide)]
  constructor
  · rintro ⟨front, rest, rfl, one⟩
    match front with
    | [] => cases one
    | [c] => exact ⟨c, rest, rfl, utf8Size_eq_one_iff.mp one⟩
    | c :: d :: front =>
      have first := Char.utf8Size_pos c
      have second := Char.utf8Size_pos d
      rw [octets_cons, octets_cons] at one
      omega
  · rintro ⟨c, rest, rfl, ascii⟩
    exact ⟨[c], rest, rfl, octets_ascii ascii⟩

theorem literalOctets_escaped (t : Text) :
    literalOctets (utf8 ('\\' :: t)) = if (utf8 t)[1]? = some '\''.toUInt8 then 3 else 0 := by
  rw [literalOctets, if_pos ((head_utf8_iff (by decide)).mpr rfl), utf8_ascii (by decide),
    List.getElem?_cons_succ]

theorem literalOctets_bare {t : Text} (bare : ∀ rest, t ≠ '\\' :: rest) :
    literalOctets (utf8 t) = if (utf8 t)[1]? = some '\''.toUInt8 then 2 else 0 := by
  have other : (utf8 t).head? ≠ some '\\'.toUInt8 := by
    intro slash
    obtain ⟨rest, same⟩ := List.head?_eq_some_iff.mp ((head_utf8_iff (by decide)).mp slash)
    exact bare rest same
  rw [literalOctets, if_neg other]

theorem literalOctets_utf8 (t : Text) : literalOctets (utf8 t) = charLiteralRest t := by
  fun_cases charLiteralRest t with
  | case1 c rest ascii =>
    rw [literalOctets_escaped, if_pos (quote_second_iff.mpr ⟨c, rest, rfl, ascii⟩)]
  | case2 c rest foreign =>
    rw [literalOctets_escaped, if_neg]
    intro quote
    obtain ⟨_, _, same, ascii⟩ := quote_second_iff.mp quote
    cases same
    exact foreign ascii
  | case3 tail other =>
    rw [literalOctets_escaped, if_neg]
    intro quote
    obtain ⟨c, rest, same, _⟩ := quote_second_iff.mp quote
    exact other c rest same
  | case4 c rest _ plain ascii =>
    rw [literalOctets_bare, if_pos (quote_second_iff.mpr ⟨c, rest, rfl, ascii⟩)]
    exact fun _ same => plain (List.cons.inj same).1
  | case5 c rest _ plain foreign =>
    rw [literalOctets_bare fun _ same => plain (List.cons.inj same).1, if_neg]
    intro quote
    obtain ⟨_, _, same, ascii⟩ := quote_second_iff.mp quote
    cases same
    exact foreign ascii
  | case6 t _ bare unquoted =>
    rw [literalOctets_bare bare, if_neg]
    intro quote
    obtain ⟨c, rest, same, _⟩ := quote_second_iff.mp quote
    exact unquoted c rest same

/-- What looks like the rest of a literal has an octet for each character. -/
theorem literal_split (t : Text) :
    ∃ front rest, t = front ++ rest ∧ front.length = charLiteralRest t ∧
      octets front = charLiteralRest t := by
  have quoted {c : Char} (ascii : c.toNat < 128) : octets [c, '\''] = 2 :=
    (octets_append [c] ['\'']).trans (by rw [octets_ascii ascii, octets_ascii (by decide)])
  fun_cases charLiteralRest t with
  | case1 c rest ascii =>
    exact ⟨['\\', c, '\''], rest, rfl, rfl, by rw [octets_cons, quoted ascii]; rfl⟩
  | case4 c rest _ _ ascii =>
    exact ⟨[c, '\''], rest, rfl, rfl, quoted ascii⟩
  | case2 | case3 | case5 | case6 => exact ⟨[], _, rfl, rfl, rfl⟩

/-! ### The search -/

/-- Nothing is found in octets of characters beyond ASCII. -/
theorem searchOctets_large (inString : Bool) {bs : List UInt8} (large : ∀ b ∈ bs, 128 ≤ b.toNat)
    (rest : List UInt8) :
    searchOctets? inString (bs ++ rest) = (searchOctets? inString rest).map (· + bs.length) := by
  have other {b : UInt8} {d : Char} (large : 128 ≤ b.toNat) (ascii : d.toNat < 128) :
      b ≠ d.toUInt8 := by
    rintro rfl
    rw [toNat_toUInt8 ascii] at large
    omega
  induction bs with
  | nil => simp
  | cons b bs ih =>
    obtain ⟨large, later⟩ := List.forall_mem_cons.mp large
    have goesOn : searchOctets? inString (b :: (bs ++ rest)) =
        (searchOctets? inString (bs ++ rest)).map (· + 1) := by
      have quote : (b != '"'.toUInt8) = true := bne_iff_ne.mpr (other large (by decide))
      rw [searchOctets?, if_neg (other large (by decide)), quote, if_neg (other large (by decide)),
        if_neg (other large (by decide)), if_neg (other large (by decide))]
      cases inString <;> rfl
    rw [List.cons_append, goesOn, ih later, Option.map_map]
    rfl

/-- What is found behind a text is found as far behind its octets. -/
theorem map_take_octets (front t : Text) (found : Option Nat) :
    (found.map (· + front.length)).map (fun n => octets ((front ++ t).take n)) =
      (found.map fun n => octets (t.take n)).map (· + octets front) := by
  cases found with
  | none => rfl
  | some n =>
    simp only [Option.map_some]
    rw [Nat.add_comm n, List.take_length_add_append, octets_append, Nat.add_comm]

theorem map_take_ascii {c : Char} (ascii : c.toNat < 128) (t : Text) (found : Option Nat) :
    (found.map (· + 1)).map (fun n => octets ((c :: t).take n)) =
      (found.map fun n => octets (t.take n)).map (· + 1) := by
  have shifted := map_take_octets [c] t found
  rwa [octets_ascii ascii] at shifted

/-- A character beyond ASCII is passed as a whole. -/
theorem searchOctets_beyond (inString : Bool) {c : Char} (beyond : ¬ c.toNat < 128) (t : Text) :
    searchOctets? inString (utf8 (c :: t)) =
      (searchOctets? inString (utf8 t)).map (· + octets [c]) := by
  rw [utf8_cons, searchOctets_large inString (le_octet_of_beyond beyond),
    String.length_utf8EncodeChar]
  rfl

/-- In a string what stands behind a backslash is passed as a whole, though the search steps behind
its first octet. -/
theorem searchOctets_escaped (c : Char) (t : Text) :
    searchOctets? true (utf8 ('\\' :: c :: t)) =
      (searchOctets? true (utf8 t)).map (· + octets ['\\', c]) := by
  obtain ⟨b, bs, encoded⟩ := List.exists_cons_of_ne_nil (String.utf8EncodeChar_ne_nil (c := c))
  have behind : searchOctets? true (bs ++ utf8 t) =
      (searchOctets? true (utf8 t)).map (· + bs.length) := by
    refine searchOctets_large true (fun d member => ?_) (utf8 t)
    by_cases ascii : c.toNat < 128
    · rw [String.utf8EncodeChar_eq_singleton (utf8Size_eq_one_iff.mpr ascii)] at encoded
      cases encoded
      cases member
    · exact le_octet_of_beyond ascii d (encoded ▸ List.mem_cons_of_mem b member)
  have size : octets ['\\', c] = bs.length + 2 := by
    have whole := length_utf8 ['\\', c]
    rw [utf8_ascii (by decide), utf8_cons, encoded] at whole
    simpa [utf8] using whole.symm
  rw [utf8_ascii (by decide), utf8_cons, encoded, searchOctets?, if_pos rfl, if_pos rfl,
    List.cons_append, List.drop_one, List.tail_cons, behind, size, Option.map_map]
  rfl

/-- Outside strings the rest of a literal is passed with its opening quote. -/
theorem searchOctets_literal {front rest : Text}
    (size : octets front = charLiteralRest (front ++ rest)) :
    searchOctets? false (utf8 ('\'' :: (front ++ rest))) =
      (searchOctets? false (utf8 rest)).map (· + octets ('\'' :: front)) := by
  have behind : (utf8 (front ++ rest)).drop (charLiteralRest (front ++ rest)) = utf8 rest := by
    rw [utf8_append, List.drop_left' (by rw [length_utf8, size])]
  have one : octets ('\'' :: front) = charLiteralRest (front ++ rest) + 1 := by
    rw [octets_cons, size, Nat.add_comm]
    rfl
  rw [utf8_ascii (by decide), searchOctets?, if_neg (by decide), if_neg (by decide), if_pos rfl,
    literalOctets_utf8]
  dsimp only
  rw [behind, one]

/-- The search finds the octet where the character that is found has its first one. -/
theorem searchOctets_utf8 (inString : Bool) (t : Text) :
    searchOctets? inString (utf8 t) =
      (openingIndex? inString t).map fun n => octets (t.take n) := by
  fun_induction openingIndex? inString t with
  | case1 => rw [utf8, List.flatMap_nil, searchOctets?, Option.map_none]
  | case2 cs ih =>
    cases cs with
    | nil =>
      rw [utf8_ascii (by decide), searchOctets?, if_pos rfl, if_pos rfl, utf8, List.flatMap_nil,
        List.drop_nil, searchOctets?, List.drop_nil, openingIndex?]
      rfl
    | cons c cs =>
      rw [List.drop_one, List.tail_cons] at ih ⊢
      rw [searchOctets_escaped, ih]
      exact (map_take_octets ['\\', c] cs _).symm
  | case3 c cs other ih =>
    by_cases ascii : c.toNat < 128
    · have ends : (c.toUInt8 != '"'.toUInt8) = (c != '"') := by
        rw [Bool.eq_iff_iff, bne_iff_ne, bne_iff_ne, ne_eq, ne_eq, toUInt8_inj ascii (by decide)]
      rw [utf8_ascii ascii, searchOctets?, if_pos rfl,
        if_neg (mt (toUInt8_inj ascii (by decide)).mp other), ends, ih, map_take_ascii ascii]
    · have goesOn : (c != '"') = true := bne_iff_ne.mpr (by rintro rfl; exact ascii (by decide))
      rw [goesOn] at ih ⊢
      rw [searchOctets_beyond true ascii, ih]
      exact (map_take_octets [c] cs _).symm
  | case4 inString cs outside ih =>
    rw [utf8_ascii (by decide), searchOctets?, if_neg outside, if_pos rfl, ih,
      map_take_ascii (by decide)]
  | case5 inString cs outside n _ ih =>
    cases (Bool.not_eq_true _).mp outside
    obtain ⟨front, rest, rfl, length, size⟩ := literal_split cs
    have shifted := map_take_octets ('\'' :: front) rest (openingIndex? false rest)
    rw [List.length_cons, length] at shifted
    rw [List.drop_left' length] at ih ⊢
    rw [searchOctets_literal size, ih]
    exact shifted.symm
  | case6 inString cs outside slash =>
    rw [utf8_ascii (by decide), searchOctets?, if_neg outside, if_neg (by decide),
      if_neg (by decide), if_pos rfl, if_pos ((head_utf8_iff (by decide)).mpr slash),
      Option.map_none]
  | case7 inString cs outside star =>
    have noSlash : ¬ cs.head? = some '/' := by rw [star]; decide
    rw [utf8_ascii (by decide), searchOctets?, if_neg outside, if_neg (by decide),
      if_neg (by decide), if_pos rfl, if_neg (mt (head_utf8_iff (by decide)).mp noSlash),
      if_pos ((head_utf8_iff (by decide)).mpr star)]
    rfl
  | case8 inString cs outside noSlash noStar _ _ ih =>
    rw [utf8_ascii (by decide), searchOctets?, if_neg outside, if_neg (by decide),
      if_neg (by decide), if_pos rfl, if_neg (mt (head_utf8_iff (by decide)).mp noSlash),
      if_neg (mt (head_utf8_iff (by decide)).mp noStar), ih, map_take_ascii (by decide)]
  | case9 inString c cs outside quote character slash ih =>
    by_cases ascii : c.toNat < 128
    · have same {d : Char} (plain : d.toNat < 128) (other : ¬ c = d) : ¬ c.toUInt8 = d.toUInt8 :=
        mt (toUInt8_inj ascii plain).mp other
      rw [utf8_ascii ascii, searchOctets?, if_neg outside, if_neg (same (by decide) quote),
        if_neg (same (by decide) character), if_neg (same (by decide) slash), ih,
        map_take_ascii ascii]
    · cases (Bool.not_eq_true _).mp outside
      rw [searchOctets_beyond false ascii, ih]
      exact (map_take_octets [c] cs _).symm

theorem searchOctets_opening (line : Text) :
    searchOctets? false (utf8 line) = openingOctet? line := searchOctets_utf8 false line

end CommentMarkup
