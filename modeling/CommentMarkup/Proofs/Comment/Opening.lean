import CommentMarkup.Proofs.Comment.Written

/-!
# Openings behind code

A comment that opens behind code is found there, and a line comment hides what follows it, if the
search keeps in step with the literals of the code. It does so unless a literal of a character
outside ASCII stands before what looks like the rest of another literal: `openings_found_iff`.
-/

namespace CommentMarkup

open Text

/-! ### Code -/

inductive StringUnit
  | plain (c : Char) (inside : c ≠ '"' ∧ c ≠ '\\')
  | escaped (c : Char)

def StringUnit.text : StringUnit → Text
  | plain c _ => [c]
  | escaped c => ['\\', c]

/-- Literals, and the characters of code that start neither a literal nor a comment. -/
inductive CodeToken
  | string (units : List StringUnit)
  | character (c : Char) (inside : c ≠ '\'' ∧ c ≠ '\\')
  | escapedCharacter (c : Char) (ascii : c.toNat < 128)
  | other (c : Char) (bare : c ≠ '"' ∧ c ≠ '\'' ∧ c ≠ '/')

def CodeToken.text : CodeToken → Text
  | string units => '"' :: (units.flatMap StringUnit.text ++ ['"'])
  | character c _ => ['\'', c, '\'']
  | escapedCharacter c _ => ['\'', '\\', c, '\'']
  | other c _ => [c]

def tokensText (tokens : List CodeToken) : Text := tokens.flatMap CodeToken.text

theorem tokensText_cons (token : CodeToken) (tokens : List CodeToken) :
    tokensText (token :: tokens) = token.text ++ tokensText tokens := List.flatMap_cons

/-- The number of octets, in UTF-8, before the first opening of a comment in a line. -/
def openingOctet? (line : Text) : Option Nat :=
  (openingIndex? false line).map fun n => octets (line.take n)

/-- Behind the tokens the search finds the opening of a comment, and a line comment ends it. -/
def FindsBehind (tokens : List CodeToken) : Prop :=
  ∀ rest,
    openingOctet? (tokensText tokens ++ '/' :: '*' :: rest) = some (octets (tokensText tokens)) ∧
    openingOctet? (tokensText tokens ++ '/' :: '/' :: rest) = none

/-- What stands behind the literal of a character outside ASCII does not look like the rest of a
literal: it is no ASCII character with a quote behind it, with or without a backslash in front. -/
def InStep : List CodeToken → Prop
  | [] => True
  | .character c _ :: tokens =>
    (128 ≤ c.toNat → charLiteralRest (tokensText tokens) = 0) ∧ InStep tokens
  | _ :: tokens => InStep tokens

/-! ### Tokens -/

theorem openingIndex_units (units : List StringUnit) (rest : Text) :
    openingIndex? true (units.flatMap StringUnit.text ++ '"' :: rest) =
      (openingIndex? false rest).map (· + ((units.flatMap StringUnit.text).length + 1)) := by
  induction units with
  | nil =>
    rw [List.flatMap_nil, List.nil_append, openingIndex?]
    rfl
  | cons unit units ih =>
    rw [List.flatMap_cons, List.append_assoc, List.length_append]
    cases unit with
    | plain c inside =>
      have stays : (c != '"') = true := bne_iff_ne.mpr inside.1
      rw [StringUnit.text, List.singleton_append, openingIndex?, if_pos rfl, if_neg inside.2, stays,
        ih, Option.map_map]
      congr 1
      funext k
      simp only [Function.comp_apply, List.length_cons, List.length_nil]
      omega
    | escaped c =>
      rw [StringUnit.text, List.cons_append, List.singleton_append, openingIndex?, if_pos rfl,
        if_pos rfl, List.drop_one, List.tail_cons, ih, Option.map_map]
      congr 1
      funext k
      simp only [Function.comp_apply, List.length_cons, List.length_nil]
      omega

theorem charLiteralRest_plain {c : Char} (inside : c ≠ '\'' ∧ c ≠ '\\') (rest : Text) :
    charLiteralRest (c :: '\'' :: rest) = if c.toNat < 128 then 2 else 0 := by
  rw [charLiteralRest]
  · exact fun _ slash _ => inside.2 slash
  · exact fun slash => inside.2 slash

/-- The search passes over a token as a whole if it keeps in step. -/
theorem openingIndex_token {token : CodeToken} {rest : Text}
    (inStep : ∀ c inside, token = .character c inside → 128 ≤ c.toNat → charLiteralRest rest = 0) :
    openingIndex? false (token.text ++ rest) =
      (openingIndex? false rest).map (· + token.text.length) := by
  cases token with
  | string units =>
    rw [CodeToken.text, List.cons_append, List.append_assoc, List.singleton_append, openingIndex?,
      if_neg (by decide), if_pos rfl, openingIndex_units, Option.map_map]
    congr 1
    funext k
    simp only [Function.comp_apply, List.length_cons, List.length_append, List.length_nil]
    omega
  | character c inside =>
    have start : CodeToken.text (.character c inside) ++ rest = '\'' :: c :: '\'' :: rest := rfl
    rw [start, openingIndex?, if_neg (by decide), if_neg (by decide), if_pos rfl,
      charLiteralRest_plain inside]
    by_cases ascii : c.toNat < 128
    · rw [if_pos ascii]
      rfl
    · -- the three characters are passed one by one
      have quote : c ≠ '"' := by rintro rfl; exact ascii (by decide)
      have slash : c ≠ '/' := by rintro rfl; exact ascii (by decide)
      have behind := inStep c inside rfl (Nat.not_lt.mp ascii)
      rw [if_neg ascii]
      dsimp only
      rw [List.drop_zero, openingIndex?, if_neg (by decide), if_neg quote, if_neg inside.1,
        if_neg slash, openingIndex?, if_neg (by decide), if_neg (by decide), if_pos rfl, behind]
      dsimp only
      rw [List.drop_zero, Option.map_map, Option.map_map]
      rfl
  | escapedCharacter c ascii =>
    have start : CodeToken.text (.escapedCharacter c ascii) ++ rest =
        '\'' :: '\\' :: c :: '\'' :: rest := rfl
    rw [start, openingIndex?, if_neg (by decide), if_neg (by decide), if_pos rfl, charLiteralRest,
      if_pos ascii]
    rfl
  | other c bare =>
    rw [CodeToken.text, List.singleton_append, openingIndex?, if_neg (by decide), if_neg bare.1,
      if_neg bare.2.1, if_neg bare.2.2]
    rfl

section Comment

variable {c : Char} (comment : c = '*' ∨ c = '/') {rest : Text}

include comment

/-- The second character of a text before a comment is not that of the comment if it is a quote. -/
theorem quoted_of_append {t rest' : Text} {a : Char}
    (eq : t ++ '/' :: c :: rest = a :: '\'' :: rest') : ∃ t', t = a :: '\'' :: t' := by
  match t with
  | [] => rcases comment with rfl | rfl <;> cases eq
  | [b] => cases eq
  | b :: d :: t =>
    cases eq
    exact ⟨t, rfl⟩

/-- Text that does not look like the rest of a literal does not do so before a comment. -/
theorem charLiteralRest_append {t : Text} (none : charLiteralRest t = 0) :
    charLiteralRest (t ++ '/' :: c :: rest) = 0 := by
  fun_cases charLiteralRest t with
  | case1 a tail ascii => rw [charLiteralRest.eq_1, if_pos ascii] at none; cases none
  | case2 a tail foreign => exact (charLiteralRest.eq_1 a _).trans (if_neg foreign)
  | case3 tail other =>
    refine charLiteralRest.eq_2 _ fun a rest' eq => ?_
    obtain ⟨tail', same⟩ := quoted_of_append comment eq
    exact other a tail' same
  | case4 a tail _ plain ascii =>
    rw [charLiteralRest.eq_3 a tail (fun _ slash _ => plain slash) plain, if_pos ascii] at none
    cases none
  | case5 a tail _ plain foreign =>
    exact (charLiteralRest.eq_3 a _ (fun _ slash _ => plain slash) plain).trans (if_neg foreign)
  | case6 t escaped lone plain =>
    cases t with
    | nil => rcases comment with rfl | rfl <;> rfl
    | cons a t =>
      have unescaped : a ≠ '\\' := fun slash => lone t (by rw [slash])
      refine charLiteralRest.eq_4 _ (fun _ _ eq => unescaped (List.cons.inj eq).1)
        (fun _ eq => unescaped (List.cons.inj eq).1) fun b rest' eq => ?_
      obtain ⟨t', same⟩ := quoted_of_append comment eq
      exact plain b t' same

theorem openingIndex_tokens {tokens : List CodeToken} (inStep : InStep tokens) :
    openingIndex? false (tokensText tokens ++ '/' :: c :: rest) =
      (openingIndex? false ('/' :: c :: rest)).map (· + (tokensText tokens).length) := by
  induction tokens with
  | nil => simp [tokensText]
  | cons token tokens ih =>
    have later : InStep tokens := by cases token <;> first | exact inStep.2 | exact inStep
    have here : ∀ a inside, token = .character a inside → 128 ≤ a.toNat →
        charLiteralRest (tokensText tokens ++ '/' :: c :: rest) = 0 := by
      rintro a inside rfl foreign
      exact charLiteralRest_append comment (inStep.1 foreign)
    rw [tokensText_cons, List.append_assoc, openingIndex_token here, ih later, Option.map_map,
      List.length_append]
    congr 1
    funext k
    simp only [Function.comp_apply]
    omega

end Comment

/-! ### Comments behind code -/

theorem findsBehind_of_inStep {tokens : List CodeToken} (inStep : InStep tokens) :
    FindsBehind tokens := by
  intro rest
  have block : openingIndex? false ('/' :: '*' :: rest) = some 0 := by
    rw [openingIndex?]
    rfl
  have line : openingIndex? false ('/' :: '/' :: rest) = none := by
    rw [openingIndex?]
    rfl
  constructor
  · rw [openingOctet?, openingIndex_tokens (.inl rfl) inStep, block]
    simp
  · rw [openingOctet?, openingIndex_tokens (.inr rfl) inStep, line]
    rfl

theorem inStep_of_ascii {tokens : List CodeToken}
    (ascii : ∀ c inside, .character c inside ∈ tokens → c.toNat < 128) : InStep tokens := by
  induction tokens with
  | nil => trivial
  | cons token tokens ih =>
    have later := ih fun c inside member => ascii c inside (List.mem_cons_of_mem _ member)
    cases token with
    | character c inside =>
      have here := ascii c inside List.mem_cons_self
      exact ⟨fun foreign => absurd here (Nat.not_lt.mpr foreign), later⟩
    | _ => exact later

/-- The code that the literal of a character outside ASCII hides a comment behind: its closing quote
goes with the next two characters, and the double quote behind them seems to open a string. -/
def misleading (c : Char) (inside : c ≠ '\'' ∧ c ≠ '\\') : List CodeToken :=
  [.character c inside, .other ',' (by decide), .escapedCharacter '"' (by decide)]

theorem misleading_hides {c : Char} (inside : c ≠ '\'' ∧ c ≠ '\\') (foreign : ¬ c.toNat < 128) :
    openingOctet? (tokensText (misleading c inside) ++ "/*".toList) = none := by
  have quote : c ≠ '"' := by rintro rfl; exact foreign (by decide)
  have slash : c ≠ '/' := by rintro rfl; exact foreign (by decide)
  have written : tokensText (misleading c inside) ++ "/*".toList =
      '\'' :: c :: '\'' :: ",'\\\"'/*".toList := rfl
  have closing : openingIndex? false ('\'' :: ",'\\\"'/*".toList) = none := by cbv
  have hidden : openingIndex? false ('\'' :: c :: '\'' :: ",'\\\"'/*".toList) = none := by
    rw [openingIndex?, if_neg (by decide), if_neg (by decide), if_pos rfl,
      charLiteralRest_plain inside, if_neg foreign]
    dsimp only
    rw [List.drop_zero, openingIndex?, if_neg (by decide), if_neg quote, if_neg inside.1,
      if_neg slash, closing]
    rfl
  rw [written, openingOctet?, hidden]
  rfl

/-- A comment behind code is found, and hidden by a line comment, if the search keeps in step. If
the character literals are those of the characters in `S`, it is so for all code exactly if these
are ASCII. -/
theorem openings_found_iff (S : Char → Prop) :
    (∀ tokens, InStep tokens → FindsBehind tokens) ∧
      ((∀ tokens, (∀ c inside, .character c inside ∈ tokens → S c) → FindsBehind tokens) ↔
        ∀ c, S c → c ≠ '\'' ∧ c ≠ '\\' → c.toNat < 128) := by
  have sound (ascii : ∀ c, S c → c ≠ '\'' ∧ c ≠ '\\' → c.toNat < 128) (tokens : List CodeToken)
      (own : ∀ c inside, .character c inside ∈ tokens → S c) : FindsBehind tokens :=
    findsBehind_of_inStep (inStep_of_ascii fun c inside member =>
      ascii c (own c inside member) inside)
  refine ⟨fun tokens => findsBehind_of_inStep, fun all c listed inside => ?_, sound⟩
  by_contra foreign
  have own : ∀ d inside', .character d inside' ∈ misleading c inside → S d := by
    intro d inside' member
    rcases List.mem_cons.mp member with same | later
    · cases same
      exact listed
    · simp at later
  have found := (all _ own []).1
  rw [show '/' :: '*' :: [] = "/*".toList from rfl, misleading_hides inside foreign] at found
  cases found

def spacedLiterals : List CodeToken :=
  [.character 'é' (by decide), .other ',' (by decide), .other ' ' (by decide),
    .character '"' (by decide)]

/-- A space behind the comma keeps the search in step, so that the double quote opens no string. -/
theorem foreign_literal_passed :
    tokensText spacedLiterals = "'é', '\"'".toList ∧ InStep spacedLiterals ∧
      FindsBehind spacedLiterals ∧ openingOctet? "'é', '\"'/** a */".toList = some 9 := by
  have inStep : InStep spacedLiterals := ⟨fun _ => by decide, fun _ => by decide, trivial⟩
  have finds := (openings_found_iff fun c => c = 'é' ∨ c = '"').1 spacedLiterals inStep
  exact ⟨by decide, inStep, finds, (finds "* a */".toList).1⟩

/-- A comment is lost, and one is found inside a string. -/
theorem foreign_literal_misread :
    tokensText (misleading 'é' (by decide)) = "'é','\\\"'".toList ∧
      ¬ FindsBehind (misleading 'é' (by decide)) ∧
      extract doubleStar "'é','\\\"' /** a */".toList = [] ∧
      openingOctet? "'e','\\\"' /** a */".toList = some 9 ∧
      openingOctet? "'é','\\\"' \"/** a */\"".toList = some 11 := by
  have cut : lines "'é','\\\"' /** a */".toList = ["'é','\\\"' /** a */".toList] := by decide
  refine ⟨by decide, fun finds => ?_, ?_, by cbv, by cbv⟩
  · have found := (finds []).1
    rw [show '/' :: '*' :: [] = "/*".toList from rfl, misleading_hides _ (by decide)] at found
    cases found
  · rw [extract, cut, extractLines_code doubleStar (by cbv), extractLines_nil]

end CommentMarkup
