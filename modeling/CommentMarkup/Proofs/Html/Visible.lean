import CommentMarkup.Html.CharRef
import CommentMarkup.Proofs.Html.Token

/-!
# Text of markup

What a page shows once its tags are taken away: the text between them, with the references decoded
that escaping writes. `shownText` finds it from the page alone. `Shows` relates markup to its text,
whatever follows it.
-/

namespace CommentMarkup.Html

/-! ### Reading -/

/-- The text without the stretches from a `<` to the next `>`, begun `inside` such a stretch or
not. -/
def dropTags (inside : Bool) : Text → Text
  | [] => []
  | c :: cs =>
    if inside then dropTags (c != '>') cs
    else if c = '<' then dropTags true cs
    else c :: dropTags false cs

def namedReferences : List (Text × Char) :=
  [("amp".toList, '&'), ("lt".toList, '<'), ("gt".toList, '>'), ("quot".toList, '"')]

def numberedChar? (base : Nat) (digits : Text) : Option Char :=
  ((CharRef.number? base digits).filter fun n => n.isValidChar).map Char.ofNat

def referent? : Text → Option Char
  | '#' :: 'x' :: digits | '#' :: 'X' :: digits => numberedChar? 16 digits
  | '#' :: digits => numberedChar? 10 digits
  | name => namedReferences.lookup name

/-- The character of the reference that starts after an `&`, and the length of its body. -/
def reference? (t : Text) : Option (Char × Nat) :=
  (CharRef.body? t).bind fun body => (referent? body).map (·, body.length)

/-- The text with its references replaced by their characters, once from left to right. -/
def unescape : Text → Text
  | [] => []
  | c :: cs =>
    if c = '&' then
      match reference? cs with
      | some (d, n) => d :: unescape (cs.drop (n + 1))
      | none => c :: unescape cs
    else c :: unescape cs
termination_by t => t.length
decreasing_by all_goals simp only [List.length_cons, List.length_drop]; omega

def shownText (t : Text) : Text := unescape (dropTags false t)

/-! ### References -/

theorem unescape_other {c : Char} (other : c ≠ '&') (t : Text) :
    unescape (c :: t) = c :: unescape t := by
  rw [unescape, if_neg other]

theorem unescape_reference (body : Text) {c : Char}
    (plain : body.all fun d => d != ';' && d != '&') (refers : referent? body = some c)
    (rest : Text) : unescape ('&' :: (body ++ ';' :: rest)) = c :: unescape rest := by
  have taken : (body ++ ';' :: rest).takeWhile (fun d => d != ';' && d != '&') = body := by
    rw [List.takeWhile_append_of_pos (List.all_eq_true.mp plain)]
    simp
  have found : CharRef.body? (body ++ ';' :: rest) = some body := by
    simp [CharRef.body?, taken, Text.startsWith]
  rw [unescape, if_pos rfl, reference?, found, Option.bind_some, refers]
  simp

theorem unescape_escapeTextChar (c : Char) (rest : Text) :
    unescape (escapeTextChar c ++ rest) = c :: unescape rest := by
  unfold escapeTextChar
  split
  · rename_i amp
    subst amp
    exact unescape_reference "amp".toList (by decide) (by decide) rest
  · rename_i other
    split
    · rename_i low
      subst low
      exact unescape_reference "lt".toList (by decide) (by decide) rest
    · split
      · rename_i high
        subst high
        exact unescape_reference "gt".toList (by decide) (by decide) rest
      · exact unescape_other other rest

theorem unescape_escapeText (t rest : Text) : unescape (escapeText t ++ rest) = t ++ unescape rest := by
  induction t with
  | nil => rfl
  | cons c t ih =>
    rw [escapeText, List.flatMap_cons, List.append_assoc, unescape_escapeTextChar]
    exact congrArg (c :: ·) ih

/-! ### Numbers -/

theorem hexValue_digitChar {d : Nat} (small : d < 16) : CharRef.hexValue? d.digitChar = some d := by
  interval_cases d <;> decide

theorem number_digit {base d : Nat} (below : d < base) (small : base ≤ 16) :
    CharRef.number? base [d.digitChar] = some d := by
  simp [CharRef.number?, hexValue_digitChar (Nat.lt_of_lt_of_le below small), below]

theorem number_append {base n d : Nat} {digits : Text} (below : d < base) (small : base ≤ 16)
    (read : CharRef.number? base digits = some n) :
    CharRef.number? base (digits ++ [d.digitChar]) = some (n * base + d) := by
  unfold CharRef.number? at read ⊢
  split at read
  · cases read
  · rw [if_neg (by simp), List.foldlM_append, read]
    simp [hexValue_digitChar (Nat.lt_of_lt_of_le below small), below]

/-- Written digits are read as the number that they stand for. -/
theorem number_toDigits {base : Nat} (large : 1 < base) (small : base ≤ 16) (n : Nat) :
    CharRef.number? base (Nat.toDigits base n) = some n := by
  induction n using Nat.strongRecOn with
  | ind n ih =>
    rcases Nat.lt_or_ge n base with less | more
    · rw [Nat.toDigits_of_lt_base less, number_digit less small]
    · have last : n % base < base := Nat.mod_lt n (by omega)
      rw [Nat.toDigits_of_base_le large more,
        number_append last small (ih (n / base) (Nat.div_lt_self (by omega) large)),
        Nat.div_add_mod' n base]

theorem numberedChar_toDigits {base : Nat} (large : 1 < base) (small : base ≤ 16) (c : Char) :
    numberedChar? base (Nat.toDigits base c.toNat) = some c := by
  have valid : c.toNat.isValidChar := c.valid
  rw [numberedChar?, number_toDigits large small, Option.filter_some, decide_eq_true valid,
    if_pos rfl, Option.map_some, Char.ofNat_toNat]

theorem plain_of_alphanum {t : Text} (letters : t.all Char.isAlphanum) :
    t.all fun d => d != ';' && d != '&' := by
  rw [List.all_eq_true] at letters ⊢
  intro c member
  have apart {d : Char} (mark : ¬ d.isAlphanum) : c ≠ d := by
    rintro rfl
    exact mark (letters c member)
  simp [apart (d := ';') (by decide), apart (d := '&') (by decide)]

theorem referent_decimal {digits : Text} (decimal : ∀ d ∈ digits, d.isDigit) :
    referent? ('#' :: digits) = numberedChar? 10 digits := by
  have apart {d : Char} (letter : ¬ d.isDigit) (rest : Text) : digits ≠ d :: rest := by
    rintro rfl
    exact letter (decimal d List.mem_cons_self)
  rw [referent?]
  · exact fun rest same => apart (by decide) rest same
  · exact fun rest same => apart (by decide) rest same

theorem unescape_decimalReference (c : Char) (rest : Text) :
    unescape (decimalReference c ++ rest) = c :: unescape rest := by
  have written : decimalReference c ++ rest =
      '&' :: ('#' :: Nat.toDigits 10 c.toNat ++ ';' :: rest) := by simp [decimalReference]
  rw [written, unescape_reference _ _ _ rest]
  · rw [List.all_cons, plain_of_alphanum (toDigits_alphanum (by decide) (by decide) c.toNat)]
    decide
  · rw [referent_decimal fun d => Nat.isDigit_of_mem_toDigits (by decide) (by decide),
      numberedChar_toDigits (by decide) (by decide)]

theorem unescape_hexReference (c : Char) (rest : Text) :
    unescape (hexReference c ++ rest) = c :: unescape rest := by
  have written : hexReference c ++ rest =
      '&' :: ('#' :: 'x' :: Nat.toDigits 16 c.toNat ++ ';' :: rest) := by simp [hexReference]
  rw [written, unescape_reference _ _ _ rest]
  · rw [List.all_cons, List.all_cons,
      plain_of_alphanum (toDigits_alphanum (by decide) (by decide) c.toNat)]
    decide
  · exact numberedChar_toDigits (by decide) (by decide) c

mutual

theorem unescape_obfuscate (t rest : Text) : unescape (obfuscate t ++ rest) = t ++ unescape rest := by
  cases t with
  | nil => rfl
  | cons c t =>
    rw [obfuscate, List.append_assoc, unescape_decimalReference, unescape_obfuscateHex t rest,
      List.cons_append]

theorem unescape_obfuscateHex (t rest : Text) :
    unescape (obfuscateHex t ++ rest) = t ++ unescape rest := by
  cases t with
  | nil => rfl
  | cons c t =>
    rw [obfuscateHex, List.append_assoc, unescape_hexReference, unescape_obfuscate t rest,
      List.cons_append]

end

/-! ### Tags -/

theorem dropTags_calm {t : Text} (calm : t.all fun c => !isAngle c) (rest : Text) :
    dropTags false (t ++ rest) = t ++ dropTags false rest := by
  induction t with
  | nil => rfl
  | cons c t ih =>
    rw [List.all_cons, Bool.and_eq_true] at calm
    have low : c ≠ '<' := by
      rintro rfl
      exact absurd calm.1 (by decide)
    rw [List.cons_append, dropTags, if_neg (by decide), if_neg low, ih calm.2, List.cons_append]

theorem dropTags_inside {body : Text} (calm : body.all fun c => !isAngle c) (rest : Text) :
    dropTags true (body ++ '>' :: rest) = dropTags false rest := by
  induction body with
  | nil => rfl
  | cons c body ih =>
    rw [List.all_cons, Bool.and_eq_true] at calm
    have high : (c != '>') = true := by
      rw [bne_iff_ne]
      rintro rfl
      exact absurd calm.1 (by decide)
    rw [List.cons_append, dropTags, if_pos rfl, high, ih calm.2]

theorem dropTags_openTag (tag : Tag) (attributes : List Attribute) (rest : Text) :
    dropTags false (openTag tag attributes ++ rest) = dropTags false rest := by
  have calm : (tag.name ++ writeAttributes attributes).all fun c => !isAngle c := by
    rw [List.all_append, calm_of_inert (inert_of_alphanum tag.name_alphanum),
      writeAttributes_calm]
    rfl
  have written : openTag tag attributes ++ rest =
      '<' :: ((tag.name ++ writeAttributes attributes) ++ '>' :: rest) := by simp [openTag]
  rw [written, dropTags, if_neg (by decide), if_pos rfl, dropTags_inside calm]

theorem dropTags_closeTag (tag : Tag) (rest : Text) :
    dropTags false (closeTag tag ++ rest) = dropTags false rest := by
  have calm : ('/' :: tag.name).all fun c => !isAngle c := by
    rw [List.all_cons, calm_of_inert (inert_of_alphanum tag.name_alphanum)]
    decide
  have written : closeTag tag ++ rest = '<' :: (('/' :: tag.name) ++ '>' :: rest) := by
    simp [closeTag]
  rw [written, dropTags, if_neg (by decide), if_pos rfl, dropTags_inside calm]

/-! ### Markup and its text -/

/-- The markup shows the text, whatever follows it. -/
def Shows (markup text : Text) : Prop :=
  ∀ rest, shownText (markup ++ rest) = text ++ shownText rest

theorem Shows.shownText {markup text : Text} (shows : Shows markup text) :
    shownText markup = text := by
  have none : Html.shownText [] = [] := unescape.eq_1
  have whole := shows []
  rwa [List.append_nil, none, List.append_nil] at whole

theorem Shows.nil : Shows [] [] := fun _ => rfl

theorem Shows.append {a b s t : Text} (left : Shows a s) (right : Shows b t) :
    Shows (a ++ b) (s ++ t) := by
  intro rest
  rw [List.append_assoc, left, right, List.append_assoc]

theorem shows_escapeText (t : Text) : Shows (escapeText t) t := by
  intro rest
  rw [shownText, dropTags_calm (escapeText_calm t), unescape_escapeText, shownText]

theorem shows_obfuscate (t : Text) : Shows (obfuscate t) t := by
  intro rest
  rw [shownText, dropTags_calm (calm_of_inert (obfuscate_inert t)), unescape_obfuscate,
    shownText]

/-- An element shows what its children show. -/
theorem shows_element {children : List Node} {text : Text} (tag : Tag)
    (attributes : List Attribute) (inner : Shows (writeNodes children) text) :
    Shows (Node.element tag attributes children).write text := by
  intro rest
  have opened := inner (closeTag tag ++ rest)
  rw [shownText, shownText, dropTags_closeTag] at opened
  rw [Node.write, List.append_assoc, List.append_assoc, shownText, dropTags_openTag, opened,
    shownText]

end CommentMarkup.Html
