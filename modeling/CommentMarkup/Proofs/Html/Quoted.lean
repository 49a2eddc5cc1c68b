import CommentMarkup.Proofs.Html.Neutralized
import CommentMarkup.Proofs.Html.Token
import CommentMarkup.Proofs.Text.Find

/-!
# Quotes in tags

Scanning ends a tag at the first `>` outside quotes, and every quote outside others opens some.
`scanTag_tag_iff` is the form of the tags that it accepts. What follows a tag or comment has no part
in it: `scanTag_take_append`.
-/

namespace CommentMarkup

open Html

/-! ### Quotes -/

def isQuote (c : Char) : Bool := c == '"' || c == '\''

/-- The quote that is open behind the character `c`, with `quote` open in front of it. -/
def quoteStep (quote : Option Char) (c : Char) : Option Char :=
  match quote with
  | some q => if c = q then none else some q
  | none => if isQuote c then some c else none

def openQuote (t : Text) : Option Char := t.foldl quoteStep none

def anglesQuoted (quote : Option Char) : Text → Bool
  | [] => true
  | c :: cs => (quote.isSome || !isAngle c) && anglesQuoted (quoteStep quote c) cs

theorem quoteStep_plain {c : Char} (plain : ¬ isQuote c) : quoteStep none c = none := by
  rw [quoteStep, if_neg plain]

theorem openQuote_append {a : Text} (plain : ∀ c ∈ a, ¬ isQuote c) (b : Text) :
    openQuote (a ++ b) = openQuote b := by
  induction a with
  | nil => rfl
  | cons c a ih =>
    rw [List.forall_mem_cons] at plain
    rw [List.cons_append, openQuote, List.foldl_cons, quoteStep_plain plain.1]
    exact ih plain.2

theorem tagEnd_cons (quote : Option Char) (c : Char) (t : Text) :
    tagEnd? quote (c :: t) =
      if quote = none ∧ c = '>' then some 1
      else if quote = none ∧ c = '<' then none
      else (tagEnd? (quoteStep quote c) t).map (· + 1) := by
  cases quote with
  | some q => simp [tagEnd?, quoteStep]
  | none =>
    by_cases mark : c = '"' ∨ c = '\''
    · have high : c ≠ '>' := by rintro rfl; simp at mark
      have low : c ≠ '<' := by rintro rfl; simp at mark
      simp [tagEnd?, quoteStep, isQuote, mark, high, low]
    · simp [tagEnd?, quoteStep, isQuote, mark]

/-- A tag ends with the first bracket outside quotes, if that is a closing one. -/
theorem tagEnd_eq_some_iff {quote : Option Char} {t : Text} {n : Nat} :
    tagEnd? quote t = some n ↔ ∃ inner after, t = inner ++ '>' :: after ∧ n = inner.length + 1 ∧
      anglesQuoted quote inner ∧ inner.foldl quoteStep quote = none := by
  induction t generalizing quote n with
  | nil => simp [tagEnd?]
  | cons c t ih =>
    rw [tagEnd_cons]
    constructor
    · intro h
      split at h
      · rename_i closes
        cases h
        exact ⟨[], t, by rw [closes.2]; rfl, rfl, rfl, closes.1⟩
      · rename_i goesOn
        split at h
        · cases h
        · rename_i goesOn'
          obtain ⟨k, found, rfl⟩ := Option.map_eq_some_iff.mp h
          obtain ⟨inner, after, rfl, rfl, quoted, closed⟩ := ih.mp found
          refine ⟨c :: inner, after, rfl, rfl, ?_, closed⟩
          rw [anglesQuoted, quoted, Bool.and_true]
          cases quote with
          | some q => rfl
          | none => simp_all [isAngle]
    · rintro ⟨inner, after, split, rfl, quoted, closed⟩
      cases inner with
      | nil =>
        cases split
        exact if_pos ⟨closed, rfl⟩
      | cons d inner =>
        cases split
        rw [anglesQuoted, Bool.and_eq_true] at quoted
        have inside {b : Char} (angle : isAngle b) : ¬ (quote = none ∧ c = b) := by
          rintro ⟨rfl, rfl⟩
          simp [angle] at quoted
        rw [if_neg (inside (by decide)), if_neg (inside (by decide)),
          ih.mpr ⟨inner, after, rfl, rfl, quoted.2, closed⟩]
        rfl

/-- At each bracket of the text a quote is open. -/
theorem openQuote_isSome {quote : Option Char} {t : Text} (quoted : anglesQuoted quote t) {k : Nat}
    {c : Char} (here : t[k]? = some c) (angle : isAngle c) :
    ((t.take k).foldl quoteStep quote).isSome := by
  induction t generalizing quote k with
  | nil => cases here
  | cons d t ih =>
    rw [anglesQuoted, Bool.and_eq_true] at quoted
    cases k with
    | zero =>
      cases here
      simpa [angle] using quoted.1
    | succ k => exact ih quoted.2 here

/-! ### The form of tags -/

theorem isAlphanum_of_tagName {t : Text} {c : Char} (member : c ∈ tagName t) : c.isAlphanum := by
  cases t with
  | nil => cases member
  | cons d t =>
    rw [tagName_cons] at member
    split at member
    · rename_i alpha
      rcases List.mem_cons.mp member with rfl | inside
      · exact isAlphanum_of_isAlpha alpha
      · exact List.mem_takeWhile_imp inside
    · cases member

/-- The beginning of a tag in front of a bracket `stop` that is not in quotes. -/
structure TagHead (stop : Char) where
  lead : Text
  word : Text
  /-- What stands between the name and the bracket. -/
  inner : Text
  opens : lead = ['<'] ∨ lead = ['<', '/']
  filled : word ≠ []
  named : tagName word = word
  ended : Text.startsWith endsTagName (inner ++ [stop])
  quoted : anglesQuoted none inner
  closed : openQuote inner = none

namespace TagHead

variable {stop : Char} (head : TagHead stop)

def text : Text := head.lead ++ (head.word ++ head.inner)

theorem word_alpha : Text.startsWith Char.isAlpha head.word := by
  have named := startsWith_tagName (t := head.word) (by simpa [head.named] using head.filled)
  rwa [head.named] at named

theorem ended_append (rest : Text) :
    Text.startsWith endsTagName (head.inner ++ stop :: rest) := by
  have ended := startsWith_append head.ended rest
  rwa [List.append_assoc] at ended

def front : Text := head.lead ++ head.word

theorem text_eq : head.text = head.front ++ head.inner := (List.append_assoc ..).symm

theorem isAlphanum_of_word {c : Char} (member : c ∈ head.word) : c.isAlphanum := by
  rw [← head.named] at member
  exact isAlphanum_of_tagName member

theorem lead_cases {c : Char} (member : c ∈ head.lead) : c = '<' ∨ c = '/' := by
  rcases head.opens with lead | lead
  · rw [lead] at member
    exact .inl (List.mem_singleton.mp member)
  · rw [lead] at member
    simpa using member

theorem front_plain : ∀ c ∈ head.front, ¬ isQuote c := by
  intro c member quote
  rcases List.mem_append.mp member with inLead | inWord
  · rcases head.lead_cases inLead with rfl | rfl
    all_goals exact absurd quote (by decide)
  · have letter := head.isAlphanum_of_word inWord
    rcases Bool.or_eq_true_iff.mp quote with same | same
    all_goals
      rw [beq_iff_eq.mp same] at letter
      exact absurd letter (by decide)

theorem front_angle {k : Nat} {c : Char} (here : head.front[k]? = some c) (angle : isAngle c) :
    k = 0 := by
  have outside {j : Nat} (here : head.word[j]? = some c) : False := by
    have letter := head.isAlphanum_of_word (List.mem_of_getElem? here)
    simpa [angle] using not_isAngle_of_isAlphanum letter
  rw [front] at here
  rcases head.opens with lead | lead
  · rw [lead] at here
    cases k with
    | zero => rfl
    | succ k => exact (outside here).elim
  · rw [lead] at here
    match k with
    | 0 => rfl
    | 1 =>
      cases here
      exact absurd angle (by decide)
    | k + 2 => exact (outside here).elim

theorem front_cons : ∃ label, '&' ∉ label ∧ head.front = '<' :: label := by
  have letters : '&' ∉ head.word := fun member =>
    absurd (head.isAlphanum_of_word member) (by decide)
  rcases head.opens with lead | lead
  · exact ⟨head.word, letters, by rw [front, lead]; rfl⟩
  · exact ⟨'/' :: head.word, by simpa using letters, by rw [front, lead]; rfl⟩

/-- The beginning of a tag goes with every text that its name ends at. -/
theorem withInner {inner : Text} {stop' : Char} (ended : Text.startsWith endsTagName (inner ++ [stop']))
    (quoted : anglesQuoted none inner) (closed : openQuote inner = none) :
    ∃ other : TagHead stop', other.text = head.front ++ inner :=
  ⟨⟨head.lead, head.word, inner, head.opens, head.filled, head.named, ended, quoted, closed⟩,
    text_eq _⟩

/-- Behind the first bracket of a tag the others are quoted. -/
theorem angle_quoted {k : Nat} {c : Char} (here : head.text[k]? = some c) (angle : isAngle c) :
    k = 0 ∨ (openQuote (head.text.take k)).isSome := by
  rw [text_eq] at here ⊢
  rcases Nat.lt_or_ge k head.front.length with early | late
  · rw [List.getElem?_append_left early] at here
    exact .inl (head.front_angle here angle)
  · obtain ⟨j, rfl⟩ := Nat.exists_eq_add_of_le late
    rw [List.getElem?_append_right late, Nat.add_sub_cancel_left] at here
    rw [List.take_length_add_append, openQuote_append head.front_plain]
    exact .inr (openQuote_isSome head.quoted here angle)

theorem openQuote_text : openQuote head.text = none := by
  rw [text_eq, openQuote_append head.front_plain, head.closed]

end TagHead

theorem startsWith_stop {p : Char → Bool} {inner rest : Text} {stop : Char}
    (h : Text.startsWith p (inner ++ stop :: rest)) : Text.startsWith p (inner ++ [stop]) := by
  cases inner with
  | nil => exact h
  | cons c inner => exact h

theorem not_isAlphanum_of_endsTagName {c : Char} (ends : endsTagName c) : ¬ c.isAlphanum :=
  fun letter => not_inTagName_of_endsTagName ends (inTagName_of_isAlphanum letter)

/-- A name goes up to where no letter or digit follows. -/
theorem tagName_append_stop {word rest : Text} (filled : word ≠ []) (named : tagName word = word)
    (ended : rest.startsWith endsTagName) : tagName (word ++ rest) = word := by
  cases word with
  | nil => exact absurd rfl filled
  | cons c word =>
    rw [tagName_cons] at named
    split at named
    · rename_i alpha
      have letters : ∀ d ∈ word, d.isAlphanum := by
        rw [← (List.cons.inj named).2]
        exact fun d member => List.mem_takeWhile_imp member
      have stop : rest.startsWith fun d => !d.isAlphanum := by
        cases rest with
        | nil => cases ended
        | cons d rest => simpa [Text.startsWith] using not_isAlphanum_of_endsTagName ended
      rw [List.cons_append, tagName_cons, if_pos alpha, takeWhile_append_stop letters stop]
    · cases named

theorem tagName_tagName (t : Text) : tagName (tagName t) = tagName t := by
  cases t with
  | nil => rfl
  | cons c t =>
    rw [tagName_cons]
    split
    · rename_i alpha
      rw [tagName_cons, if_pos alpha, List.takeWhile_takeWhile]
      simp
    · rfl

theorem scanTagName_eq_some_iff {lead n : Nat} {t : Text} {markup : Markup} :
    scanTagName lead t = some (markup, n) ↔
      tagName t ≠ [] ∧ Text.startsWith endsTagName (t.drop (tagName t).length) ∧
        markup = .tag (Text.toLower (tagName t)) ∧
          ∃ k, tagEnd? none (t.drop (tagName t).length) = some k ∧
            n = lead + (tagName t).length + k := by
  unfold scanTagName
  dsimp only
  split
  · rename_i improper
    simp only [Bool.or_eq_true, List.isEmpty_iff, Bool.not_eq_true'] at improper
    refine iff_of_false nofun ?_
    rintro ⟨filled, ended, _⟩
    rcases improper with empty | goesOn
    · exact filled empty
    · rw [goesOn] at ended
      cases ended
  · rename_i proper
    simp only [Bool.or_eq_true, List.isEmpty_iff, Bool.not_eq_true', not_or,
      Bool.not_eq_false] at proper
    simp only [Option.map_eq_some_iff, Prod.mk.injEq]
    constructor
    · rintro ⟨k, found, rfl, rfl⟩
      exact ⟨proper.1, proper.2, rfl, k, found, rfl⟩
    · rintro ⟨_, _, rfl, k, found, rfl⟩
      exact ⟨k, found, rfl, rfl⟩

/-- The head of the tag that is scanned from its name on. -/
theorem scanTagName_head {lead : Text} (opens : lead = ['<'] ∨ lead = ['<', '/']) {n : Nat}
    {t : Text} {markup : Markup} (h : scanTagName lead.length t = some (markup, n)) :
    ∃ (tag : TagHead '>') (after : Text), lead ++ t = tag.text ++ '>' :: after ∧
      markup = .tag (Text.toLower tag.word) ∧ n = tag.text.length + 1 := by
  obtain ⟨filled, ended, rfl, k, found, rfl⟩ := scanTagName_eq_some_iff.mp h
  obtain ⟨inner, after, rest, rfl, quoted, closed⟩ := tagEnd_eq_some_iff.mp found
  have whole := (tagName_append t).1
  rw [rest] at ended whole
  refine ⟨⟨lead, tagName t, inner, opens, filled, tagName_tagName t, startsWith_stop ended, quoted,
    closed⟩, after, ?_, rfl, ?_⟩
  · simp only [TagHead.text, List.append_assoc]
    rw [whole]
  · simp only [TagHead.text, List.length_append]
    omega

theorem TagHead.scanTagName_eq (tag : TagHead '>') (after : Text) (lead : Nat) :
    scanTagName lead (tag.word ++ (tag.inner ++ '>' :: after)) =
      some (.tag (Text.toLower tag.word), lead + tag.word.length + (tag.inner.length + 1)) := by
  have name := tagName_append_stop tag.filled tag.named (tag.ended_append after)
  have close : tagEnd? none (tag.inner ++ '>' :: after) = some (tag.inner.length + 1) :=
    tagEnd_eq_some_iff.mpr ⟨_, after, rfl, rfl, tag.quoted, tag.closed⟩
  rw [scanTagName_eq_some_iff, name, List.drop_left]
  exact ⟨tag.filled, tag.ended_append after, rfl, _, close, rfl⟩

/-- A letter behind the bracket makes it neither a comment nor a closing tag. -/
theorem scanTag_opening {t : Text} (alpha : t.startsWith Char.isAlpha) :
    scanTag ('<' :: t) = scanTagName 1 t := by
  unfold scanTag
  split
  · rename_i eq
    cases eq
    cases alpha
  · rename_i eq
    cases eq
    cases alpha
  · rename_i eq
    cases eq
    rfl
  · rename_i other
    exact absurd rfl (other t)

/-- Scanning accepts what starts like a tag and goes on to a `>` outside quotes, without a bracket
outside quotes in between. -/
theorem scanTag_tag_iff {t name : Text} {n : Nat} :
    scanTag t = some (.tag name, n) ↔ ∃ (tag : TagHead '>') (after : Text),
      t = tag.text ++ '>' :: after ∧ name = Text.toLower tag.word ∧ n = tag.text.length + 1 := by
  constructor
  · intro h
    have tagged (lead : Text) {t : Text} {m : Nat} (opens : lead = ['<'] ∨ lead = ['<', '/'])
        (h : scanTagName lead.length t = some (.tag name, m)) :
        ∃ (tag : TagHead '>') (after : Text), lead ++ t = tag.text ++ '>' :: after ∧
          name = Text.toLower tag.word ∧ m = tag.text.length + 1 := by
      obtain ⟨tag, after, split, same, length⟩ := scanTagName_head opens h
      exact ⟨tag, after, split, Markup.tag.inj same, length⟩
    unfold scanTag at h
    split at h
    · obtain ⟨k, _, eq⟩ := Option.map_eq_some_iff.mp h
      cases eq
    · exact tagged ['<', '/'] (.inr rfl) h
    · exact tagged ['<'] (.inl rfl) h
    · cases h
  · rintro ⟨tag, after, rfl, rfl, rfl⟩
    have read := tag.scanTagName_eq after
    rcases tag.opens with opens | opens
    · have written : tag.text ++ '>' :: after = '<' :: (tag.word ++ (tag.inner ++ '>' :: after)) := by
        simp [TagHead.text, opens]
      rw [written, scanTag_opening (startsWith_append tag.word_alpha _), read]
      simp [TagHead.text, opens]
      omega
    · have written :
          tag.text ++ '>' :: after = '<' :: '/' :: (tag.word ++ (tag.inner ++ '>' :: after)) := by
        simp [TagHead.text, opens]
      rw [written, scanTag, read]
      simp [TagHead.text, opens]
      omega

theorem scanTag_comment_iff {t : Text} {n : Nat} :
    scanTag t = some (.comment, n) ↔ ∃ body k, t = "<!--".toList ++ body ∧
      Text.find? "-->".toList body = some k ∧ n = k + 7 := by
  constructor
  · intro h
    have untagged {lead m : Nat} {t : Text} : scanTagName lead t ≠ some (.comment, m) := by
      intro h
      obtain ⟨_, _, other, _⟩ := scanTagName_eq_some_iff.mp h
      cases other
    unfold scanTag at h
    split at h
    · rename_i body
      obtain ⟨k, found, eq⟩ := Option.map_eq_some_iff.mp h
      cases eq
      exact ⟨body, k, rfl, found, rfl⟩
    · exact absurd h untagged
    · exact absurd h untagged
    · cases h
  · rintro ⟨body, k, rfl, found, rfl⟩
    exact (congrArg (Option.map fun n => (Markup.comment, n + 7)) found)

/-! ### What follows -/

theorem scanTag_le {t : Text} {markup : Markup} {n : Nat} (h : scanTag t = some (markup, n)) :
    n ≤ t.length := by
  cases markup with
  | comment =>
    obtain ⟨body, k, rfl, found, rfl⟩ := scanTag_comment_iff.mp h
    have short : k + 3 ≤ body.length := find_length (by decide) found
    simp
    omega
  | tag name =>
    obtain ⟨tag, after, rfl, rfl, rfl⟩ := scanTag_tag_iff.mp h
    simp

theorem scanTag_enclosed {t : Text} {markup : Markup} (h : scanTag t = some (markup, t.length)) :
    ∃ inner, t = '<' :: inner ++ ['>'] := by
  cases markup with
  | comment =>
    obtain ⟨body, k, rfl, found, length⟩ := scanTag_comment_iff.mp h
    have parts := find_split found
    have behind : body.drop (k + 3) = [] := by
      rw [List.length_append, show "<!--".toList.length = 4 from rfl] at length
      exact List.drop_of_length_le (by omega)
    rw [show "-->".toList.length = 3 from rfl, behind, List.append_nil] at parts
    generalize body.take k = inner at parts
    exact ⟨"!--".toList ++ (inner ++ "--".toList), by simp [← parts]⟩
  | tag name =>
    obtain ⟨tag, after, rfl, rfl, length⟩ := scanTag_tag_iff.mp h
    obtain ⟨label, _, front⟩ := tag.front_cons
    have last : after = [] := by simpa using length
    rw [last, TagHead.text_eq, front]
    exact ⟨label ++ tag.inner, by simp⟩

/-- A tag or comment is recognised by its own characters. -/
theorem scanTag_take_append {t : Text} {markup : Markup} {n : Nat}
    (h : scanTag t = some (markup, n)) (rest : Text) :
    scanTag (t.take n ++ rest) = some (markup, n) := by
  cases markup with
  | comment =>
    obtain ⟨body, k, rfl, found, rfl⟩ := scanTag_comment_iff.mp h
    have behind := find_take_append (by decide) found rest
    have length : k + 7 = "<!--".toList.length + (k + 3) := by
      rw [show "<!--".toList.length = 4 from rfl]
      omega
    refine scanTag_comment_iff.mpr ⟨body.take (k + 3) ++ rest, k, ?_, behind, rfl⟩
    rw [length, List.take_length_add_append, List.append_assoc]
  | tag name =>
    obtain ⟨tag, after, rfl, rfl, rfl⟩ := scanTag_tag_iff.mp h
    refine scanTag_tag_iff.mpr ⟨tag, rest, ?_, rfl, rfl⟩
    rw [List.take_length_add_append]
    simp

end CommentMarkup
