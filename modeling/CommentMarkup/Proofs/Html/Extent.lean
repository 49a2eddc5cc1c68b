import CommentMarkup.Proofs.Html.Quoted

/-!
# Where a tag ends for its readers

For a reader of the page a quote opens a value only behind the `=` of an attribute. Scanning takes
every quote for one that opens or closes a value, so the two may end a tag at different places:
`scanTag_extent_iff`.
-/

namespace CommentMarkup

open Html

def isTagSpace (c : Char) : Bool :=
  c == ' ' || c == '\t' || c == '\n' || c == '\r' || c == '\x0c'

/-- Where in a tag a reader of the page is. -/
inductive TagState
  /-- In front of the name. -/
  | opened
  | inName
  /-- In front of an attribute. -/
  | gap
  /-- In the name of an attribute, or in the space behind it. -/
  | inAttribute
  /-- Behind the `=` of an attribute. -/
  | beforeValue
  | inBareValue
  | inValue (quote : Char)
  deriving DecidableEq, Repr

namespace TagState

def step (state : TagState) (c : Char) : TagState :=
  match state with
  | opened => if c == '<' || c == '/' then opened else inName
  | inName => if isTagSpace c || c == '/' then gap else inName
  | gap => if isTagSpace c || c == '/' then gap else inAttribute
  | inAttribute => if c == '/' then gap else if c == '=' then beforeValue else inAttribute
  | beforeValue =>
    if isTagSpace c then beforeValue else if isQuote c then inValue c else inBareValue
  | inBareValue => if isTagSpace c then gap else inBareValue
  | inValue quote => if c = quote then gap else inValue quote

def quote? : TagState → Option Char
  | inValue quote => some quote
  | _ => none

/-- The number of characters up to and including the first `>` that is in no quoted value. -/
def closing? (state : TagState) : Text → Option Nat
  | [] => none
  | c :: cs =>
    if c = '>' ∧ state.quote? = none then some 1 else ((state.step c).closing? cs).map (· + 1)

theorem not_isQuote_of_isTagSpace {c : Char} (space : isTagSpace c) : ¬ isQuote c := by
  intro quote
  rcases Bool.or_eq_true_iff.mp quote with same | same
  all_goals
    rw [beq_iff_eq.mp same] at space
    exact absurd space (by decide)

/-- As far as no quote but one behind an `=` opens anything, the reader and scanning go together. -/
theorem quote_step {state : TagState} {c : Char}
    (opens : state.quote? = none → isQuote c → state = beforeValue) :
    (state.step c).quote? = quoteStep state.quote? c := by
  cases state with
  | inValue quote =>
    by_cases same : c = quote
    all_goals simp [step, quote?, quoteStep, same]
  | beforeValue =>
    by_cases space : isTagSpace c
    · simp [step, quote?, quoteStep, space, not_isQuote_of_isTagSpace space]
    · by_cases quote : isQuote c
      all_goals simp [step, quote?, quoteStep, space, quote]
  | _ =>
    -- nowhere else a quote may stand, and no other character opens a value
    have plain : ¬ isQuote c := by
      intro quote
      cases opens rfl quote
    refine Eq.trans ?_ (quoteStep_plain plain).symm
    simp only [step]
    repeat' split
    all_goals rfl

end TagState

/-! ### First closing brackets -/

def FirstClosing (quote? : Text → Option Char) (t : Text) (n : Nat) : Prop :=
  ∃ k, n = k + 1 ∧ t[k]? = some '>' ∧ quote? (t.take k) = none ∧
    ∀ j < k, t[j]? = some '>' → quote? (t.take j) ≠ none

/-- Another reading of the quotes ends at the same place if it agrees on the brackets up to there. -/
theorem FirstClosing.iff_agree {quote? : Text → Option Char} {t : Text} {n : Nat}
    (first : FirstClosing quote? t n) (other? : Text → Option Char) :
    FirstClosing other? t n ↔ ∀ k < n, t[k]? = some '>' →
      (other? (t.take k) = none ↔ quote? (t.take k) = none) := by
  obtain ⟨k, rfl, here, closed, quoted⟩ := first
  constructor
  · rintro ⟨m, length, _, closed', quoted'⟩ j inside there
    obtain rfl := Nat.succ.inj length
    rcases Nat.lt_succ_iff_lt_or_eq.mp inside with before | rfl
    · exact iff_of_false (quoted' j before there) (quoted j before there)
    · exact iff_of_true closed' closed
  · intro agree
    refine ⟨k, rfl, here, (agree k (Nat.lt_succ_self k) here).mpr closed, fun j before there => ?_⟩
    rw [ne_eq, agree j (Nat.lt_succ_of_lt before) there]
    exact quoted j before there

theorem TagState.closing_eq_some_iff {state : TagState} {t : Text} {n : Nat} :
    state.closing? t = some n ↔ FirstClosing (fun u => (u.foldl step state).quote?) t n := by
  induction t generalizing state n with
  | nil => simp [closing?, FirstClosing]
  | cons c t ih =>
    rw [closing?]
    constructor
    · intro h
      split at h
      · rename_i closes
        cases h
        exact ⟨0, rfl, congrArg some closes.1, closes.2, nofun⟩
      · rename_i goesOn
        obtain ⟨m, found, rfl⟩ := Option.map_eq_some_iff.mp h
        obtain ⟨k, rfl, here, closed, first⟩ := ih.mp found
        refine ⟨k + 1, rfl, here, closed, fun j before there => ?_⟩
        cases j with
        | zero =>
          cases there
          exact fun closed => goesOn ⟨rfl, closed⟩
        | succ j => exact first j (Nat.lt_of_succ_lt_succ before) there
    · rintro ⟨k, rfl, here, closed, first⟩
      cases k with
      | zero =>
        cases here
        exact if_pos ⟨rfl, closed⟩
      | succ k =>
        have inside : ¬ (c = '>' ∧ state.quote? = none) := by
          rintro ⟨rfl, unquoted⟩
          exact first 0 (Nat.succ_pos k) rfl unquoted
        have later : FirstClosing (fun u => (u.foldl step (state.step c)).quote?) t (k + 1) :=
          ⟨k, rfl, here, closed, fun j before => first (j + 1) (Nat.succ_lt_succ before)⟩
        rw [if_neg inside, ih.mpr later]
        rfl

theorem TagHead.firstClosing (tag : TagHead '>') (after : Text) :
    FirstClosing openQuote (tag.text ++ '>' :: after) (tag.text.length + 1) := by
  refine ⟨tag.text.length, rfl, by simp, by rw [List.take_left, tag.openQuote_text], ?_⟩
  intro k inside here
  rw [List.getElem?_append_left inside] at here
  rw [List.take_append_of_le_length inside.le]
  rcases tag.angle_quoted here (by decide) with rfl | quoted
  · obtain ⟨label, _, front⟩ := tag.front_cons
    rw [tag.text_eq, front] at here
    cases here
  · exact Option.isSome_iff_ne_none.mp quoted

/-! ### The two ends -/

/-- Where a reader of the page is behind the text of a tag. -/
def stateAfter (t : Text) : TagState := t.foldl TagState.step .opened

/-- The length of the tag at the start of the text, for a reader of the page. -/
def tagExtent? (t : Text) : Option Nat :=
  if (opening? t).isSome then TagState.closing? .opened t else none

theorem TagHead.opening_isSome (tag : TagHead '>') (after : Text) :
    (opening? (tag.text ++ '>' :: after)).isSome := by
  have alpha (rest : Text) : Text.startsWith Char.isAlpha (tag.word ++ rest) :=
    startsWith_append tag.word_alpha rest
  rcases tag.opens with lead | lead
  · simp [TagHead.text, lead, opening?, afterSlash_of_alpha (alpha _), alpha]
  · simp [TagHead.text, lead, opening?, afterSlash, alpha]

/-- Every quote in the first `n` characters that opens one stands behind the `=` of an attribute. -/
def QuotesValues (t : Text) (n : Nat) : Prop :=
  ∀ k < n, t[k]?.any isQuote → openQuote (t.take k) = none → stateAfter (t.take k) = .beforeValue

instance (t : Text) (n : Nat) : Decidable (QuotesValues t n) :=
  inferInstanceAs (Decidable (∀ k < n, _ → _ → _))

theorem QuotesValues.quote_stateAfter {t : Text} {n : Nat} (values : QuotesValues t n) :
    (stateAfter (t.take n)).quote? = openQuote (t.take n) := by
  induction n with
  | zero => rfl
  | succ n ih =>
    have before := ih fun k inside => values k (Nat.lt_succ_of_lt inside)
    cases here : t[n]? with
    | none =>
      have short := List.getElem?_eq_none_iff.mp here
      rwa [List.take_of_length_le (Nat.le_succ_of_le short), ← List.take_of_length_le short]
    | some c =>
      rw [List.take_add_one, here]
      simp only [stateAfter, openQuote, Option.toList_some, List.foldl_append, List.foldl_cons,
        List.foldl_nil] at before ⊢
      rw [← before]
      apply TagState.quote_step
      intro closed quote
      rw [before] at closed
      exact values n (Nat.lt_succ_self n) (by rwa [here]) closed

/-- Scanning and a reader end a tag at the same place if they agree on which of its brackets are
quoted, and so if every quote that opens one stands behind the `=` of an attribute. -/
theorem scanTag_extent_iff {t name : Text} {n : Nat} (found : scanTag t = some (.tag name, n)) :
    (tagExtent? t = some n ↔ ∀ k < n, t[k]? = some '>' →
      ((stateAfter (t.take k)).quote? = none ↔ openQuote (t.take k) = none)) ∧
    (QuotesValues t n → tagExtent? t = some n) := by
  obtain ⟨tag, after, rfl, rfl, rfl⟩ := scanTag_tag_iff.mp found
  have extent := (tag.firstClosing after).iff_agree fun u => (stateAfter u).quote?
  rw [tagExtent?, if_pos (tag.opening_isSome after), TagState.closing_eq_some_iff]
  refine ⟨extent, fun values => extent.mpr fun k inside _ => ?_⟩
  have lockstep : QuotesValues (tag.text ++ '>' :: after) k :=
    fun j before => values j (before.trans inside)
  rw [lockstep.quote_stateAfter]

/-- Both ends are behind the last bracket of the tag, and not at the one in a value. -/
theorem scanTag_extent_quoted :
    let t := "<a title = \"x>y\" id='z'>'>".toList
    scanTag t = some (.tag ['a'], 24) ∧ tagExtent? t = some 24 := by
  intro t
  have found : scanTag t = some (.tag ['a'], 24) := by decide +kernel
  exact ⟨found, (scanTag_extent_iff found).2 (by decide +kernel)⟩

/-- An apostrophe in the name of an attribute opens nothing for a reader, so that the tag ends at
the first bracket. Scanning passes the rest through with it. -/
theorem apostrophe_misread :
    ¬ ∀ (t name : Text) (n : Nat), scanTag t = some (.tag name, n) → tagExtent? t = some n := by
  intro endsAtExtent
  have read : scanTag "<b a'>'>".toList = some (.tag ['b'], 8) := by decide +kernel
  have extent : tagExtent? "<b a'>'>".toList = some 6 := by decide +kernel
  have same := endsAtExtent _ _ _ read
  rw [extent] at same
  cases same

end CommentMarkup
