import CommentMarkup.Proofs.Abbreviation.Marked
import CommentMarkup.Proofs.Inline.Unresolved
import CommentMarkup.Proofs.Page.Verbatim

/-!
# Written links

Links and images written with their text, address and title escaped are read as what was written:
`readInline_linkMarkup`. Each recogniser passes over an escaped part as a whole and stops right
behind it.
-/

namespace CommentMarkup

def titleMarkup : Option Text → Text
  | none => []
  | some title => ' ' :: '"' :: (escapeMarkup title ++ ['"'])

def linkBody (text url : Text) (title : Option Text) : Text :=
  escapeMarkup text ++ ']' :: '(' :: (escapeMarkup url ++ (titleMarkup title ++ [')']))

/-- A link as it is written, with the punctuation in its parts escaped. -/
def linkMarkup (text url : Text) (title : Option Text) : Text := '[' :: linkBody text url title

/-! ### Escaped parts -/

theorem ne_of_plain {c d : Char} (plain : ¬ isPunctuation c) (mark : isPunctuation d) : c ≠ d := by
  rintro rfl
  exact plain mark

theorem unescape_escapeMarkup (t : Text) : unescape (escapeMarkup t) = t := by
  induction t with
  | nil => rfl
  | cons c t ih =>
    rw [escapeMarkup_cons]
    by_cases mark : isPunctuation c
    · rw [escapeMarkupChar_mark mark, List.cons_append, List.singleton_append, unescape,
        if_pos mark, ih]
    · have other : c ≠ '\\' := ne_of_plain mark (by decide)
      rw [escapeMarkupChar_plain mark, List.singleton_append, unescape, ih]
      exact fun _ _ slash _ => other slash

/-- No bracket of an escaped text counts, and no code in it hides one behind it. -/
theorem bracketIndex_escapeMarkup (t rest : Text) :
    bracketIndex? 0 (escapeMarkup t ++ ']' :: rest) = some (escapeMarkup t).length := by
  induction t with
  | nil =>
    rw [show escapeMarkup [] = [] from rfl, List.nil_append, bracketIndex?]
    rfl
  | cons c t ih =>
    rw [escapeMarkup_cons, List.append_assoc, List.length_append, Nat.add_comm]
    by_cases mark : isPunctuation c
    · rw [escapeMarkupChar_mark mark, List.cons_append, List.singleton_append, bracketIndex?,
        if_pos rfl, List.drop_one, List.tail_cons, ih]
      rfl
    · rw [escapeMarkupChar_plain mark, List.singleton_append, bracketIndex?,
        if_neg (ne_of_plain mark (by decide)), if_neg (ne_of_plain mark (by decide)),
        if_neg (ne_of_plain mark (by decide)), if_neg (ne_of_plain mark (by decide)), ih]
      rfl

theorem bareUrlLength_escapeMarkup {url : Text} (spaceless : ∀ c ∈ url, ¬ isSpace c) (rest : Text) :
    bareUrlLength 0 (escapeMarkup url ++ rest) =
      (escapeMarkup url).length + bareUrlLength 0 rest := by
  induction url with
  | nil => simp [escapeMarkup]
  | cons c url ih =>
    rw [List.forall_mem_cons] at spaceless
    rw [escapeMarkup_cons, List.append_assoc, List.length_append]
    by_cases mark : isPunctuation c
    · rw [escapeMarkupChar_mark mark, List.cons_append, List.singleton_append, bareUrlLength,
        ih spaceless.2]
      simp only [List.length_cons, List.length_nil]
      omega
    · have other : c ≠ '\\' := ne_of_plain mark (by decide)
      rw [escapeMarkupChar_plain mark, List.singleton_append, bareUrlLength,
        if_neg (ne_of_plain mark (by decide)), if_neg (ne_of_plain mark (by decide)),
        if_neg spaceless.1, ih spaceless.2]
      · simp only [List.length_cons, List.length_nil]
        omega
      · exact fun _ _ slash _ => other slash

theorem closeIndex_escapeMarkup (t rest : Text) :
    closeIndex? '"' (escapeMarkup t ++ '"' :: rest) = some (escapeMarkup t).length := by
  induction t with
  | nil => rfl
  | cons c t ih =>
    rw [escapeMarkup_cons, List.append_assoc, List.length_append]
    by_cases mark : isPunctuation c
    · rw [escapeMarkupChar_mark mark, List.cons_append, List.singleton_append, closeIndex?, ih,
        Option.map_some, Nat.add_comm]
      rfl
    · have other : c ≠ '\\' := ne_of_plain mark (by decide)
      rw [escapeMarkupChar_plain mark, List.singleton_append, closeIndex?,
        if_neg (ne_of_plain mark (by decide)), if_neg other, ih, Option.map_some, Nat.add_comm]
      · rfl
      · exact fun _ _ slash _ => other slash

/-! ### Destinations -/

/-- An escaped address is read up to the end of it. -/
theorem url_escapeMarkup {url rest : Text} (filled : url ≠ [])
    (spaceless : ∀ c ∈ url, ¬ isSpace c) (stop : bareUrlLength 0 rest = 0) :
    url? (escapeMarkup url ++ rest) = some (url, (escapeMarkup url).length) := by
  have length := bareUrlLength_escapeMarkup spaceless rest
  rw [stop, Nat.add_zero] at length
  rw [url?, length, List.take_left, unescape_escapeMarkup]
  intro cs angle
  cases url with
  | nil => exact filled rfl
  | cons c url =>
    rw [escapeMarkup_cons] at angle
    by_cases mark : isPunctuation c
    · rw [escapeMarkupChar_mark mark] at angle
      cases angle
    · rw [escapeMarkupChar_plain mark] at angle
      injection angle with same
      exact ne_of_plain mark (by decide) same

theorem gapLength_inked {c : Char} {t : Text} (ink : ¬ isSpace c) : gapLength (c :: t) = 0 := by
  rw [gapLength, List.takeWhile_cons_of_neg ink]
  rfl

theorem gapLength_escapeMarkup {url : Text} (filled : url ≠ [])
    (spaceless : ∀ c ∈ url, ¬ isSpace c) (rest : Text) :
    gapLength (escapeMarkup url ++ rest) = 0 := by
  cases url with
  | nil => exact absurd rfl filled
  | cons c url =>
    rw [escapeMarkup_cons]
    by_cases mark : isPunctuation c
    · rw [escapeMarkupChar_mark mark]
      exact gapLength_inked (by decide)
    · rw [escapeMarkupChar_plain mark]
      exact gapLength_inked (spaceless c List.mem_cons_self)

theorem quotedTitle_escapeMarkup (title rest : Text) :
    quotedTitle? ('"' :: (escapeMarkup title ++ '"' :: rest)) =
      some (some title, (escapeMarkup title).length + 2) := by
  rw [quotedTitle?, if_pos (.inl rfl), if_neg (by decide), closeIndex_escapeMarkup, Option.map_some,
    List.take_left, unescape_escapeMarkup]

/-- A destination is read part by part. -/
theorem destination_parts {address rest url : Text} (gap titled : Text) {title : Option Text}
    (start : gapLength (address ++ (gap ++ (titled ++ ')' :: rest))) = 0)
    (found : url? (address ++ (gap ++ (titled ++ ')' :: rest))) = some (url, address.length))
    (spaces : gapLength (gap ++ (titled ++ ')' :: rest)) = gap.length)
    (quoted : quotedTitle? (titled ++ ')' :: rest) = some (title, titled.length)) :
    destination? (address ++ (gap ++ (titled ++ ')' :: rest))) =
      some (⟨url, title⟩, address.length + gap.length + titled.length + 1) := by
  have closing : gapLength (')' :: rest) = 0 := gapLength_inked (by decide)
  simp only [destination?, start, found, Option.bind_eq_bind, Option.bind_some, List.drop_zero,
    Nat.zero_add, List.drop_left, spaces, List.drop_length_add_append, quoted, Nat.add_assoc,
    closing, Nat.add_zero, Text.startsWith, beq_self_eq_true, if_true]

theorem destination_written {url : Text} (filled : url ≠ []) (spaceless : ∀ c ∈ url, ¬ isSpace c)
    (title : Option Text) (rest : Text) :
    destination? (escapeMarkup url ++ (titleMarkup title ++ ')' :: rest)) =
      some (⟨url, title⟩, (escapeMarkup url).length + (titleMarkup title).length + 1) := by
  have start := gapLength_escapeMarkup filled spaceless (titleMarkup title ++ ')' :: rest)
  cases title with
  | none =>
    exact destination_parts [] [] start (url_escapeMarkup filled spaceless rfl)
      (gapLength_inked (by decide)) rfl
  | some title =>
    have written : titleMarkup (some title) = [' '] ++ '"' :: (escapeMarkup title ++ ['"']) := rfl
    have quoted : quotedTitle? ('"' :: (escapeMarkup title ++ ['"']) ++ ')' :: rest) =
        some (some title, ('"' :: (escapeMarkup title ++ ['"'])).length) := by
      have read := quotedTitle_escapeMarkup title (')' :: rest)
      simpa using read
    rw [written, List.append_assoc] at start ⊢
    rw [List.length_append, ← Nat.add_assoc]
    exact destination_parts [' '] _ start (url_escapeMarkup filled spaceless rfl) rfl quoted

/-! ### Links -/

section Links

variable (scope : Scope) (notes : Notes) {text url : Text} (title : Option Text)
  (feedless : '\n' ∉ text) (filled : url ≠ []) (spaceless : ∀ c ∈ url, ¬ isSpace c)

include feedless

theorem unbroken_feedless : Unbroken [] text := by
  rintro front back rfl
  exact absurd (List.mem_append_right front List.mem_cons_self) feedless

theorem readFlat_escapeMarkup : readFlat scope.mode (escapeMarkup text) = textSpan text := by
  rw [readFlat, scan_escapeMarkup _ _ _ _ _ _ _ (unbroken_feedless feedless), List.append_nil]
  by_cases written : text = []
  · simp [written, heldPiece, emphasize, pair, flatten, textSpan]
  · simp [emphasize_held written, textSpan, written]

theorem linkSpan_escapeMarkup (image : Bool) (target : Target) :
    linkSpan scope image (escapeMarkup text) target =
      if image then .image target text else .link target (textSpan text) := by
  rw [linkSpan, readFlat_escapeMarkup scope feedless, plainText_textSpan]

include filled spaceless

/-- The link behind its opening bracket is taken as a whole. -/
theorem readLink_linkBody (image : Bool) :
    readLink scope image (linkBody text url title) notes =
      (some (if image then .image ⟨url, title⟩ text else .link ⟨url, title⟩ (textSpan text),
        (linkBody text url title).length), notes) := by
  have destination : linkDestination?
      ('(' :: (escapeMarkup url ++ (titleMarkup title ++ [')']))) =
        some (⟨url, title⟩, (escapeMarkup url).length + (titleMarkup title).length + 2) := by
    rw [linkDestination?, destination_written filled spaceless title []]
    rfl
  have behind : (linkBody text url title).drop ((escapeMarkup text).length + 1) =
      '(' :: (escapeMarkup url ++ (titleMarkup title ++ [')'])) := by
    rw [linkBody, List.drop_length_add_append]
    rfl
  have closes : bracketIndex? 0 (linkBody text url title) = some (escapeMarkup text).length :=
    bracketIndex_escapeMarkup text _
  have inside : (linkBody text url title).take (escapeMarkup text).length = escapeMarkup text :=
    List.take_left
  have whole : (linkBody text url title).length = (escapeMarkup text).length + 1 +
      ((escapeMarkup url).length + (titleMarkup title).length + 2) := by
    simp only [linkBody, List.length_append, List.length_cons, List.length_nil]
    omega
  rw [readLink, closes]
  dsimp only
  rw [behind, destination]
  dsimp only
  rw [inside, linkSpan_escapeMarkup scope feedless, whole]

end Links

/-- A bracket that is taken as a whole leaves nothing else of the text. -/
theorem scan_whole {σ : Type} {mode : EmphasisMode} {attempt : Attempt σ} {s s' : σ} {c : Char}
    {cs : Text} {prev escaped : Option Char} {span : Inline} (opens : opensBracket escaped c cs)
    (taken : attempt (c :: cs) s = (some (span, (c :: cs).length), s')) :
    scan mode attempt prev escaped [] (c :: cs) s = ([.span span], s') := by
  rw [scan, if_pos opens, taken]
  simp [scan, heldPiece]

theorem expandAbbreviations_textSpan (t : Text) :
    expandAbbreviations [] (textSpan t) = textSpan t := by
  by_cases written : t = []
  · simp [written, textSpan, expandAbbreviations]
  · simp [textSpan, written, expandAbbreviations, Inline.expand, occurrences, occurrencesFrom_nil,
      markOccurrences]

/-- An escaped text starts with no caret. -/
theorem head_linkBody (text url : Text) (title : Option Text) :
    (linkBody text url title).head? ≠ some '^' := by
  cases text with
  | nil => exact fun first => by cases first
  | cons c text =>
    rw [linkBody, escapeMarkup_cons]
    by_cases mark : isPunctuation c
    · rw [escapeMarkupChar_mark mark]
      exact fun first => by cases first
    · rw [escapeMarkupChar_plain mark]
      exact fun first => ne_of_plain mark (by decide) (Option.some.inj first)

/-- A written link is read as the link that was written, and with an exclamation mark in front as
the image. -/
theorem readInline_linkMarkup (scope : Scope) (undefined : scope.references.abbreviations = [])
    (notes : Notes) {text url : Text} (title : Option Text) (feedless : '\n' ∉ text)
    (filled : url ≠ []) (spaceless : ∀ c ∈ url, ¬ isSpace c) :
    readInline scope (linkMarkup text url title) notes =
        ([.link ⟨url, title⟩ (textSpan text)], notes) ∧
      readInline scope ('!' :: linkMarkup text url title) notes =
        ([.image ⟨url, title⟩ text], notes) := by
  have read (image : Bool) := readLink_linkBody scope notes title feedless filled spaceless image
  constructor
  · have taken : readBracket scope ('[' :: linkBody text url title) notes =
        (some (.link ⟨url, title⟩ (textSpan text), ('[' :: linkBody text url title).length),
          notes) := by
      rw [readBracket_link (head_linkBody text url title), read false, afterLead,
        List.length_cons, Nat.add_comm]
      rfl
    rw [readInline, linkMarkup, scan_whole rfl taken, undefined]
    simp [emphasize, pair, flatten, expandAbbreviations, Inline.expand,
      expandAbbreviations_textSpan]
  · have taken : readBracket scope ('!' :: '[' :: linkBody text url title) notes =
        (some (.image ⟨url, title⟩ text, ('!' :: '[' :: linkBody text url title).length),
          notes) := by
      rw [readBracket, read true]
      simp [afterLead, Nat.add_comm 2]
    rw [readInline, linkMarkup, scan_whole rfl taken, undefined]
    simp [emphasize, pair, flatten, expandAbbreviations, Inline.expand]

/-- Brackets, a backtick and quotes in the parts, and a line feed in the title. -/
theorem readInline_linkMarkup_hostile :
    let scope : Scope := ⟨.wordInternalLiteral, .empty, []⟩
    let source := "[a\\]\\\x60](\\<b\\) \"\\\"\n\\)\")".toList
    let title := some "\"\n)".toList
    scope.references.abbreviations = [] ∧ '\n' ∉ "a]\x60".toList ∧ "<b)".toList ≠ [] ∧
      (∀ c ∈ "<b)".toList, ¬ isSpace c) ∧
      readInline scope source (.start []) =
        ([.link ⟨"<b)".toList, title⟩ [.text "a]\x60".toList]], .start []) ∧
      readInline scope ('!' :: source) (.start []) =
        ([.image ⟨"<b)".toList, title⟩ "a]\x60".toList], .start []) := by
  intro scope source title
  have feedless : '\n' ∉ "a]\x60".toList := by decide
  have filled : "<b)".toList ≠ [] := by decide
  have spaceless : ∀ c ∈ "<b)".toList, ¬ isSpace c := by
    have all : "<b)".toList.all fun c => !isSpace c := by decide
    simpa only [List.all_eq_true, Bool.not_eq_true', Bool.not_eq_true] using all
  have written : linkMarkup "a]\x60".toList "<b)".toList title = source := by decide
  have read := readInline_linkMarkup scope rfl (.start []) title feedless filled spaceless
  rw [written] at read
  exact ⟨rfl, feedless, filled, spaceless, read⟩

end CommentMarkup
