import CommentMarkup.Inline.Address
import CommentMarkup.Proofs.Text.Ascii
import CommentMarkup.Proofs.Text.Cut
import CommentMarkup.Proofs.Text.Foreign
import CommentMarkup.Proofs.Text.Tally
import CommentMarkup.Proofs.Text.Within

/-!
# Places of mail addresses

The characters of a mail address, and what that means for the places where it stands in a text: no
markup, no white space and no character reference has a part in them.
-/

namespace CommentMarkup

theorem mem_cutAt_or {α : Type} {p : α → Bool} {a : α} {l : List α} (member : a ∈ l) :
    p a ∨ ∃ piece ∈ cutAt p l, a ∈ piece := by
  induction l with
  | nil => cases member
  | cons b l ih =>
    by_cases cut : p b
    · rw [cutAt_cons_pos cut]
      rcases List.mem_cons.mp member with rfl | later
      · exact .inl cut
      · refine (ih later).imp_right ?_
        rintro ⟨piece, listed, inside⟩
        exact ⟨piece, List.mem_cons_of_mem _ listed, inside⟩
    · obtain ⟨first, others, eq, whole⟩ := cutAt_cons_neg cut l
      rw [whole]
      rcases List.mem_cons.mp member with rfl | later
      · exact .inr ⟨_, List.mem_cons_self, List.mem_cons_self⟩
      · refine (ih later).imp_right ?_
        rintro ⟨piece, listed, inside⟩
        rw [eq] at listed
        rcases List.mem_cons.mp listed with rfl | tail
        · exact ⟨_, List.mem_cons_self, List.mem_cons_of_mem _ inside⟩
        · exact ⟨piece, List.mem_cons_of_mem _ tail, inside⟩

/-! ### Characters -/

def isDomainChar (c : Char) : Bool := c.isAlphanum || c == '-' || c == '.'

theorem mail_form {address : Text} (mail : isMailAddress address) :
    ∃ mailbox domain, address = mailbox ++ '@' :: domain ∧
      (∀ c ∈ mailbox, isMailboxChar c) ∧ ∀ c ∈ domain, isDomainChar c := by
  unfold isMailAddress at mail
  dsimp only at mail
  generalize front : (address.takeWhile fun c => c != '@') = mailbox at mail
  simp only [Bool.and_eq_true, decide_eq_true_eq, List.all_eq_true] at mail
  obtain ⟨⟨⟨_, local'⟩, short⟩, labels⟩ := mail
  have behind : address.drop mailbox.length = address.dropWhile fun c => c != '@' := by
    rw [← front, drop_takeWhile_length]
  have parts := List.takeWhile_append_dropWhile (p := fun c => c != '@') (l := address)
  rw [front, ← behind] at parts
  cases tail : address.drop mailbox.length with
  | nil =>
    have none := congrArg List.length tail
    rw [List.length_drop, List.length_nil] at none
    omega
  | cons c domain =>
    have at' : c = '@' := by
      have filled : (address.dropWhile fun c => c != '@') ≠ [] := by simp [← behind, tail]
      have stops := List.head_dropWhile_not _ filled
      simp only [← behind, tail, List.head_cons] at stops
      simpa using stops
    have rest : address.drop (mailbox.length + 1) = domain := by
      rw [← List.drop_drop, tail]
      rfl
    rw [tail, at'] at parts
    refine ⟨mailbox, domain, parts.symm, local', fun d member => ?_⟩
    rw [rest] at labels
    rcases mem_cutAt_or (p := (· == '.')) member with dot | ⟨label, listed, inside⟩
    · simp [isDomainChar, beq_iff_eq.mp dot]
    · have whole := labels label listed
      simp only [isDomainLabel, Bool.and_eq_true, List.all_eq_true] at whole
      have plain := whole.2 d inside
      rw [isDomainChar, plain, Bool.true_or]

theorem isMailboxChar_of_isDomainChar {c : Char} (h : isDomainChar c) : isMailboxChar c := by
  simp only [isDomainChar, Bool.or_eq_true, beq_iff_eq] at h
  rcases h with (alphanum | rfl) | rfl
  · rw [isMailboxChar, alphanum, Bool.true_or]
  · decide
  · decide

theorem not_isMailboxChar_of_isSpace {c : Char} (space : isSpace c) : isMailboxChar c = false := by
  rw [Bool.eq_false_iff]
  intro mailbox
  rw [isMailboxChar, Bool.or_eq_true] at mailbox
  rcases mailbox with alphanum | punctuation
  · have bounds := toNat_of_isAlphanum alphanum
    simp only [isSpace, inRanges, spaceRanges, List.any_cons, List.any_nil, Bool.or_eq_true,
      Bool.and_eq_true, decide_eq_true_eq, Bool.or_false] at space
    omega
  · have spaceless : mailboxPunctuation.all fun c => !isSpace c := by decide
    have plain := List.all_eq_true.mp spaceless c (by simpa using punctuation)
    rw [space] at plain
    cases plain

section Mail

variable {address : Text} (mail : isMailAddress address)

include mail

theorem mail_absent {c : Char} (other : isMailboxChar c = false) (apart : c ≠ '@') :
    c ∉ address := by
  obtain ⟨mailbox, domain, rfl, front, back⟩ := mail_form mail
  intro member
  rcases List.mem_append.mp member with inFront | inBack
  · rw [front c inFront] at other
    cases other
  · rcases List.mem_cons.mp inBack with same | inDomain
    · exact apart same
    · rw [isMailboxChar_of_isDomainChar (back c inDomain)] at other
      cases other

theorem mail_filled : address ≠ [] := by
  obtain ⟨mailbox, domain, rfl, _⟩ := mail_form mail
  simp

theorem mail_at : '@' ∈ address := by
  obtain ⟨mailbox, domain, rfl, _⟩ := mail_form mail
  simp

theorem mail_spaceless : ∀ c ∈ address, ¬ isSpace c := by
  intro c member space
  have apart : c ≠ '@' := by
    rintro rfl
    exact absurd space (by decide)
  exact mail_absent mail (not_isMailboxChar_of_isSpace space) apart member

/-! ### Places -/

theorem mail_not_inside {t : Text} (none : '@' ∉ t) : ¬ address <:+: t := fun inside =>
  none (inside.subset (mail_at mail))

/-- No place of the address goes on over an ampersand that no at sign follows. -/
theorem mail_prefix_ampersand {last rest w : Text} (none : '@' ∉ w)
    (eq : address ++ rest = last ++ '&' :: w) : address <+: last := by
  obtain ⟨mailbox, domain, form, _, back⟩ := mail_form mail
  rcases List.append_eq_append_iff.mp eq with ⟨between, rfl, _⟩ | ⟨between, here, tail⟩
  · exact List.prefix_append _ _
  · cases between with
    | nil =>
      rw [List.append_nil] at here
      exact here ▸ List.prefix_refl last
    | cons c between =>
      cases tail
      rw [form] at here
      rcases List.append_eq_append_iff.mp here with ⟨part, _, end'⟩ | ⟨part, _, end'⟩
      · have member : '&' ∈ '@' :: domain := by
          rw [end']
          simp
        have inDomain : '&' ∈ domain := by simpa using member
        exact absurd (back _ inDomain) (by decide)
      · have member : '@' ∈ '&' :: between := by
          rw [end']
          simp
        have late : '@' ∈ between := by simpa using member
        exact absurd (List.mem_append_left _ late) none

/-- A character reference separates the places of an address. -/
theorem tally_reference {w : Text} (none : '@' ∉ w) (a b : Text) :
    tally address (a ++ ('&' :: w ++ [';']) ++ b) = tally address a + tally address b := by
  have behind : tally address ('&' :: w) = 0 := by
    have absent : ¬ address <:+: '&' :: w := mail_not_inside mail (by simpa using none)
    rw [← tally_pos (mail_filled mail)] at absent
    omega
  have front : tally address (a ++ '&' :: w) = tally address a := by
    rw [tally_append_of_apart, behind, Nat.add_zero]
    exact fun _ _ _ _ _ eq => mail_prefix_ampersand mail none eq
  have cut := tally_cut (mail_filled mail) (mail_absent mail (c := ';') (by decide) (by decide))
    (a ++ '&' :: w) b
  rw [front] at cut
  simpa using cut

end Mail

/-! ### Escaping -/

/-- A character is kept or becomes a reference. -/
theorem escapeTextChar_cases (c : Char) :
    escapeTextChar c = [c] ∨
      ∃ w, escapeTextChar c = '&' :: w ++ [';'] ∧ '@' ∉ w ∧ '\\' ∉ w := by
  unfold escapeTextChar
  split
  · exact .inr ⟨"amp".toList, rfl, by decide, by decide⟩
  · split
    · exact .inr ⟨"lt".toList, rfl, by decide, by decide⟩
    · split
      · exact .inr ⟨"gt".toList, rfl, by decide, by decide⟩
      · exact .inl rfl

/-- If a text separates what stands around it, no single character in its place makes less. -/
theorem escaped_of_apart {μ : Text → Nat} (measure : InkMeasure μ) {t a b : Text}
    (apart : μ (a ++ t ++ b) = μ a + μ b) (c : Char) : μ (a ++ t ++ b) ≤ μ (a ++ c :: b) := by
  have front := measure.append_le a (c :: b)
  have back := measure.append_le [c] b
  rw [List.singleton_append] at back
  omega

section Measures

variable {address : Text} (mail : isMailAddress address)

include mail

theorem tally_escape : EscapeMeasure (tally address) where
  toInkMeasure := tally_inkMeasure (mail_filled mail) (mail_spaceless mail)
  escaped c a b := by
    rcases escapeTextChar_cases c with same | ⟨w, reference, none, _⟩
    · rw [same, List.append_assoc, List.singleton_append]
    · refine escaped_of_apart (tally_inkMeasure (mail_filled mail) (mail_spaceless mail)) ?_ c
      rw [reference]
      exact tally_reference mail none a b

theorem spelled_spelling : Spelling (spelled address) where
  toInkMeasure := spelled_inkMeasure (mail_filled mail) (mail_spaceless mail)
  backslash := spelled_backslash
  escaped c a b := by
    rcases escapeTextChar_cases c with same | ⟨w, reference, none, bare⟩
    · rw [same, List.append_assoc, List.singleton_append]
    · have written : withoutBackslashes ('&' :: w ++ [';']) = '&' :: w ++ [';'] :=
        withoutBackslashes_of_notMem (by simpa using bare)
      refine escaped_of_apart (spelled_inkMeasure (mail_filled mail) (mail_spaceless mail)) ?_ c
      rw [spelled, withoutBackslashes_append, withoutBackslashes_append, reference, written]
      exact tally_reference mail none _ _

end Measures

end CommentMarkup
