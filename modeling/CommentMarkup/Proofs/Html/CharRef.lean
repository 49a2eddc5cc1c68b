import CommentMarkup.Html.CharRef
import CommentMarkup.Proofs.Text.Ascii
import CommentMarkup.Proofs.Text.Foreign

/-!
# The grammar of character references

What a character reference looks like, apart from how it is recognised. `CharRef.length?` accepts
what has this form and nothing else, whatever stands behind it: `length_eq_some_iff`.
-/

namespace CommentMarkup.CharRef

def IsHex (c : Char) : Prop := c.isDigit ∨ 'a' ≤ c ∧ c ≤ 'f' ∨ 'A' ≤ c ∧ c ≤ 'F'

/-- A character reference as it is written, with ASCII letters and digits. -/
inductive IsReference : Text → Prop
  | named {c : Char} {more : Text} (letter : c.isAlpha) (letters : ∀ d ∈ more, d.isAlphanum)
      (short : more.length ≤ 31) : IsReference ('&' :: c :: (more ++ [';']))
  | decimal {digits : Text} (valid : ∀ d ∈ digits, d.isDigit) (filled : digits ≠ [])
      (short : digits.length ≤ 7) : IsReference ('&' :: '#' :: (digits ++ [';']))
  | hex {mark : Char} {digits : Text} (marked : mark = 'x' ∨ mark = 'X')
      (valid : ∀ d ∈ digits, IsHex d) (filled : digits ≠ []) (short : digits.length ≤ 6) :
      IsReference ('&' :: '#' :: mark :: (digits ++ [';']))

def StartsReference (t : Text) : Prop := ∃ ref, ref <+: t ∧ IsReference ref

theorem isAlphanum_of_isHex {c : Char} (hex : IsHex c) : c.isAlphanum := by
  rcases hex with digit | ⟨low, high⟩ | ⟨low, high⟩
  · simp [Char.isAlphanum, digit]
  · have last : c ≤ 'z' := Char.le_trans high (by decide)
    have small : c.isLower := Bool.and_eq_true_iff.mpr ⟨decide_eq_true low, decide_eq_true last⟩
    exact isAlphanum_of_isAlpha (Bool.or_eq_true_iff.mpr (.inr small))
  · have last : c ≤ 'Z' := Char.le_trans high (by decide)
    have capital : c.isUpper := decide_eq_true ⟨low, last⟩
    exact isAlphanum_of_isAlpha (Bool.or_eq_true_iff.mpr (.inl capital))

/-- Behind its ampersand a reference has letters and digits, and marks that are no ampersand. -/
theorem IsReference.body {ref : Text} (form : IsReference ref) :
    ∃ body, ref = '&' :: body ∧ ∀ d ∈ body, d.isAlphanum ∨ d = '#' ∨ d = ';' := by
  have closed {word : Text} (letters : ∀ d ∈ word, d.isAlphanum) :
      ∀ d ∈ word ++ [';'], d.isAlphanum ∨ d = '#' ∨ d = ';' := by
    intro d member
    rcases List.mem_append.mp member with inside | last
    · exact .inl (letters d inside)
    · exact .inr (.inr (List.mem_singleton.mp last))
  cases form with
  | @named c more letter letters _ =>
    have word : ∀ d ∈ c :: more, d.isAlphanum :=
      List.forall_mem_cons.mpr ⟨isAlphanum_of_isAlpha letter, letters⟩
    exact ⟨c :: (more ++ [';']), rfl, closed word⟩
  | @decimal digits valid _ _ =>
    have word : ∀ d ∈ digits, d.isAlphanum :=
      fun d member => by simp [Char.isAlphanum, valid d member]
    exact ⟨_, rfl, List.forall_mem_cons.mpr ⟨.inr (.inl rfl), closed word⟩⟩
  | @hex mark digits marked valid _ _ =>
    have letter : mark.isAlphanum := by rcases marked with rfl | rfl <;> decide
    have word : ∀ d ∈ mark :: digits, d.isAlphanum :=
      List.forall_mem_cons.mpr ⟨letter, fun d member => isAlphanum_of_isHex (valid d member)⟩
    exact ⟨_, rfl, List.forall_mem_cons.mpr ⟨.inr (.inl rfl), closed word⟩⟩

theorem IsReference.enclosed {ref : Text} (form : IsReference ref) :
    ∃ w, ref = '&' :: w ++ [';'] ∧ '@' ∉ w := by
  have closed : ∃ w, ref = '&' :: w ++ [';'] := by
    cases form with
    | @named c more => exact ⟨c :: more, rfl⟩
    | @decimal digits => exact ⟨'#' :: digits, rfl⟩
    | @hex mark digits => exact ⟨'#' :: mark :: digits, rfl⟩
  obtain ⟨body, eq, letters⟩ := form.body
  obtain ⟨w, rfl⟩ := closed
  cases eq
  refine ⟨w, rfl, fun member => ?_⟩
  exact absurd (letters '@' (List.mem_append_left _ member)) (by decide)

/-! ### Recognition -/

theorem isHexDigit_iff {c : Char} : isHexDigit c ↔ IsHex c := by
  unfold isHexDigit hexValue? IsHex
  split
  · simp [*]
  · split
    · simp [*]
    · split <;> simp [*]

/-- A body is a filled word within the limit and its semicolon, whatever stands behind it. -/
theorem bodyLength_eq_some_iff {lead limit n : Nat} {valid : Char → Bool} {body : Text}
    (stop : ¬ valid ';') :
    bodyLength? lead limit valid body = some n ↔
      ∃ word after, body = word ++ ';' :: after ∧ (∀ c ∈ word, valid c) ∧ word ≠ [] ∧
        word.length ≤ limit ∧ n = lead + word.length + 1 := by
  constructor
  · intro accepted
    unfold bodyLength? at accepted
    dsimp only at accepted
    split at accepted
    · cases accepted
    · rename_i fits
      simp only [not_or, Bool.not_eq_true', Bool.not_eq_false, Nat.not_lt] at fits
      obtain ⟨filled, short, ends⟩ := fits
      rw [drop_takeWhile_length] at ends
      have parts := List.takeWhile_append_dropWhile (p := valid) (l := body)
      cases behind : body.dropWhile valid with
      | nil =>
        rw [behind] at ends
        cases ends
      | cons c after =>
        rw [behind] at ends parts
        obtain rfl : c = ';' := beq_iff_eq.mp ends
        cases accepted
        exact ⟨body.takeWhile valid, after, parts.symm, fun _ => List.mem_takeWhile_imp,
          List.ne_nil_of_length_pos (Nat.pos_of_ne_zero filled), short, rfl⟩
  · rintro ⟨word, after, rfl, letters, filled, short, rfl⟩
    have taken : (word ++ ';' :: after).takeWhile valid = word :=
      takeWhile_append_stop letters (by simpa [Text.startsWith] using stop)
    have length : word.length ≠ 0 := by simpa using filled
    simp [bodyLength?, taken, Text.startsWith, length, short]

theorem IsReference.length_append {ref : Text} (form : IsReference ref) (after : Text) :
    length? (ref ++ after) = some ref.length := by
  have size (lead word : Text) :
      (lead ++ (word ++ [';'])).length = lead.length + word.length + 1 := by
    simp only [List.length_append, List.length_singleton, Nat.add_assoc]
  cases form with
  | @named c more letter letters short =>
    have other : c ≠ '#' := by
      rintro rfl
      exact absurd letter (by decide)
    have body : bodyLength? 1 32 Char.isAlphanum (c :: (more ++ ';' :: after)) =
        some (1 + (c :: more).length + 1) := by
      refine (bodyLength_eq_some_iff (by decide)).mpr
        ⟨c :: more, after, rfl, ?_, List.cons_ne_nil c more, Nat.succ_le_succ short, rfl⟩
      rw [List.forall_mem_cons]
      exact ⟨by simp [Char.isAlphanum, letter], letters⟩
    refine .trans ?_ (congrArg some (size ['&'] (c :: more)).symm)
    simpa [length?, other, Text.startsWith, letter] using body
  | @decimal digits valid filled short =>
    have body : bodyLength? 2 7 Char.isDigit (digits ++ ';' :: after) =
        some (2 + digits.length + 1) :=
      (bodyLength_eq_some_iff (by decide)).mpr ⟨digits, after, rfl, valid, filled, short, rfl⟩
    refine .trans ?_ (congrArg some (size ['&', '#'] digits).symm)
    obtain ⟨c, digits, rfl⟩ := List.exists_cons_of_ne_nil filled
    -- the first digit keeps a decimal reference from being a hexadecimal one
    have other {d : Char} (letter : ¬ d.isDigit) : c ≠ d := by
      rintro rfl
      exact letter (valid c List.mem_cons_self)
    simpa [length?, other (d := 'x') (by decide), other (d := 'X') (by decide)] using body
  | @hex mark digits marked valid filled short =>
    have body : bodyLength? 3 6 isHexDigit (digits ++ ';' :: after) =
        some (3 + digits.length + 1) :=
      (bodyLength_eq_some_iff (by decide)).mpr ⟨digits, after, rfl,
        fun d member => isHexDigit_iff.mpr (valid d member), filled, short, rfl⟩
    refine .trans ?_ (congrArg some (size ['&', '#', mark] digits).symm)
    rcases marked with rfl | rfl <;> simpa [length?] using body

/-- A text starts with a reference of `n` characters exactly if its first `n` characters have the
form of one. -/
theorem length_eq_some_iff {t : Text} {n : Nat} :
    length? t = some n ↔ ∃ ref, ref <+: t ∧ ref.length = n ∧ IsReference ref := by
  constructor
  · intro accepted
    have hex {mark : Char} {body : Text} (marked : mark = 'x' ∨ mark = 'X')
        (accepted : bodyLength? 3 6 isHexDigit body = some n) :
        ∃ ref, ref <+: '&' :: '#' :: mark :: body ∧ ref.length = n ∧ IsReference ref := by
      obtain ⟨word, after, rfl, digits, filled, short, rfl⟩ :=
        (bodyLength_eq_some_iff (by decide)).mp accepted
      exact ⟨'&' :: '#' :: mark :: (word ++ [';']), ⟨after, by simp⟩, by simp; omega,
        .hex marked (fun d member => isHexDigit_iff.mp (digits d member)) filled short⟩
    unfold length? at accepted
    split at accepted
    · exact hex (.inl rfl) accepted
    · exact hex (.inr rfl) accepted
    · obtain ⟨word, after, rfl, digits, filled, short, rfl⟩ :=
        (bodyLength_eq_some_iff (by decide)).mp accepted
      exact ⟨'&' :: '#' :: (word ++ [';']), ⟨after, by simp⟩, by simp; omega,
        .decimal digits filled short⟩
    · split at accepted
      · rename_i letter
        obtain ⟨word, after, rfl, letters, filled, short, rfl⟩ :=
          (bodyLength_eq_some_iff (by decide)).mp accepted
        obtain ⟨c, more, rfl⟩ := List.exists_cons_of_ne_nil filled
        exact ⟨'&' :: c :: (more ++ [';']), ⟨after, by simp⟩, by simp; omega,
          .named letter (fun d member => letters d (List.mem_cons_of_mem c member))
            (Nat.le_of_succ_le_succ short)⟩
      · cases accepted
    · cases accepted
  · rintro ⟨ref, ⟨after, rfl⟩, rfl, form⟩
    exact form.length_append after

theorem startsReference_iff {t : Text} : StartsReference t ↔ (length? t).isSome := by
  rw [Option.isSome_iff_exists]
  constructor
  · rintro ⟨ref, front, form⟩
    exact ⟨ref.length, length_eq_some_iff.mpr ⟨ref, front, rfl, form⟩⟩
  · rintro ⟨n, accepted⟩
    obtain ⟨ref, front, _, form⟩ := length_eq_some_iff.mp accepted
    exact ⟨ref, front, form⟩

instance : DecidablePred StartsReference := fun _ => decidable_of_iff _ startsReference_iff.symm

end CommentMarkup.CharRef
