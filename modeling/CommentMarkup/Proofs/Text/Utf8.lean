import CommentMarkup.Proofs.Text.Octet

/-!
# UTF-8

The octets of a text. Those of a character beyond ASCII are 128 or more, so that an octet below 128
stands exactly where its character does: `utf8_getElem_iff`.
-/

namespace CommentMarkup.Text

def utf8 (t : Text) : List UInt8 := t.flatMap String.utf8EncodeChar

theorem utf8_cons (c : Char) (t : Text) : utf8 (c :: t) = String.utf8EncodeChar c ++ utf8 t := rfl

theorem utf8_append (a b : Text) : utf8 (a ++ b) = utf8 a ++ utf8 b := List.flatMap_append

theorem length_utf8 (t : Text) : (utf8 t).length = octets t := by
  induction t with
  | nil => rfl
  | cons c t ih => rw [utf8_cons, List.length_append, String.length_utf8EncodeChar, ih, octets_cons]

theorem utf8Size_eq_one_iff {c : Char} : c.utf8Size = 1 ↔ c.toNat < 128 := by
  rw [Char.utf8Size_eq_one_iff, UInt32.le_iff_toNat_le]
  exact Nat.lt_succ_iff.symm

theorem octets_ascii {c : Char} (ascii : c.toNat < 128) : octets [c] = 1 :=
  utf8Size_eq_one_iff.mpr ascii

theorem utf8_ascii {c : Char} (ascii : c.toNat < 128) (t : Text) :
    utf8 (c :: t) = c.toUInt8 :: utf8 t := by
  rw [utf8_cons, String.utf8EncodeChar_eq_singleton (utf8Size_eq_one_iff.mpr ascii)]
  rfl

theorem toNat_toUInt8 {c : Char} (ascii : c.toNat < 128) : c.toUInt8.toNat = c.toNat :=
  Nat.mod_eq_of_lt (Nat.lt_trans ascii (by decide))

theorem toUInt8_inj {c d : Char} (left : c.toNat < 128) (right : d.toNat < 128) :
    c.toUInt8 = d.toUInt8 ↔ c = d := by
  rw [← UInt8.toNat_inj, toNat_toUInt8 left, toNat_toUInt8 right, Char.toNat_inj]

theorem le_octet_of_beyond {c : Char} (beyond : ¬ c.toNat < 128) :
    ∀ b ∈ String.utf8EncodeChar c, 128 ≤ b.toNat := by
  have part {n : Nat} (range : 128 ≤ n ∧ n < 256) : 128 ≤ (UInt8.ofNat n).toNat := by
    rw [UInt8.toNat_ofNat', Nat.mod_eq_of_lt range.2]
    exact range.1
  have large : ¬ c.val.toNat ≤ 127 := fun small => beyond (Nat.lt_succ_of_le small)
  rw [String.utf8EncodeChar, if_neg large]
  split
  · simp only [List.forall_mem_cons]
    exact ⟨part (by omega), part (by omega), nofun⟩
  · split <;> simp only [List.forall_mem_cons]
    · exact ⟨part (by omega), part (by omega), part (by omega), nofun⟩
    · exact ⟨part (by omega), part (by omega), part (by omega), part (by omega), nofun⟩

theorem utf8_getElem_iff {d : Char} (ascii : d.toNat < 128) {t : Text} {k : Nat} :
    (utf8 t)[k]? = some d.toUInt8 ↔ ∃ front rest, t = front ++ d :: rest ∧ octets front = k := by
  constructor
  · intro here
    induction t generalizing k with
    | nil => cases here
    | cons c t ih =>
      rw [utf8_cons] at here
      rcases Nat.lt_or_ge k (String.utf8EncodeChar c).length with first | later
      · rw [List.getElem?_append_left first] at here
        by_cases plain : c.toNat < 128
        · rw [String.utf8EncodeChar_eq_singleton (utf8Size_eq_one_iff.mpr plain)] at first here
          obtain rfl : k = 0 := Nat.lt_one_iff.mp first
          cases (toUInt8_inj plain ascii).mp (Option.some_inj.mp here)
          exact ⟨[], t, rfl, rfl⟩
        · have large := le_octet_of_beyond plain _ (List.mem_of_getElem? here)
          rw [toNat_toUInt8 ascii] at large
          omega
      · rw [List.getElem?_append_right later] at here
        obtain ⟨front, rest, rfl, size⟩ := ih here
        rw [String.length_utf8EncodeChar] at later size
        exact ⟨c :: front, rest, rfl, by rw [octets_cons]; omega⟩
  · rintro ⟨front, rest, rfl, rfl⟩
    rw [utf8_append, utf8_ascii ascii, ← length_utf8, List.getElem?_append_right (Nat.le_refl _),
      Nat.sub_self, List.getElem?_cons_zero]

end CommentMarkup.Text
