import CommentMarkup.Text.Lines

/-!
# Ink

The ink of a text is its characters other than white space. Trimming, taking indentation away,
joining lines and cutting them apart again change white space only, so they keep the amount of ink.
Reading of nested blocks ends because each of them has less ink than the block around it.
-/

namespace CommentMarkup

def totalInk (ls : List Text) : Nat := sumOver Text.inkCount ls

@[simp] theorem totalInk_nil : totalInk [] = 0 := rfl

@[simp] theorem totalInk_cons (l : Text) (ls : List Text) :
    totalInk (l :: ls) = l.inkCount + totalInk ls := rfl

theorem totalInk_append (a b : List Text) : totalInk (a ++ b) = totalInk a + totalInk b :=
  sumOver_append Text.inkCount a b

theorem totalInk_drop_le (n : Nat) (ls : List Text) : totalInk (ls.drop n) ≤ totalInk ls := by
  have := totalInk_append (ls.take n) (ls.drop n)
  rw [List.take_append_drop] at this
  omega

namespace Text

@[simp] theorem inkCount_nil : inkCount [] = 0 := rfl

theorem inkCount_cons (c : Char) (t : Text) :
    inkCount (c :: t) = inkCount t + if isSpace c then 0 else 1 := by
  by_cases h : isSpace c <;> simp [inkCount, h]

theorem isBlank_iff_inkCount {t : Text} : t.isBlank ↔ t.inkCount = 0 := by
  simp [isBlank, inkCount, List.countP_eq_zero]

theorem inkCount_append (s t : Text) : inkCount (s ++ t) = inkCount s + inkCount t := by
  simp [inkCount]

theorem inkCount_reverse (t : Text) : inkCount t.reverse = inkCount t := by
  simp [inkCount]

theorem inkCount_drop_le (n : Nat) (t : Text) : inkCount (t.drop n) ≤ inkCount t := by
  have := inkCount_append (t.take n) (t.drop n)
  rw [List.take_append_drop] at this
  omega

theorem inkCount_of_dropLead? {lead t rest : Text} (h : dropLead? lead t = some rest) :
    inkCount rest ≤ inkCount t := by
  unfold dropLead? at h
  split at h
  · cases h
    exact inkCount_drop_le _ _
  · cases h

theorem inkCount_dropWhile {p : Char → Bool} (h : ∀ c, p c → isSpace c) (t : Text) :
    inkCount (t.dropWhile p) = inkCount t := by
  induction t with
  | nil => rfl
  | cons c t ih =>
    rw [List.dropWhile_cons]
    split
    · next hc => rw [ih, inkCount_cons, if_pos (h c hc), Nat.add_zero]
    · rfl

@[simp] theorem inkCount_trimStart (t : Text) : inkCount t.trimStart = inkCount t :=
  inkCount_dropWhile (fun _ h => h) t

@[simp] theorem inkCount_trimEnd (t : Text) : inkCount t.trimEnd = inkCount t := by
  rw [trimEnd, dropEndWhile, inkCount_reverse, inkCount_dropWhile fun _ h => h, inkCount_reverse]

@[simp] theorem inkCount_trim (t : Text) : inkCount t.trim = inkCount t := by
  rw [trim, inkCount_trimEnd, inkCount_trimStart]

end Text

/-! ### Lines and indentation -/

theorem totalInk_lines (t : Text) : totalInk (lines t) = t.inkCount := by
  fun_induction lines t with
  | case1 => rfl
  | case2 cs ih => simpa [Text.inkCount_cons, show isSpace '\n' = true by decide] using ih
  | case3 cs ih =>
    simpa [Text.inkCount_cons, show isSpace '\n' = true by decide,
      show isSpace '\r' = true by decide] using ih
  | case4 c cs h1 h2 hnil ih =>
    rw [hnil] at ih
    simp [Text.inkCount_cons, ← ih]
  | case5 c cs h1 h2 l ls hcons ih =>
    rw [hcons] at ih
    simp only [totalInk_cons, Text.inkCount_cons] at ih ⊢
    omega

@[simp] theorem inkCount_unlines (ls : List Text) : Text.inkCount (unlines ls) = totalInk ls := by
  induction ls with
  | nil => rfl
  | cons l ls ih =>
    cases ls with
    | nil => simp [unlines]
    | cons l' ls =>
      have : unlines (l :: l' :: ls) = l ++ '\n' :: unlines (l' :: ls) := by
        simp [unlines, List.intercalate_cons_cons]
      rw [this, Text.inkCount_append, Text.inkCount_cons, ih, if_pos (by decide)]
      simp

theorem inkCount_removeIndentFrom (limit col : Nat) (t : Text) :
    Text.inkCount (removeIndentFrom limit col t) = t.inkCount := by
  have spaces (n : Nat) (s : Text) : Text.inkCount (List.replicate n ' ' ++ s) = s.inkCount := by
    induction n with
    | zero => simp
    | succ n ih =>
      simpa [List.replicate_succ, Text.inkCount_cons, show isSpace ' ' = true by decide] using ih
  fun_induction removeIndentFrom limit col t with
  | case1 col cs h ih => simpa [Text.inkCount_cons, show isSpace ' ' = true by decide] using ih
  | case2 => rfl
  | case3 col cs h ih =>
    rw [spaces, ih]
    simp [Text.inkCount_cons, show isSpace '\t' = true by decide]
  | case4 => rfl
  | case5 => rfl

@[simp] theorem inkCount_removeIndent (columns : Nat) (l : Text) :
    Text.inkCount (removeIndent columns l) = l.inkCount :=
  inkCount_removeIndentFrom columns 0 l

end CommentMarkup
