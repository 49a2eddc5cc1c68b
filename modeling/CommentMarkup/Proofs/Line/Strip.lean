import CommentMarkup.Block.Leaf
import CommentMarkup.Proofs.Text.Ascii
import CommentMarkup.Proofs.Text.Foreign

/-!
# What rules take off a line

The markup of a line is plain text around its content. Each recogniser of a line leaves a part of
the line, and what it takes away are plain characters.
-/

namespace CommentMarkup

open Text

theorem not_foreign_of_eq {c d : Char} (h : (c == d) = true) (plain : ¬ isForeign d) :
    ¬ isForeign c := by
  rwa [beq_iff_eq.mp h]

theorem not_foreign_of_isDigit {c : Char} (h : c.isDigit) : ¬ isForeign c := by
  apply not_foreign_of_ascii
  have bounds := toNat_of_isAlphanum (c := c) (by simp [Char.isAlphanum, h])
  omega

/-! ### Headings -/

theorem strips_headingText (rest : Text) : Strips rest (headingText rest) := by
  have trimmed := strips_trim rest
  have unclosed : Strips rest.trim (rest.trim.dropEndWhile (· == '#')) :=
    strips_dropEndWhile (fun _ h => not_foreign_of_eq h (by decide)) _
  unfold headingText
  dsimp only
  split
  · rename_i empty
    rw [List.isEmpty_iff] at empty
    rw [empty] at unclosed
    exact trimmed.trans unclosed
  · split
    · exact (trimmed.trans unclosed).trans (strips_trimEnd _)
    · exact trimmed

theorem strips_heading {line text : Text} {level : Nat} (h : heading? line = some (level, text)) :
    Strips line text := by
  unfold heading? at h
  dsimp only at h
  split at h
  · cases h
  · cases h
    have signs : Strips line.trimStart
        (line.trimStart.drop (line.trimStart.takeWhile (· == '#')).length) := by
      rw [drop_takeWhile_length]
      exact strips_dropWhile (fun _ h => not_foreign_of_eq h (by decide)) _
    exact ((strips_trimStart line).trans signs).trans (strips_headingText _)

theorem foreign_underline {line : Text} {level : Nat} (h : underline? line = some level) :
    line.foreign = [] := by
  rw [← (strips_trim line).foreign]
  unfold underline? at h
  dsimp only at h
  split at h
  · rename_i equals
    simp only [Bool.and_eq_true] at equals
    exact (plain_of_all (fun _ h => not_foreign_of_eq h (by decide)) equals.2).foreign
  · split at h
    · rename_i hyphens
      simp only [Bool.and_eq_true] at hyphens
      exact (plain_of_all (fun _ h => not_foreign_of_eq h (by decide)) hyphens.2).foreign
    · cases h

/-! ### Other lines of markup -/

theorem foreign_isRule {line : Text} (h : isRule line) : line.foreign = [] := by
  unfold isRule at h
  simp only [Bool.and_eq_true, Bool.or_eq_true] at h
  have ink : Plain (line.filter fun c => !isSpace c) := by
    rcases h.2 with (hyphens | lows) | stars
    · exact plain_of_all (fun _ h => not_foreign_of_eq h (by decide)) hyphens
    · exact plain_of_all (fun _ h => not_foreign_of_eq h (by decide)) lows
    · exact plain_of_all (fun _ h => not_foreign_of_eq h (by decide)) stars
  apply Plain.foreign
  intro c member
  by_cases space : isSpace c
  · exact not_foreign_of_space space
  · exact ink c (List.mem_filter.mpr ⟨member, by simpa using space⟩)

theorem foreign_isOutlineLine {line : Text} (h : isOutlineLine line) : line.foreign = [] := by
  have small {t word : Text} (same : (t.toLower == word) = true)
      (ascii : word.all fun c => decide (c.toNat < 128)) : Plain t := by
    intro c member
    apply not_foreign_of_ascii
    apply toNat_toLower_lt
    apply of_decide_eq_true
    apply List.all_eq_true.mp ascii
    rw [← beq_iff_eq.mp same]
    exact List.mem_map_of_mem member
  rw [← (strips_trim line).foreign]
  unfold isOutlineLine at h
  simp only [Bool.or_eq_true] at h
  rcases h with plain | image
  · exact (small plain (by decide)).foreign
  · exact (small image (by decide)).foreign

theorem strips_dropQuoteMark (line : Text) : Strips line (dropQuoteMark line) := by
  have first {p : Char → Bool} (sound : ∀ c, p c → ¬ isForeign c) {t : Text}
      (h : t.startsWith p) : Strips t (t.drop 1) := by
    cases t with
    | nil => exact Strips.refl _
    | cons c t => exact strips_cons (sound c h) t
  have mark : Strips line (if isQuoteLine line then line.trimStart.drop 1 else line) := by
    split
    · rename_i quoted
      exact (strips_trimStart line).trans
        (first (fun _ h => not_foreign_of_eq h (by decide)) quoted)
    · exact Strips.refl _
  unfold dropQuoteMark
  dsimp only
  generalize (if isQuoteLine line then line.trimStart.drop 1 else line) = rest at mark ⊢
  split
  · rename_i space
    exact mark.trans (first (fun _ h => not_foreign_of_eq h (by decide)) space)
  · exact mark

theorem strips_dropCodeIndent (line : Text) : Strips line (dropCodeIndent line) := by
  unfold dropCodeIndent
  split
  · rename_i tabbed
    cases line with
    | nil => exact Strips.refl _
    | cons c line => exact strips_cons (not_foreign_of_eq tabbed (by decide)) line
  · cases h : dropLead? codeIndent line with
    | none => exact Strips.refl _
    | some rest => exact strips_of_dropLead (plain_iff_all.mpr (by decide)) h

/-! ### List markers -/

theorem strips_before {indent number width : Nat} {ordered : Bool} {rest : Text} {m : ListMarker}
    (h : ListMarker.before? indent ordered number width rest = some m) : Strips rest m.content := by
  unfold ListMarker.before? at h
  split at h
  · cases h
    exact strips_trimStart rest
  · cases h

theorem strips_listMarker {line : Text} {m : ListMarker} (h : listMarker? line = some m) :
    Strips line m.content := by
  refine (strips_trimStart line).trans ?_
  unfold listMarker? at h
  dsimp only at h
  split at h
  · cases h
  · rename_i c rest heq
    rw [heq]
    split at h
    · rename_i bullet
      refine (strips_cons ?_ rest).trans (strips_before h)
      rcases bullet with rfl | rfl | rfl <;> decide
    · split at h
      · rename_i rest' hdrop
        split at h
        · cases h
        · have digits : Strips (c :: rest)
              ((c :: rest).drop ((c :: rest).takeWhile Char.isDigit).length) := by
            rw [drop_takeWhile_length]
            exact strips_dropWhile (fun _ => not_foreign_of_isDigit) _
          rw [hdrop] at digits
          exact (digits.trans (strips_cons (by decide) rest')).trans (strips_before h)
      · cases h

theorem strips_splitTask (content : Text) : Strips content (splitTask content).2 := by
  unfold splitTask
  split
  · rename_i checked rest h
    obtain ⟨⟨box, b⟩, known, found⟩ := List.exists_of_findSome?_eq_some h
    obtain ⟨t, ht, hpair⟩ := Option.map_eq_some_iff.mp found
    cases hpair
    obtain ⟨s, hs, hst⟩ := Option.bind_eq_some_iff.mp ht
    have plain : Plain box := by
      have all : taskBoxes.all fun pair => pair.1.all fun c => !isForeign c := by decide
      exact plain_iff_all.mpr (List.all_eq_true.mp all _ known)
    split at hst
    · cases hst
      exact (strips_of_dropLead plain hs).trans (strips_trimStart s)
    · cases hst
  · exact Strips.refl _

end CommentMarkup
