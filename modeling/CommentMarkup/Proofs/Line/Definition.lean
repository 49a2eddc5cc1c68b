import CommentMarkup.Line.Definition
import CommentMarkup.Proofs.Text.Cut
import CommentMarkup.Proofs.Text.Find
import CommentMarkup.Proofs.Text.Foreign

/-!
# What definitions keep

The label, the target and the title of a definition hold all the foreign characters of its lines, in
their order.
-/

namespace CommentMarkup

open Text

theorem foreign_find {phrase t : Text} {n : Nat} (plain : Plain phrase)
    (h : Text.find? phrase t = some n) :
    foreign (t.take n) ++ foreign (t.drop (n + phrase.length)) = t.foreign := by
  have split := congrArg foreign (find_split h)
  rwa [foreign_append, foreign_append, plain.foreign, List.append_nil] at split

theorem foreign_ofBody {kind : LabelKind} {body : Text} {d : DefinitionLine}
    (h : DefinitionLine.ofBody? kind body = some d) :
    d.label.foreign ++ d.rest.foreign = body.foreign := by
  unfold DefinitionLine.ofBody? at h
  split at h
  · cases h
  · rename_i n found
    dsimp only at h
    split at h
    · cases h
    · cases h
      rw [(strips_trim _).foreign]
      exact foreign_find (plain_iff_all.mpr (by decide)) found

/-- A definition line holds its label and the text after the colon. -/
theorem foreign_definitionLine {line : Text} {d : DefinitionLine}
    (h : definitionLine? line = some d) : d.label.foreign ++ d.rest.foreign = line.foreign := by
  rw [← (strips_trimStart line).foreign]
  unfold definitionLine? at h
  split at h
  · rename_i body eq
    rw [foreign_ofBody h, eq, foreign_cons_plain (by decide), foreign_cons_plain (by decide)]
  · rename_i body eq
    rw [foreign_ofBody h, eq, foreign_cons_plain (by decide), foreign_cons_plain (by decide)]
  · rename_i body _ eq
    rw [foreign_ofBody h, eq, foreign_cons_plain (by decide)]
  · cases h

theorem rest_suffix {line : Text} {d : DefinitionLine} (h : definitionLine? line = some d) :
    d.rest <:+ line := by
  have ofBody {kind : LabelKind} (front : Text) {body : Text} (eq : line.trimStart = front ++ body)
      (h : DefinitionLine.ofBody? kind body = some d) : d.rest <:+ line := by
    have outer : body <:+ line :=
      (List.suffix_append front body).trans (eq ▸ List.dropWhile_suffix isSpace)
    unfold DefinitionLine.ofBody? at h
    split at h
    · cases h
    · dsimp only at h
      split at h
      · cases h
      · cases h
        exact (List.drop_suffix _ body).trans outer
  unfold definitionLine? at h
  split at h
  · rename_i body eq
    exact ofBody ['*', '['] eq h
  · rename_i body eq
    exact ofBody ['[', '^'] eq h
  · rename_i body _ eq
    exact ofBody ['['] eq h
  · cases h

/-! ### Links -/

theorem foreign_title {t title : Text} (h : title? t = some title) :
    title.foreign = t.foreign := by
  cases t with
  | nil => cases h
  | cons mark rest =>
    obtain ⟨⟨opens, closed⟩, eq⟩ := Option.ite_none_right_eq_some.mp h
    cases eq
    obtain ⟨inner, close, rfl, same⟩ := endsWith_iff.mp closed
    have plain : ¬ isForeign mark ∧ ¬ isForeign close := by
      rw [beq_iff_eq] at same
      rw [same]
      rcases opens with rfl | rfl | rfl <;> decide
    rw [List.dropLast_concat, foreign_cons_plain plain.1, foreign_append,
      foreign_cons_plain plain.2, foreign_nil, List.append_nil]

theorem foreign_splitTarget {rest url after : Text} (h : splitTarget? rest = some (url, after)) :
    url.foreign ++ after.foreign = rest.foreign := by
  rw [← (strips_trim rest).foreign]
  unfold splitTarget? at h
  split at h
  · rename_i inner eq
    split at h
    · cases h
    · cases h
    · rename_i n _ found
      cases h
      rw [(strips_trim _).foreign, eq, foreign_cons_plain (by decide)]
      exact foreign_find (plain_iff_all.mpr (by decide)) found
  · dsimp only at h
    split at h
    · cases h
    · cases h
      rw [(strips_trim _).foreign, ← foreign_append, drop_takeWhile_length,
        List.takeWhile_append_dropWhile]

/-- The target of a link and its title hold the text after the colon, and the next line if the title
stands there. -/
theorem foreign_linkTarget {line rest : Text} {ls : List Text} {target : Target} {more : Nat}
    (h : linkTarget? line rest ls.head? = some (target, more)) :
    target.url.foreign ++ foreign (target.title.getD []) =
      rest.foreign ++ (ls.take more).flatMap foreign := by
  unfold linkTarget? at h
  obtain ⟨⟨url, after⟩, split, h⟩ := Option.bind_eq_some_iff.mp h
  rw [← foreign_splitTarget split]
  dsimp only at h
  split at h
  · rename_i bare
    rw [List.isEmpty_iff.mp bare]
    split at h
    · rename_i title found
      cases h
      obtain ⟨l, next, quoted⟩ := Option.bind_eq_some_iff.mp found
      obtain ⟨first, _⟩ := Option.filter_eq_some_iff.mp next
      obtain ⟨others, rfl⟩ := List.head?_eq_some_iff.mp first
      simp [foreign_title quoted, (strips_trim l).foreign]
    · cases h
      simp
  · obtain ⟨title, quoted, h⟩ := Option.map_eq_some_iff.mp h
    cases h
    simp [foreign_title quoted]

end CommentMarkup
