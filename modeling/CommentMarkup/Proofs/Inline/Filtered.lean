import CommentMarkup.Proofs.Html.Quoted
import CommentMarkup.Proofs.Inline.Proper

/-!
# What is written as it stands

Among the spans of a text, those that go into the page unescaped are comments, allowed tags and
character references, each by its own characters alone: `readInline_filtered`.
-/

namespace CommentMarkup

open Html

/-- What of the span is written as it stands is one comment, one allowed tag or one character
reference. A bracket after the first one of a tag is quoted in it. -/
def Inline.IsFiltered : Inline → Prop
  | .rawHtml t =>
    scanTag t = some (.comment, t.length) ∨
      ∃ name, scanTag t = some (.tag name, t.length) ∧ isAllowedTag name ∧
        ∀ k, t[k]? = some '<' → k = 0 ∨ (openQuote (t.take k)).isSome
  | .charRef t => CharRef.length? t = some t.length ∧ '<' ∉ t
  | _ => True

theorem Inline.IsRead.filtered {span : Inline} (read : span.IsRead) : span.IsFiltered := by
  cases read with
  | image | footnoteRef => trivial
  | lexeme lexeme =>
    cases lexeme with
    | charRef form =>
      obtain ⟨ref, after, rfl, rfl, calm, again⟩ := charRef_split form
      have own := again []
      rw [List.append_nil] at own
      rw [List.take_left]
      exact ⟨own, fun low => absurd (calm _ low) (by decide)⟩
    | @rawHtml t markup n found allowed =>
      have own := scanTag_take_append found []
      rw [List.append_nil] at own
      have length : (t.take n).length = n := List.length_take_of_le (scanTag_le found)
      cases markup with
      | comment => exact .inl (by rw [own, length])
      | tag name =>
        refine .inr ⟨name, by rw [own, length], allowed, fun k here => ?_⟩
        obtain ⟨tag, after, rfl, rfl, rfl⟩ := scanTag_tag_iff.mp found
        rw [List.take_length_add_append] at here ⊢
        rcases Nat.lt_or_ge k tag.text.length with inside | behind
        · rw [List.getElem?_append_left inside] at here
          rw [List.take_append_of_le_length inside.le]
          exact tag.angle_quoted here (by decide)
        · -- behind the head only the closing bracket is left
          rw [List.getElem?_append_right behind] at here
          have last : '<' ∈ ['>'] := List.mem_of_getElem? here
          exact absurd last (by decide)
    | _ => trivial

/-- All that reading lets through unescaped is comments, allowed tags and character references. -/
theorem readInline_filtered (scope : Scope) (t : Text) (notes : Notes) :
    ∀ span ∈ spanFlow (readInline scope t notes).1, span.IsFiltered := by
  intro span member
  by_cases fixed : span.isFixed
  · exact (readInline_isRead scope t notes span (List.mem_filter.mpr ⟨member, fixed⟩)).filtered
  · cases span with
    | rawHtml | charRef => exact absurd rfl fixed
    | _ => trivial

theorem Inline.IsFiltered.charRef_enclosed {t : Text} (filtered : Inline.IsFiltered (.charRef t)) :
    ∃ w, t = '&' :: w ++ [';'] ∧ '@' ∉ w := by
  obtain ⟨ref, front, length, form⟩ := CharRef.length_eq_some_iff.mp filtered.1
  rw [front.eq_of_length length] at form
  exact form.enclosed

theorem Inline.IsFiltered.rawHtml_enclosed {t : Text} (filtered : Inline.IsFiltered (.rawHtml t)) :
    ∃ inner, t = '<' :: inner ++ ['>'] := by
  rcases filtered with comment | ⟨name, tag, _⟩
  · exact scanTag_enclosed comment
  · exact scanTag_enclosed tag

/-- A tag with brackets in a quoted value, a reference and a comment, inside a link. -/
theorem readInline_filtered_nested :
    let scope : Scope := ⟨.classic, .empty, []⟩
    let t := "[*<b title='<i>'>*&amp;<!-- <x> -->](/x)".toList
    let tag := Inline.rawHtml "<b title='<i>'>".toList
    let charRef := Inline.charRef "&amp;".toList
    let comment := Inline.rawHtml "<!-- <x> -->".toList
    (readInline scope t (.start [])).1 =
        [.link ⟨"/x".toList, none⟩ [.emphasis [tag], charRef, comment]] ∧
      tag.IsFiltered ∧ charRef.IsFiltered ∧ comment.IsFiltered := by
  have read : (readInline ⟨.classic, .empty, []⟩
      "[*<b title='<i>'>*&amp;<!-- <x> -->](/x)".toList (.start [])).1 =
        [.link ⟨"/x".toList, none⟩ [.emphasis [.rawHtml "<b title='<i>'>".toList],
          .charRef "&amp;".toList, .rawHtml "<!-- <x> -->".toList]] := by cbv
  have filtered := readInline_filtered ⟨.classic, .empty, []⟩
    "[*<b title='<i>'>*&amp;<!-- <x> -->](/x)".toList (.start [])
  rw [read] at filtered
  refine ⟨read, filtered _ ?_, filtered _ ?_, filtered _ ?_⟩
  all_goals simp [spanFlow, Inline.flow]

end CommentMarkup
