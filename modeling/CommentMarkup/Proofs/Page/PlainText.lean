import CommentMarkup.Page.Inline
import CommentMarkup.Proofs.Html.Visible
import CommentMarkup.Proofs.Tree.Flow
import CommentMarkup.Tree.PlainText

/-!
# Plain text of pages

The markup of spans shows their plain text: with the tags taken away and the references decoded it
reads as `plainText` says, whatever texts, targets and titles the spans hold.
-/

namespace CommentMarkup

open Html

/-- A span that is shown by its own text or by that of the spans in it. -/
def Inline.isTextual : Inline → Bool
  | .text _ | .emphasis _ | .strong _ | .strikethrough _ | .code _ | .link .. | .abbreviation ..
  | .autolink .. => true
  | .charRef _ | .lineBreak | .rawHtml _ | .image .. | .footnoteRef .. => false

namespace Page

theorem shows_text (t : Text) : Shows (writeNodes [.text t]) t := by
  rw [writeNodes_singleton]
  exact shows_escapeText t

theorem shows_obfuscated (t : Text) : Shows (writeNodes [.obfuscated t]) t := by
  rw [writeNodes_singleton]
  exact shows_obfuscate t

theorem shows_single {children : List Node} {text : Text} (tag : Tag)
    (attributes : List Attribute) (inner : Shows (writeNodes children) text) :
    Shows (writeNodes [.element tag attributes children]) text := by
  rw [writeNodes_singleton]
  exact shows_element tag attributes inner

mutual

theorem spanNodes_shows {span : Inline} (textual : span.flow.all Inline.isTextual) :
    Shows (writeNodes (spanNodes span)) span.plainText := by
  cases span with
  | text t => exact shows_text t
  | code t => exact shows_single _ _ (shows_text t)
  | abbreviation term expansion => exact shows_single _ _ (shows_text term)
  | autolink target email =>
    cases email with
    | false => exact shows_single _ _ (shows_text target)
    | true => exact shows_single _ _ (shows_obfuscated target)
  | emphasis children | strong children | strikethrough children | link target children =>
    rw [Inline.flow, List.all_cons, Bool.and_eq_true] at textual
    exact shows_single _ _ (inlineNodes_shows textual.2)
  | charRef | lineBreak | rawHtml | image | footnoteRef => cases textual

theorem inlineNodes_shows {spans : List Inline} (textual : (spanFlow spans).all Inline.isTextual) :
    Shows (writeNodes (inlineNodes spans)) (plainText spans) := by
  cases spans with
  | nil => exact .nil
  | cons span spans =>
    rw [spanFlow, List.all_append, Bool.and_eq_true] at textual
    rw [inlineNodes, writeNodes_append, plainText]
    exact (spanNodes_shows textual.1).append (inlineNodes_shows textual.2)

end

/-- Without their tags and with references decoded, spans read as their plain text. -/
theorem shownText_spans {spans : List Inline} (textual : (spanFlow spans).all Inline.isTextual) :
    shownText (writeNodes (inlineNodes spans)) = plainText spans :=
  (inlineNodes_shows textual).shownText

def deceptiveSpans : List Inline :=
  [.text "<b>&amp;lt;".toList,
    .link ⟨"\"><".toList, some "</a>\">&#60;".toList⟩
      [.strong [.code "</code>&#x3c;".toList], .strikethrough []],
    .abbreviation "<&quot;".toList "\">".toList, .autolink "/?a=1&b=<".toList false,
    .autolink "é&<@\"".toList true]

theorem shownText_spans_deceptive :
    (spanFlow deceptiveSpans).all Inline.isTextual ∧
    shownText (writeNodes (inlineNodes deceptiveSpans)) =
      "<b>&amp;lt;</code>&#x3c;<&quot;/?a=1&b=<é&<@\"".toList := by
  have textual : (spanFlow deceptiveSpans).all Inline.isTextual := rfl
  have text : plainText deceptiveSpans =
      "<b>&amp;lt;</code>&#x3c;<&quot;/?a=1&b=<é&<@\"".toList := rfl
  exact ⟨textual, (shownText_spans textual).trans text⟩

end Page
end CommentMarkup
