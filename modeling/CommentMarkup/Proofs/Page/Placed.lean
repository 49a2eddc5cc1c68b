import CommentMarkup.Page
import CommentMarkup.Proofs.Html.Placed
import CommentMarkup.Proofs.Inline.Filtered
import CommentMarkup.Proofs.Inline.Parted

/-!
# Mail addresses among spans

A mail address stands in the markup of spans that were read if and only if it stands in a string of
one of them, such as a text, a target or the alternative text of an image: `inlineNodes_inside`.
-/

namespace CommentMarkup

open Html

def Target.shows (target : Target) : List Text :=
  escapeAttribute target.url :: (target.title.map escapeAttribute).toList

/-- The strings of a span as they are written. Those of the spans inside it are not among them, nor
is a mail address. -/
def Inline.shows : Inline → List Text
  | .text t | .code t => [escapeText t]
  | .rawHtml t => [t]
  | .link target _ => target.shows
  | .image target alt => escapeAttribute alt :: target.shows
  | .abbreviation term expansion => [escapeAttribute expansion, escapeText term]
  | .autolink target false => [escapeAttribute target, escapeText target]
  | _ => []

def Inline.Shows (address : Text) (span : Inline) : Prop := ∃ t ∈ span.shows, address <:+: t

namespace Page

section Mail

variable {address : Text} (mail : isMailAddress address)

include mail

theorem lineFeed_parts : Parts address lineFeed.write False :=
  mail_cut mail (c := '\n') (by decide) (by decide)

/-! ### Attributes -/

theorem text_inside {t : Text} (inside : address <:+: writeNodes [.text t]) : address <:+: t := by
  rw [writeNodes_singleton, Node.write] at inside
  exact inside_of_escapeText mail inside

theorem setting_inside {name : String} (plain : '@' ∉ name.toList) {t : Text}
    (inside : address <:+: writeAttribute name (.text t)) : address <:+: t := by
  rw [writeAttribute_inside mail plain] at inside
  exact inside_of_escapeAttribute mail inside

theorem setting_plain {name : String} (plain : '@' ∉ name.toList) {t : Text} (bare : '@' ∉ t) :
    ¬ address <:+: writeAttribute name (.text t) := fun inside =>
  mail_not_inside mail bare (setting_inside mail plain inside)

/-- A footnote reference shows a number and holds nothing else that is not constant. -/
theorem footnoteRef_parts (label : Text) (number : Nat) (first : Bool) :
    Parts address (writeNodes (spanNodes (.footnoteRef label number first))) False := by
  have digits : '@' ∉ Text.ofNat number := at_notMem_of_alphanum (ofNat_alphanum number)
  have numbered {front : Text} (plain : '@' ∉ front) : '@' ∉ front ++ Text.ofNat number := by
    rw [List.mem_append, not_or]
    exact ⟨plain, digits⟩
  have anchors : ∀ a ∈ (if first then [Attribute.id (backAnchor number)] else []),
      ¬ address <:+: a.write := by
    intro a listed
    split at listed
    · rw [List.mem_singleton.mp listed]
      exact setting_plain mail (by decide) (numbered (by decide))
    · cases listed
  have settings : ∀ a ∈ [Attribute.href (fragment (footnoteAnchor number)),
      .className "footnote-ref".toList], ¬ address <:+: a.write := by
    rw [List.forall_mem_cons, List.forall_mem_singleton]
    have fragment : '@' ∉ '#' :: footnoteAnchor number :=
      List.not_mem_cons_of_ne_of_not_mem (by decide) (numbered (by decide))
    exact ⟨setting_plain mail (by decide) fragment,
      setting_plain mail (by decide) (by decide)⟩
  have shown : ¬ address <:+: writeNodes [.text (Text.ofNat number)] := fun inside =>
    mail_not_inside mail digits (text_inside mail inside)
  have link := (element_parts mail .a [.href (fragment (footnoteAnchor number)),
    .className "footnote-ref".toList] [.text (Text.ofNat number)]).closes.inside_iff (mail_filled mail)
  rw [spanNodes, writeNodes_singleton]
  refine (element_parts mail _ _ _).congr (iff_false_intro ?_)
  rw [writeNodes_singleton, link]
  rintro (⟨a, listed, inside⟩ | ⟨a, listed, inside⟩ | inside)
  · exact anchors a listed inside
  · exact settings a listed inside
  · exact shown inside

theorem target_attributes (first : Attribute) (target : Target)
    (url : address <:+: first.write ↔ address <:+: escapeAttribute target.url) :
    (∃ a ∈ first :: titleAttribute target.title, address <:+: a.write) ↔
      ∃ t ∈ target.shows, address <:+: t := by
  obtain ⟨_, _ | title⟩ := target
  · simpa [titleAttribute, Target.shows] using url
  · have title' : address <:+: (Attribute.title title).write ↔ address <:+: escapeAttribute title :=
      writeAttribute_inside mail (by decide) (.text title)
    simpa [titleAttribute, Target.shows, title'] using or_congr_left url

/-! ### Spans -/

theorem charRef_parts {t : Text} (filtered : Inline.IsFiltered (.charRef t)) :
    Parts address t False := by
  obtain ⟨w, rfl, none⟩ := filtered.charRef_enclosed
  exact mail_reference mail none

theorem rawHtml_parts {t : Text} (filtered : Inline.IsFiltered (.rawHtml t)) :
    Parts address t (address <:+: t) := by
  obtain ⟨inner, rfl⟩ := filtered.rawHtml_enclosed
  have low := mail_cut mail (c := '<') (by decide) (by decide)
  have high := mail_cut mail (c := '>') (by decide) (by decide)
  have whole := low.around high inner
  exact whole.congr (whole.closes.inside_iff (mail_filled mail)).symm

theorem inside_of_behind {t : Text} {P : Prop}
    (behind : address <:+: [] ++ t ↔ address <:+: [] ∨ P) : address <:+: t ↔ P := by
  have none : ¬ address <:+: [] := mail_not_inside mail (by simp)
  rwa [List.nil_append, or_iff_right none] at behind

theorem enclosing_parts (tag : Tag) (children : List Inline) {span : Inline}
    (flow : span.flow = span :: spanFlow children) (none : span.shows = [])
    (inner : address <:+: writeNodes (inlineNodes children) ↔
      ∃ inner ∈ spanFlow children, inner.Shows address) :
    Parts address (writeNodes [.element tag [] (inlineNodes children)])
      (∃ inner ∈ span.flow, inner.Shows address) := by
  rw [writeNodes_singleton, flow]
  refine (element_parts mail tag [] _).congr ?_
  rw [inner]
  simp [Inline.Shows, none]

omit mail

mutual

theorem spanNodes_parts (mail : isMailAddress address) {span : Inline} (bare : ¬ span.isText)
    (parted : span.IsParted) (filtered : ∀ inner ∈ span.flow, inner.IsFiltered) :
    Parts address (writeNodes (spanNodes span)) (∃ inner ∈ span.flow, inner.Shows address) := by
  cases span with
  | text t => exact absurd rfl bare
  | charRef t =>
    rw [spanNodes, writeNodes_singleton]
    refine (charRef_parts mail (filtered _ List.mem_cons_self)).congr ?_
    simp [Inline.flow, Inline.Shows, Inline.shows]
  | rawHtml t =>
    rw [spanNodes, writeNodes_singleton]
    refine (rawHtml_parts mail (filtered _ List.mem_cons_self)).congr ?_
    simp [Inline.flow, Inline.Shows, Inline.shows]
  | emphasis children | strong children | strikethrough children =>
    have inner := inside_of_behind mail (inlineNodes_behind mail [] ((isParted_enclosing rfl).mp parted)
      (fun inner member => filtered inner (List.mem_cons_of_mem _ member)) (.inl rfl))
    exact enclosing_parts mail _ children rfl rfl inner
  | code t =>
    rw [spanNodes, writeNodes_singleton]
    refine (element_parts mail .code [] _).congr ?_
    simp [Inline.flow, Inline.Shows, Inline.shows, writeNodes_singleton, Node.write]
  | lineBreak =>
    have both := (void_parts mail .br []).append (lineFeed_parts mail)
    rw [spanNodes, writeNodes, writeNodes_singleton]
    exact both.congr (by simp [Inline.flow, Inline.Shows, Inline.shows])
  | link target children =>
    have inner : address <:+: writeNodes (inlineNodes children) ↔
        ∃ inner ∈ spanFlow children, inner.Shows address :=
      inside_of_behind mail (inlineNodes_behind mail [] ((isParted_enclosing rfl).mp parted)
        (fun inner member => filtered inner (List.mem_cons_of_mem _ member)) (.inl rfl))
    have attributes := target_attributes mail (.href (.text target.url)) target
      (writeAttribute_inside mail (by decide) _)
    rw [spanNodes, writeNodes_singleton]
    refine (element_parts mail .a _ _).congr ?_
    rw [attributes, inner, Inline.flow, List.exists_mem_cons_iff]
    rfl
  | image target alt =>
    have attributes := target_attributes mail (.src target.url) target
      (writeAttribute_inside mail (by decide) (.text target.url))
    have alt' : address <:+: (Attribute.alt alt).write ↔ address <:+: escapeAttribute alt :=
      writeAttribute_inside mail (by decide) (.text alt)
    rw [spanNodes, writeNodes_singleton]
    refine (void_parts mail .img _).congr ?_
    rw [List.exists_mem_cons_iff] at attributes
    rw [List.exists_mem_cons_iff, List.exists_mem_cons_iff, alt', or_left_comm, attributes]
    simp [Inline.flow, Inline.Shows, Inline.shows]
  | footnoteRef label number first =>
    refine (footnoteRef_parts mail label number first).congr ?_
    simp [Inline.flow, Inline.Shows, Inline.shows]
  | abbreviation term expansion =>
    have title : address <:+: (Attribute.title expansion).write ↔
        address <:+: escapeAttribute expansion :=
      writeAttribute_inside mail (by decide) (.text expansion)
    rw [spanNodes, writeNodes_singleton]
    refine (element_parts mail .abbr _ _).congr ?_
    simp [Inline.flow, Inline.Shows, Inline.shows, writeNodes_singleton, Node.write, title]
  | autolink target email =>
    cases email with
    | false =>
      have link : address <:+: (Attribute.href (.text target)).write ↔
          address <:+: escapeAttribute target :=
        writeAttribute_inside mail (by decide) (.text target)
      rw [spanNodes, writeNodes_singleton]
      refine (element_parts mail .a _ _).congr ?_
      simp [Inline.flow, Inline.Shows, Inline.shows, writeNodes_singleton, Node.write, link]
    | true =>
      -- neither the link nor its text holds an at sign
      have hidden (t : Text) : ¬ address <:+: obfuscate t := mail_not_inside mail (at_notMem_obfuscate t)
      have link (t : Text) : ¬ address <:+: (Attribute.href (.obfuscated t)).write :=
        mt (writeAttribute_inside mail (by decide) (.obfuscated t)).mp (hidden t)
      rw [spanNodes, writeNodes_singleton]
      refine (element_parts mail .a _ _).congr ?_
      rw [List.exists_mem_cons_iff, iff_false_intro (link _)]
      simp [Inline.flow, Inline.Shows, Inline.shows, writeNodes_singleton, Node.write, hidden]

/-- As `inlineNodes_inside`, with a text in front that no other text follows. -/
theorem inlineNodes_behind (mail : isMailAddress address) (x : Text) {spans : List Inline}
    (parted : Parted spans) (filtered : ∀ inner ∈ spanFlow spans, inner.IsFiltered)
    (other : x = [] ∨ ∀ span ∈ spans.head?, ¬ span.isText) :
    address <:+: x ++ writeNodes (inlineNodes spans) ↔
      address <:+: x ∨ ∃ inner ∈ spanFlow spans, inner.Shows address := by
  cases spans with
  | nil => simp [inlineNodes, writeNodes, spanFlow]
  | cons span spans =>
    obtain ⟨apart, inside⟩ := parted_iff.mp parted
    obtain ⟨first, rest⟩ := List.isChain_cons.mp apart
    obtain ⟨own, others⟩ := List.forall_mem_cons.mp inside
    obtain ⟨here, later⟩ := List.forall_mem_append.mp filtered
    have parted' := parted_iff.mpr ⟨rest, others⟩
    have none : ¬ address <:+: [] := mail_not_inside mail (by simp)
    rw [inlineNodes, writeNodes_append, spanFlow]
    by_cases text : span.isText
    · cases span with
      | text t =>
        obtain rfl : x = [] := other.resolve_right fun bare => bare _ rfl text
        have behind := inlineNodes_behind mail (escapeText t) parted' later
          (.inr fun next start => first next start text)
        rw [spanNodes, writeNodes_singleton, Node.write, List.nil_append, behind]
        simp [none, Inline.flow, Inline.Shows, Inline.shows, or_and_right, exists_or]
      | _ => cases text
    · have parts := spanNodes_parts mail text own here x (writeNodes (inlineNodes spans))
      have behind := inside_of_behind mail (inlineNodes_behind mail [] parted' later (.inl rfl))
      rw [← List.append_assoc, parts, behind]
      simp only [List.mem_append, or_and_right, exists_or]

end

include mail

/-- An address stands in the markup of spans exactly if it stands in a string of one of them. -/
theorem inlineNodes_inside {spans : List Inline} (parted : Parted spans)
    (filtered : ∀ inner ∈ spanFlow spans, inner.IsFiltered) :
    address <:+: writeNodes (inlineNodes spans) ↔ ∃ inner ∈ spanFlow spans, inner.Shows address :=
  inside_of_behind mail (inlineNodes_behind mail [] parted filtered (.inl rfl))

end Mail

end CommentMarkup.Page
