import CommentMarkup.Proofs.Abbreviation.Listed
import CommentMarkup.Proofs.Heading.Resolved
import CommentMarkup.Proofs.Heading.Slug
import CommentMarkup.Proofs.Page.Drawn
import CommentMarkup.Proofs.Page.Located
import CommentMarkup.Render

/-!
# Obfuscated addresses

A mail address that stands in the text in angle brackets only is written out nowhere on the page and
in the outline, unless it comes back as plain text: in an entry of the outline, in the alternative
text of an image, in the class of a code block, or where the text spells it with backslashes.
-/

namespace CommentMarkup

open Html Page

/-! ### Spans -/

/-- The strings of a span, as they are written, that backslashes may have been taken from. -/
def Inline.unescaped : Inline → List Text
  | .text t | .abbreviation t _ => [escapeText t]
  | .link target _ | .image target _ => target.shows
  | _ => []

theorem Inline.unescaped_subset (span : Inline) : span.unescaped ⊆ span.shows := by
  cases span <;> simp [Inline.unescaped, Inline.shows]

mutual

theorem Inline.wording_inside (given : Text → Bool) {inner span : Inline}
    (member : inner ∈ span.flow) : inner.wording given <:+: span.wording given := by
  cases span with
  | emphasis children | strong children | strikethrough children | link target children =>
    rcases List.mem_cons.mp member with rfl | inside
    · exact List.infix_refl _
    · exact (wording_inside given inside).trans (infix_spaced List.mem_cons_self)
  | _ => rw [List.mem_singleton.mp member]

theorem wording_inside (given : Text → Bool) {inner : Inline} {spans : List Inline}
    (member : inner ∈ spanFlow spans) : inner.wording given <:+: wording given spans := by
  cases spans with
  | nil => cases member
  | cons span spans =>
    rw [wording]
    rcases List.mem_append.mp member with here | later
    · exact (Inline.wording_inside given here).trans (List.prefix_append _ _).isInfix
    · exact (wording_inside given later).trans (List.suffix_append _ _).isInfix

end

section Shown

variable {address : Text} (mail : isMailAddress address)

include mail

theorem target_kept {given : Text → Bool} (elsewhere : ∀ t, given t → ¬ address <:+: t)
    {target : Target} {t : Text} (member : t ∈ target.shows) (inside : address <:+: t) :
    ∃ own ∈ target.kept given, address <:+: own := by
  have kept_inside {u : Text} (inside : address <:+: u) : address <:+: kept given u := by
    unfold kept
    split
    · exact absurd inside (elsewhere u ‹_›)
    · exact inside
  obtain ⟨url, title⟩ := target
  rcases List.mem_cons.mp member with rfl | titled
  · exact ⟨_, List.mem_cons_self, kept_inside (inside_of_escapeAttribute mail inside)⟩
  · cases title with
    | none => cases titled
    | some title =>
      rw [List.mem_singleton.mp titled] at inside
      exact ⟨_, List.mem_cons_of_mem _ List.mem_cons_self,
        kept_inside (inside_of_escapeAttribute mail inside)⟩

theorem unescaped_wording {given : Text → Bool} (elsewhere : ∀ t, given t → ¬ address <:+: t)
    {span : Inline} {t : Text} (member : t ∈ span.unescaped) (inside : address <:+: t) :
    address <:+: span.wording given := by
  cases span with
  | text u =>
    rw [List.mem_singleton.mp member] at inside
    exact inside_of_escapeText mail inside
  | abbreviation term expansion =>
    rw [List.mem_singleton.mp member] at inside
    exact (inside_of_escapeText mail inside).trans (infix_spaced List.mem_cons_self)
  | link target children =>
    obtain ⟨own, kept, here⟩ := target_kept mail elsewhere member inside
    exact here.trans (infix_spaced (List.mem_cons_of_mem _ kept))
  | image target alt =>
    obtain ⟨own, kept, here⟩ := target_kept mail elsewhere member inside
    exact here.trans (infix_spaced kept)
  | _ => cases member

/-- What a span shows may have lost backslashes, is the alternative text of an image, is copied from
the text, or comes from the table of abbreviations. -/
theorem Inline.Shows.cases {span : Inline} (shows : span.Shows address) :
    (∃ t ∈ span.unescaped, address <:+: t) ∨
    (∃ target alt, span = .image target alt ∧ address <:+: escapeAttribute alt) ∨
    (∃ t ∈ span.copied?, address <:+: t) ∨ ∃ t ∈ span.expansion?, address <:+: t := by
  obtain ⟨t, member, inside⟩ := shows
  cases span with
  | text | link => exact .inl ⟨t, member, inside⟩
  | code u =>
    rw [List.mem_singleton.mp member] at inside
    exact .inr (.inr (.inl ⟨u, rfl, inside_of_escapeText mail inside⟩))
  | rawHtml u =>
    rw [List.mem_singleton.mp member] at inside
    exact .inr (.inr (.inl ⟨u, rfl, inside⟩))
  | image target alt =>
    rcases List.mem_cons.mp member with rfl | aimed
    · exact .inr (.inl ⟨target, alt, rfl, inside⟩)
    · exact .inl ⟨t, aimed, inside⟩
  | abbreviation term expansion =>
    rcases List.mem_cons.mp member with rfl | shown
    · exact .inr (.inr (.inr ⟨expansion, rfl, inside_of_escapeAttribute mail inside⟩))
    · exact .inl ⟨t, shown, inside⟩
  | autolink target email =>
    cases email with
    | true => cases member
    | false =>
      rcases List.mem_cons.mp member with rfl | shown
      · exact .inr (.inr (.inl ⟨target, rfl, inside_of_escapeAttribute mail inside⟩))
      · rw [List.mem_singleton.mp shown] at inside
        exact .inr (.inr (.inl ⟨target, rfl, inside_of_escapeText mail inside⟩))
  | _ => cases member

end Shown

/-! ### Tables -/

def Scope.strings (scope : Scope) : List Text :=
  scope.references.links.flatMap (fun entry => [entry.2.url, entry.2.title.getD []]) ++
    scope.headings.map (fun entry => '#' :: entry.2) ++
    scope.references.abbreviations.map Prod.snd

def Scope.lends (scope : Scope) (t : Text) : Bool := scope.strings.contains t

theorem Scope.lends_given (scope : Scope) : scope.Given scope.lends where
  links entry listed := by
    have url : entry.2.url ∈ scope.strings := by
      refine List.mem_append_left _ (List.mem_append_left _ (List.mem_flatMap.mpr ?_))
      exact ⟨entry, listed, List.mem_cons_self⟩
    have title : entry.2.title.getD [] ∈ scope.strings := by
      refine List.mem_append_left _ (List.mem_append_left _ (List.mem_flatMap.mpr ?_))
      exact ⟨entry, listed, List.mem_cons_of_mem _ List.mem_cons_self⟩
    simp [Target.kept, kept, lends, url, title]
  headings entry listed := by
    have anchor : '#' :: entry.2 ∈ scope.strings :=
      List.mem_append_left _ (List.mem_append_right _ (List.mem_map_of_mem listed))
    simpa [lends] using anchor
  abbreviations entry listed := by
    have expansion : entry.2 ∈ scope.strings :=
      List.mem_append_right _ (List.mem_map_of_mem listed)
    simpa [lends] using expansion

/-! ### Anchors -/

theorem anchors_plain {options : Options} {text : Text} {document : Document}
    (h : Document.ofText options text = .ok document) :
    (∀ a ∈ anchors document.flow, '@' ∉ a) ∧ ∀ entry ∈ document.entries, '@' ∉ entry.anchor := by
  obtain ⟨blocks, read, resolved⟩ := bind_ok h
  have anchored := resolve_anchored (readBlocks_unassigned read) resolved
  obtain ⟨notes, after, flowing, _⟩ := resolve_bodies resolved
  have kept := ((resolveStep_walks (.ofBlocks options blocks)).blocks
    (.start (References.collect blocks).2) (HeadingIndex.assign blocks).1).kept
  rw [resolveBlocks] at flowing
  rw [flowing] at kept
  have own : ∀ a ∈ anchors (flow document.blocks), '@' ∉ a := by
    rw [kept]
    exact assign_plain blocks
  constructor
  · intro a member
    rw [Document.flow, anchors_append, List.mem_append] at member
    rcases member with flows | noted
    · exact own a flows
    · obtain ⟨block, shown, has⟩ := List.mem_filterMap.mp noted
      obtain ⟨note, listed, inside⟩ := List.mem_flatMap.mp shown
      rw [anchored.notes note listed a (List.mem_filterMap.mpr ⟨block, inside, has⟩)]
      exact List.not_mem_nil
  · intro entry listed
    refine own _ ?_
    rw [← entries_anchors, ← anchored.entries]
    exact List.mem_map_of_mem listed

/-! ### Blocks -/

theorem Block.shown_inlines {μ : Text → Nat} {shown : List Inline → Nat} {block : Block}
    {span : Inline} (member : span ∈ block.spans) : block.shown μ shown = shown block.inlines := by
  cases block <;> first | rfl | cases member

section Mail

variable {address : Text} (mail : isMailAddress address)

include mail

theorem Block.spells_span {outline : List Node} {block : Block} (parted : Parted block.inlines)
    (filtered : ∀ span ∈ block.spans, span.IsFiltered) {span : Inline} (member : span ∈ block.spans)
    (shows : span.Shows address) : block.Spells address outline := by
  have inside := inlineNodes_inside mail parted (by rwa [← block.spans_eq])
  cases block with
  | heading level content anchor => exact .inr (inside.mpr ⟨span, member, shows⟩)
  | paragraph content => exact inside.mpr ⟨span, member, shows⟩
  | _ => cases member

/-- A block spells the address in one of its spans, in its code or raw HTML, or it is an outline or a
block of code with a class. -/
theorem Block.spells_cases {outline : List Node} {block : Block} (parted : Parted block.inlines)
    (filtered : ∀ span ∈ block.spans, span.IsFiltered) (plain : ∀ a ∈ anchors [block], '@' ∉ a)
    (spells : block.Spells address outline) :
    (∃ span ∈ block.spans, span.Shows address) ∨
    (∃ t, address <:+: t ∧ ∀ μ shown, block.shown μ shown = μ t) ∨
    (block = .outline ∧ address <:+: writeNodes outline) ∨
    ∃ info literal, block = .code (.fenced (some info)) literal ∧
      address <:+: escapeAttribute ("language-".toList ++ info) := by
  have inside := inlineNodes_inside mail parted (by rwa [← block.spans_eq])
  cases block with
  | heading level content anchor =>
    rcases spells with ⟨a, listed, here⟩ | spans
    · unfold headingAttributes at listed
      split at listed
      · cases listed
      · rw [List.mem_singleton.mp listed] at here
        exact absurd here (setting_plain mail (by decide) (plain anchor List.mem_cons_self))
    · exact .inl (inside.mp spans)
  | paragraph content => exact .inl (inside.mp spells)
  | code kind literal =>
    rcases spells with ⟨a, listed, here⟩ | shown
    · cases kind with
      | fenced info =>
        cases info with
        | none => cases listed
        | some info =>
          rw [List.mem_singleton.mp listed] at here
          have named := (writeAttribute_inside mail (by decide) _).mp here
          exact .inr (.inr (.inr ⟨info, literal, rfl, named⟩))
      | _ => cases listed
    · exact .inr (.inl ⟨literal, inside_of_escapeText mail shown, fun _ _ => rfl⟩)
  | rawHtml tag html => exact .inr (.inl ⟨html, spells, fun _ _ => rfl⟩)
  | outline => exact .inr (.inr (.inl ⟨rfl, spells⟩))
  | _ => cases spells

theorem shown_pos {t : Text} (inside : address <:+: t) : 0 < spelled address t :=
  spelled_pos (mail_filled mail) (mail_absent mail (by decide) (by decide)) inside

theorem Scope.strings_silent {scope : Scope}
    (links : sumOver (fun entry => entry.2.cost (spelled address)) scope.references.links = 0)
    (expansions :
      sumOver (fun entry => spelled address entry.2) scope.references.abbreviations = 0)
    (anchors : ∀ entry ∈ scope.headings, '@' ∉ entry.2) :
    ∀ t ∈ scope.strings, ¬ address <:+: t := by
  intro t listed inside
  have positive := shown_pos mail inside
  rcases List.mem_append.mp listed with outer | expansion
  · rcases List.mem_append.mp outer with link | heading
    · obtain ⟨entry, defined, part⟩ := List.mem_flatMap.mp link
      have none := le_sumOver (fun entry => entry.2.cost (spelled address)) defined
      rw [links, Target.cost] at none
      rcases List.mem_cons.mp part with rfl | title
      · omega
      · rw [List.mem_singleton.mp title] at positive
        omega
    · obtain ⟨entry, own, rfl⟩ := List.mem_map.mp heading
      exact mail_not_inside mail (by simp [anchors entry own]) inside
  · obtain ⟨entry, defined, rfl⟩ := List.mem_map.mp expansion
    have none := le_sumOver (fun entry => spelled address entry.2) defined
    omega

end Mail

/-! ### Documents -/

/-- Every place of the address in the text lies in a mail address in angle brackets, be it one of the
document or one in the label of an image. -/
def Document.Brackets (options : Options) (text : Text) (document : Document) (address : Text) :
    Prop :=
  tally address text ≤
    sumOver (tally address) (document.spans.filterMap Inline.mail?) +
      sumOver (tally address) (document.labelMails options text)

section Brackets

variable {options : Options} {text address : Text} {blocks : List Block} {document : Document}
  (read : readDocument options.fence text = .ok blocks)
  (resolved : resolve options blocks = .ok document) (mail : isMailAddress address)
  (bracketed : Document.Brackets options text document address)

include read resolved mail bracketed

/-- The places in angle brackets leave none to what is copied from the text. -/
theorem Document.Brackets.uncopied :
    (∀ block ∈ document.flow, block.shown (tally address) (copiedCost (tally address)) = 0) ∧
    ∀ entry ∈ (References.collect blocks).1.abbreviations, ¬ address <:+: entry.2 := by
  have measure := tally_escape mail
  have whole := document_drawn measure read resolved (record_copies measure.toInkMeasure _)
  rw [Document.Brackets] at bracketed
  -- the addresses in brackets take all the places that the text has
  constructor
  · intro block flows
    have part := le_sumOver (Block.shown (tally address) (copiedCost (tally address))) flows
    omega
  · intro entry listed inside
    have part := le_sumOver (fun entry => tally address entry.2) listed
    have positive := (tally_pos (mail_filled mail)).mpr inside
    omega

/-- If none is spelled with backslashes either, they leave none to all that is shown. -/
theorem Document.Brackets.unspelled (plain : spelled address text ≤ tally address text) :
    ∃ given : Text → Bool, (∀ t, given t → ¬ address <:+: t) ∧ ∀ block ∈ document.flow,
      block.shown (spelled address) (fun spans => spelled address (wording given spans)) = 0 := by
  have measure := spelled_spelling mail
  have more := tally_le_spelled (mail_filled mail) (mail_absent mail (by decide) (by decide))
  have mails := sumOver_le more (document.spans.filterMap Inline.mail?)
  have labels := sumOver_le more (document.labelMails options text)
  have whole := document_drawn measure.toEscapeMeasure read resolved
    (record_spells measure (Scope.ofBlocks options blocks).lends_given)
  rw [Document.Brackets] at bracketed
  -- what the tables lend is left out of the wording: their entries are charged for it once, however
  -- often it is shown
  refine ⟨(Scope.ofBlocks options blocks).lends, fun t lent => ?_, fun block flows => ?_⟩
  · have listed : t ∈ (Scope.ofBlocks options blocks).strings := by
      simpa [Scope.lends] using lent
    refine Scope.strings_silent mail ?_ ?_ (assign_index_plain blocks) t listed
    · simp only [Scope.ofBlocks]
      omega
    · simp only [Scope.ofBlocks]
      omega
  · have part := le_sumOver (Block.shown (spelled address) fun spans =>
      spelled address (wording (Scope.ofBlocks options blocks).lends spans)) flows
    omega

/-- Where a span shows the address without being made for it, the text spells it with backslashes. -/
theorem Document.Brackets.backslash {span : Inline} (shown : span ∈ document.spans) {t : Text}
    (member : t ∈ span.unescaped) (inside : address <:+: t) :
    tally address text < spelled address text := by
  by_contra fewer
  obtain ⟨given, elsewhere, silent⟩ := bracketed.unspelled read resolved mail (by omega)
  obtain ⟨block, flows, own⟩ := List.mem_flatMap.mp shown
  have none := silent block flows
  rw [Block.shown_inlines own] at none
  rw [block.spans_eq] at own
  have here := (unescaped_wording mail elsewhere member inside).trans (wording_inside given own)
  have positive := shown_pos mail here
  omega

/-- A span that shows the address is an image, or the text spells the address with backslashes. -/
theorem Document.Brackets.shows {span : Inline} (shown : span ∈ document.spans)
    (shows : span.Shows address) :
    (∃ target alt, span = .image target alt ∧ address <:+: escapeAttribute alt) ∨
      tally address text < spelled address text ∧ ∃ t ∈ span.unescaped, address <:+: t := by
  obtain ⟨silent, undefined⟩ := bracketed.uncopied read resolved mail
  obtain ⟨block, flows, own⟩ := List.mem_flatMap.mp shown
  rcases shows.cases mail with ⟨t, member, inside⟩ | image | ⟨t, copied, inside⟩ | ⟨t, named, inside⟩
  · exact .inr ⟨bracketed.backslash read resolved mail shown member inside, t, member, inside⟩
  · exact .inl image
  · have none := silent block flows
    rw [Block.shown_inlines own, copiedCost] at none
    rw [block.spans_eq] at own
    have part := le_sumOver (tally address) (List.mem_filterMap.mpr ⟨span, own, copied⟩)
    have positive := (tally_pos (mail_filled mail)).mpr inside
    rw [inventory] at none
    omega
  · have listed := document_inlines (P := fun spans => ∀ term expansion,
        .abbreviation term expansion ∈ spanFlow spans →
          ∃ term, (term, expansion) ∈ (References.collect blocks).1.abbreviations)
      (fun _ _ none => absurd none List.not_mem_nil)
      (fun t notes _ _ => readInline_expansions _ t notes) resolved block flows
    rw [block.spans_eq] at own
    cases span with
    | abbreviation term expansion =>
      cases named
      obtain ⟨term, entry⟩ := listed _ _ own
      exact absurd inside (undefined _ entry)
    | _ => cases named

/-- What a block of the document that spells the address comes to. -/
theorem Document.Brackets.spells {outline : List Node} {block : Block}
    (flows : block ∈ document.flow) (parted : Parted block.inlines)
    (filtered : ∀ span ∈ block.spans, span.IsFiltered) (plain : ∀ a ∈ anchors [block], '@' ∉ a)
    (spells : block.Spells address outline) :
    (∃ target alt, .image target alt ∈ document.spans ∧ address <:+: escapeAttribute alt) ∨
    (.outline ∈ document.flow ∧ address <:+: writeNodes outline) ∨
    (∃ info literal, .code (.fenced (some info)) literal ∈ document.flow ∧
      address <:+: escapeAttribute ("language-".toList ++ info)) ∨
    tally address text < spelled address text ∧
      ∃ span ∈ document.spans, ∃ t ∈ span.unescaped, address <:+: t := by
  rcases Block.spells_cases mail parted filtered plain spells with
    ⟨span, member, shows⟩ | ⟨t, inside, same⟩ | ⟨rfl, listed⟩ | ⟨info, literal, rfl, inside⟩
  · have shown : span ∈ document.spans := List.mem_flatMap.mpr ⟨block, flows, member⟩
    rcases bracketed.shows read resolved mail shown shows with
      ⟨target, alt, rfl, inside⟩ | ⟨backslash, unescaped⟩
    · exact .inl ⟨target, alt, shown, inside⟩
    · exact .inr (.inr (.inr ⟨backslash, span, shown, unescaped⟩))
  · have none := (bracketed.uncopied read resolved mail).1 block flows
    have positive := (tally_pos (mail_filled mail)).mpr inside
    rw [same] at none
    omega
  · exact .inr (.inl ⟨flows, listed⟩)
  · exact .inr (.inr (.inl ⟨info, literal, flows, inside⟩))

end Brackets

/-- A mail address that a text holds in angle brackets only stands in the outline exactly if the text
of an entry holds it, and on the page exactly if an image, an outline or the class of a code block
shows it, or a text or a target that the text spells with backslashes. -/
theorem addresses_obfuscated_iff {options : Options} {text : Text} {document : Document}
    (h : Document.ofText options text = .ok document) {address : Text}
    (mail : isMailAddress address) (bracketed : document.Brackets options text address) :
    (address <:+: document.rendered.outline ↔
      ∃ entry ∈ document.entries, address <:+: escapeText entry.text) ∧
    (address <:+: document.rendered.html ↔
      (∃ target alt, .image target alt ∈ document.spans ∧ address <:+: escapeAttribute alt) ∨
      (.outline ∈ document.flow ∧ ∃ entry ∈ document.entries, address <:+: escapeText entry.text) ∨
      (∃ info literal, .code (.fenced (some info)) literal ∈ document.flow ∧
        address <:+: escapeAttribute ("language-".toList ++ info)) ∨
      tally address text < spelled address text ∧
        ∃ span ∈ document.spans, ∃ t ∈ span.unescaped, address <:+: t) := by
  obtain ⟨blocks, read, resolved⟩ := Document.ofText_ok h
  obtain ⟨plain, named⟩ := anchors_plain h
  have parted := document_inlines (P := Parted) ⟨apart_nil, List.forall_mem_nil _⟩
    (readInline_parted _) resolved
  have filtered : ∀ block ∈ document.flow, ∀ span ∈ block.spans, span.IsFiltered := by
    intro block flows
    rw [block.spans_eq]
    exact document_inlines (P := fun spans => ∀ span ∈ spanFlow spans, span.IsFiltered)
      (List.forall_mem_nil _) (readInline_filtered _) resolved block flows
  have outline := renderOutline_inside mail named
  refine ⟨outline, ?_⟩
  rw [Document.rendered, render_inside mail, ← outline]
  constructor
  · rintro ⟨block, flows, spells⟩
    refine bracketed.spells read resolved mail flows (parted block flows) (filtered block flows)
      (fun a member => plain a ?_) spells
    exact ((List.singleton_sublist.mpr flows).filterMap Block.anchor?).subset member
  · have reveals {span : Inline} (shown : span ∈ document.spans) (shows : span.Shows address) :
        ∃ block ∈ document.flow, block.Spells address (outlineNodes document.entries) := by
      obtain ⟨block, flows, member⟩ := List.mem_flatMap.mp shown
      exact ⟨block, flows,
        Block.spells_span mail (parted block flows) (filtered block flows) member shows⟩
    rintro (⟨target, alt, shown, inside⟩ | ⟨flows, listed⟩ | ⟨info, literal, flows, inside⟩ |
      ⟨_, span, shown, t, member, inside⟩)
    · exact reveals shown ⟨_, List.mem_cons_self, inside⟩
    · exact ⟨.outline, flows, listed⟩
    · refine ⟨_, flows, .inl ⟨_, List.mem_cons_self, ?_⟩⟩
      exact (writeAttribute_inside mail (by decide) _).mpr inside
    · exact reveals shown ⟨t, span.unescaped_subset member, inside⟩

/-! ### Addresses in a label, in a heading and behind a backslash -/

def labelledText : Text := "<a&b@c.d> ![<a&b@c.d>](/u)".toList

def labelledDocument : Document :=
  ⟨[.paragraph ⟨labelledText, [.autolink "a&b@c.d".toList true, .text [' '],
    .image ⟨"/u".toList, none⟩ "a&b@c.d".toList]⟩], [], [], []⟩

theorem readDocument_labelled :
    readDocument Options.default.fence labelledText = .ok [paragraph [labelledText]] :=
  readDocument_single (by decide) (by decide) (blockAt_text (by decide +kernel) (by decide))

theorem labelMails_labelled :
    labelledDocument.labelMails Options.default labelledText = ["a&b@c.d".toList] := by
  rw [Document.labelMails, readDocument_labelled]
  cbv

/-- An address in a paragraph and in the label of an image, where its ampersand is escaped. -/
theorem addresses_obfuscated_label :
    Document.ofText Options.default labelledText = .ok labelledDocument ∧
      isMailAddress "a&b@c.d".toList ∧
      labelledDocument.Brackets Options.default labelledText "a&b@c.d".toList ∧
      ¬ "a&b@c.d".toList <:+: labelledDocument.rendered.outline ∧
      ¬ "a&b@c.d".toList <:+: labelledDocument.rendered.html := by
  have read : Document.ofText Options.default labelledText = .ok labelledDocument := by
    rw [Document.ofText, readDocument_labelled]
    cbv
  have bracketed : labelledDocument.Brackets Options.default labelledText "a&b@c.d".toList := by
    rw [Document.Brackets, labelMails_labelled]
    decide
  obtain ⟨outline, html⟩ := addresses_obfuscated_iff read (by decide) bracketed
  refine ⟨read, by decide, bracketed, ?_, ?_⟩
  · rw [outline]
    rintro ⟨entry, listed, _⟩
    cases listed
  · have escaped : ¬ "a&b@c.d".toList <:+: escapeAttribute "a&b@c.d".toList := by decide
    have spans : labelledDocument.spans = [.autolink "a&b@c.d".toList true, .text [' '],
      .image ⟨"/u".toList, none⟩ "a&b@c.d".toList] := rfl
    rw [html, spans]
    rintro (⟨target, alt, image, inside⟩ | ⟨flows, _⟩ | ⟨info, literal, flows, _⟩ | ⟨backslash, _⟩)
    · obtain ⟨-, same⟩ : target = ⟨"/u".toList, none⟩ ∧ alt = "a&b@c.d".toList := by
        simpa using image
      rw [same] at inside
      exact escaped inside
    · cases List.mem_singleton.mp flows
    · cases List.mem_singleton.mp flows
    · exact absurd backslash (by decide)

def headedDocument : Document :=
  ⟨[.heading 1 ⟨"<a@b.c>".toList, [.autolink "a@b.c".toList true]⟩ "heading".toList], [],
    [⟨1, "heading".toList, "a@b.c".toList⟩], []⟩

def escapedDocument : Document :=
  ⟨[.paragraph ⟨"<a@b.c> a\\@b.c".toList, [.autolink "a@b.c".toList true,
    .text " a@b.c".toList]⟩], [], [], []⟩

/-- The outline shows the address of a heading as plain text, and a page the one that is spelled with a
backslash. -/
theorem addresses_revealed :
    (Document.ofText Options.default "# <a@b.c>".toList = .ok headedDocument ∧
      isMailAddress "a@b.c".toList ∧
      headedDocument.Brackets Options.default "# <a@b.c>".toList "a@b.c".toList ∧
      headedDocument.rendered.outline =
        "<ul>\n<li><a href=\"#heading\">a@b.c</a></li>\n</ul>\n".toList ∧
      "a@b.c".toList <:+: headedDocument.rendered.outline) ∧
    (Document.ofText Options.default "<a@b.c> a\\@b.c".toList = .ok escapedDocument ∧
      escapedDocument.Brackets Options.default "<a@b.c> a\\@b.c".toList "a@b.c".toList ∧
      "a@b.c".toList <:+: escapedDocument.rendered.html) := by
  have heading : blockAt Options.default.fence .document "# <a@b.c>".toList [] =
      .leaf (headingBlock 1 "<a@b.c>".toList) 0 := by
    apply blockAt_heading <;> decide +kernel
  have text : blockAt Options.default.fence .document "<a@b.c> a\\@b.c".toList [] =
      .leaf (paragraph ["<a@b.c> a\\@b.c".toList]) 0 :=
    blockAt_text (by decide +kernel) (by decide)
  have nested : nest headedDocument.entries =
      [.node ⟨1, "heading".toList, "a@b.c".toList⟩ []] := by
    simp [headedDocument, nest]
  have outline : headedDocument.rendered.outline =
      "<ul>\n<li><a href=\"#heading\">a@b.c</a></li>\n</ul>\n".toList := by
    rw [Document.rendered, renderOutline, outlineNodes, nested]
    decide
  refine ⟨⟨?_, by decide, Nat.le_add_right_of_le (by decide), outline, by rw [outline]; decide⟩,
    ?_, Nat.le_add_right_of_le (by decide), ?_⟩
  · rw [Document.ofText, readDocument_single (by decide) (by decide) heading]
    cbv
  · rw [Document.ofText, readDocument_single (by decide) (by decide) text]
    cbv
  · rw [Document.rendered, render_inside (by decide)]
    refine ⟨_, List.mem_cons_self, ?_⟩
    have last : "a@b.c".toList <:+: writeNodes (inlineNodes [.text " a@b.c".toList]) := by decide
    rw [Block.Spells, inlineNodes, writeNodes_append]
    exact last.trans (List.suffix_append _ _).isInfix

end CommentMarkup
