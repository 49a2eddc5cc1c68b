import CommentMarkup.Proofs.Heading.Outline
import CommentMarkup.Proofs.Heading.Resolved
import CommentMarkup.Proofs.Page.Picked
import CommentMarkup.Proofs.Page.WellFormed

/-!
# Links within pages

The anchors of a page and the links that point to them, read back from its text. Each link has an
anchor to point to. The anchors are distinct unless a heading took one that belongs to a footnote:
headings only avoid each other.
-/

namespace CommentMarkup

open Html

namespace Html

def setting? (name : String) (settings : List Setting) : Option Text :=
  (settings.lookup name.toList).join

def id? (settings : List Setting) : Option Text := setting? "id" settings

def href? (settings : List Setting) : Option Text := setting? "href" settings

def footnoteLink? (settings : List Setting) : Option Text :=
  if setting? "class" settings = some "footnote-ref".toList ∨
    setting? "class" settings = some "footnote-backref".toList then href? settings
  else none

def ids (page : List Token) : List Text := page.filterMap fun token => id? token.settings

def links (page : List Token) : List Text := page.filterMap fun token => href? token.settings

def footnoteLinks (page : List Token) : List Text :=
  page.filterMap fun token => footnoteLink? token.settings

/-- The anchors of the page are distinct, and each link of the outline and each link to or from a
footnote points to one of them. -/
def LinksSound (page outline : List Token) : Prop :=
  (ids page).Nodup ∧ ∀ link ∈ footnoteLinks page ++ links outline,
    ∃ anchor, link = '#' :: anchor ∧ (ids page).count anchor = 1

/-! ### Plain attributes -/

theorem setting_none {name : String} {attributes : List Attribute}
    (absent : lacks name attributes) :
    setting? name (attributes.map Attribute.setting) = none := by
  induction attributes with
  | nil => rfl
  | cons a attributes ih =>
    rw [lacks, List.all_cons, Bool.and_eq_true] at absent
    have other : (name.toList == a.setting.1) = false := by
      simpa [Attribute.setting] using absent.1
    rw [List.map_cons, setting?, List.lookup_cons, other]
    exact ih absent.2

theorem id_quiet : Quiet id? := by
  intro attributes isPlain
  rw [plain, Bool.and_eq_true] at isPlain
  exact setting_none isPlain.1

theorem footnoteLink_quiet : Quiet footnoteLink? := by
  intro attributes isPlain
  rw [plain, Bool.and_eq_true, Bool.or_eq_true] at isPlain
  unfold footnoteLink?
  rcases isPlain.2 with noHref | noClass
  · rw [href?, setting_none noHref, ite_self]
  · rw [setting_none noClass, if_neg (by simp)]

/-! ### Escaping -/

theorem escapeAttributeChar_cases (c : Char) :
    escapeAttributeChar c = [c] ∧ c ≠ '&' ∨
      ∃ name, escapeAttributeChar c = '&' :: name ∧
        (c, name) ∈ [('"', ['q', 'u', 'o', 't', ';']), ('&', ['a', 'm', 'p', ';']),
          ('<', ['l', 't', ';']), ('>', ['g', 't', ';'])] := by
  unfold escapeAttributeChar escapeTextChar
  split
  · exact .inr ⟨['q', 'u', 'o', 't', ';'], rfl, by simp [*]⟩
  · split
    · exact .inr ⟨['a', 'm', 'p', ';'], rfl, by simp [*]⟩
    · split
      · exact .inr ⟨['l', 't', ';'], rfl, by simp [*]⟩
      · split
        · exact .inr ⟨['g', 't', ';'], rfl, by simp [*]⟩
        · exact .inl ⟨rfl, by assumption⟩

/-- What a character is escaped to begins no other character's escape. -/
theorem escapeAttributeChar_append {c d : Char} {s t : Text}
    (h : escapeAttributeChar c ++ s = escapeAttributeChar d ++ t) : c = d ∧ s = t := by
  rcases escapeAttributeChar_cases c with ⟨here, plain⟩ | ⟨name, here, known⟩ <;>
    rcases escapeAttributeChar_cases d with ⟨there, plain'⟩ | ⟨name', there, known'⟩ <;>
    rw [here, there] at h
  · simpa using h
  · exact absurd (List.cons.inj h).1 plain
  · exact absurd (List.cons.inj h).1.symm plain'
  · have rest := (List.cons.inj h).2
    simp only [List.mem_cons, Prod.mk.injEq, List.not_mem_nil, or_false] at known known'
    rcases known with ⟨rfl, rfl⟩ | ⟨rfl, rfl⟩ | ⟨rfl, rfl⟩ | ⟨rfl, rfl⟩ <;>
      rcases known' with ⟨rfl, rfl⟩ | ⟨rfl, rfl⟩ | ⟨rfl, rfl⟩ | ⟨rfl, rfl⟩ <;>
      first
        | exact ⟨rfl, List.append_cancel_left rest⟩
        | exact absurd (List.cons.inj rest).1 (by decide)

theorem escapeAttribute_injective : Function.Injective escapeAttribute := by
  have filled (c : Char) (t : Text) : escapeAttribute (c :: t) ≠ [] := by
    rw [escapeAttribute, List.flatMap_cons]
    rcases escapeAttributeChar_cases c with ⟨here, _⟩ | ⟨name, here, _⟩ <;> simp [here]
  intro s t same
  induction s generalizing t with
  | nil =>
    cases t with
    | nil => rfl
    | cons d t => exact absurd same.symm (filled d t)
  | cons c s ih =>
    cases t with
    | nil => exact absurd same (filled c s)
    | cons d t =>
      rw [escapeAttribute, escapeAttribute, List.flatMap_cons, List.flatMap_cons] at same
      obtain ⟨rfl, rest⟩ := escapeAttributeChar_append same
      rw [ih rest]

end Html

namespace Page

/-! ### Anchors -/

/-- The anchors of a page: those of its headings, and two for each footnote. -/
def ownAnchors (document : Document) : List Text :=
  document.entries.map Entry.anchor ++
    ((document.footnotes.map Footnote.number).map backAnchor ++
      (document.footnotes.map Footnote.number).map footnoteAnchor)

theorem anchorPicks_id (block : Block) :
    anchorPicks id? block =
      (block.anchor?.toList.filter fun a => !a.isEmpty).map escapeAttribute := by
  cases shown : block.anchor? with
  | none => rw [anchorPicks, shown]; rfl
  | some anchor =>
    rw [anchorPicks, shown]
    cases anchor <;> rfl

theorem mentionPicks_id (mention : Mention) :
    mentionPicks id? mention =
      if mention.first then [escapeAttribute (backAnchor mention.number)] else [] := by
  obtain ⟨number, first⟩ := mention
  cases first <;> rfl

theorem flow_anchorPicks_id (blocks : List Block) :
    blocks.flatMap (anchorPicks id?) =
      ((anchors blocks).filter fun a => !a.isEmpty).map escapeAttribute := by
  induction blocks with
  | nil => rfl
  | cons block blocks ih =>
    have split : anchors (block :: blocks) = block.anchor?.toList ++ anchors blocks := by
      cases shown : block.anchor? <;> simp [anchors, shown]
    rw [List.flatMap_cons, ih, anchorPicks_id, split, List.filter_append, List.map_append]

theorem mentions_mentionPicks_id (ms : List Mention) :
    ms.flatMap (mentionPicks id?) =
      (((ms.filter Mention.first).map Mention.number).map backAnchor).map escapeAttribute := by
  induction ms with
  | nil => rfl
  | cons mention ms ih =>
    rw [List.flatMap_cons, ih, mentionPicks_id]
    cases first : mention.first <;> simp [first]

theorem shown_anchors {document : Document} (anchored : document.Anchored) :
    ((anchors document.flow).filter fun a => !a.isEmpty) = document.entries.map Entry.anchor := by
  -- a heading in a footnote has the empty anchor, which a page does not write
  have notes : ((anchors (document.footnotes.flatMap fun note => flow note.blocks)).filter
      fun a => !a.isEmpty) = [] := by
    rw [List.filter_eq_nil_iff]
    intro a member
    obtain ⟨block, shown, has⟩ := List.mem_filterMap.mp member
    obtain ⟨note, listed, shown⟩ := List.mem_flatMap.mp shown
    rw [anchored.notes note listed a (List.mem_filterMap.mpr ⟨block, shown, has⟩)]
    simp
  have own : ((anchors (flow document.blocks)).filter fun a => !a.isEmpty) =
      anchors (flow document.blocks) := by
    rw [List.filter_eq_self]
    intro a member
    have filled : a ≠ [] := ne_of_mem_of_not_mem member anchored.filled
    simpa using filled
  rw [Document.flow, anchors_append, List.filter_append, notes, own, List.append_nil,
    anchored.entries, entries_anchors]

theorem ids_own {document : Document} (anchored : document.Anchored)
    (firsts : (document.mentions.filter Mention.first).map Mention.number =
      document.footnotes.map Footnote.number) :
    (ids (nodesTokens (documentNodes document))).Perm
      ((ownAnchors document).map escapeAttribute) := by
  have picked := documentNodes_picks id_quiet document
  rw [flow_anchorPicks_id, shown_anchors anchored, mentions_mentionPicks_id, firsts] at picked
  have notes : document.footnotes.flatMap (notePicks id?) =
      ((document.footnotes.map Footnote.number).map footnoteAnchor).map escapeAttribute := by
    rw [List.map_map, List.map_map, List.map_eq_flatMap]
    rfl
  rw [notes] at picked
  rw [ownAnchors, List.map_append, List.map_append]
  exact picked

/-! ### Links -/

theorem mentionPicks_link (mention : Mention) :
    mentionPicks footnoteLink? mention =
      ['#' :: escapeAttribute (footnoteAnchor mention.number)] := by
  obtain ⟨number, first⟩ := mention
  cases first <;> rfl

theorem notePicks_link (note : Footnote) :
    notePicks footnoteLink? note = ['#' :: escapeAttribute (backAnchor note.number)] := rfl

theorem anchorPicks_link (block : Block) : anchorPicks footnoteLink? block = [] := by
  cases shown : block.anchor? with
  | none => rw [anchorPicks, shown]; rfl
  | some anchor =>
    rw [anchorPicks, shown]
    cases anchor <;> rfl

/-- Links to and from footnotes point to anchors of the page. -/
theorem footnoteLinks_own {document : Document}
    (known : ∀ mention ∈ document.mentions, ∃ note ∈ document.footnotes,
      note.number = mention.number) {link : Text}
    (member : link ∈ footnoteLinks (nodesTokens (documentNodes document))) :
    ∃ anchor ∈ ownAnchors document, link = '#' :: escapeAttribute anchor := by
  have picked := (documentNodes_picks footnoteLink_quiet document).mem_iff.mp member
  rw [List.mem_append, List.mem_append] at picked
  rcases picked with heading | reference | back
  · obtain ⟨block, _, inside⟩ := List.mem_flatMap.mp heading
    rw [anchorPicks_link] at inside
    cases inside
  · obtain ⟨mention, referred, inside⟩ := List.mem_flatMap.mp reference
    rw [mentionPicks_link, List.mem_singleton] at inside
    obtain ⟨note, listed, same⟩ := known mention referred
    refine ⟨footnoteAnchor mention.number, ?_, inside⟩
    rw [ownAnchors, List.mem_append, List.mem_append, ← same]
    exact .inr (.inr (List.mem_map_of_mem (List.mem_map_of_mem listed)))
  · obtain ⟨note, listed, inside⟩ := List.mem_flatMap.mp back
    rw [notePicks_link, List.mem_singleton] at inside
    refine ⟨backAnchor note.number, ?_, inside⟩
    rw [ownAnchors, List.mem_append, List.mem_append]
    exact .inr (.inl (List.mem_map_of_mem (List.mem_map_of_mem listed)))

def entryAddress (entry : Entry) : Text := '#' :: escapeAttribute entry.anchor

theorem entryLink_links (entry : Entry) : (entryLink entry).picks href? = [entryAddress entry] := rfl

mutual

theorem outlineItem_links (node : OutlineNode) :
    picks href? (outlineItem node) = node.listed.map entryAddress := by
  match node with
  | .node entry [] =>
    rw [outlineItem, picks_cons, picks_bare rfl, picks_cons, entryLink_links]
    rfl
  | .node entry (child :: children) =>
    have inner := outlineItem_links child
    have others := outlineItems_links children
    have bare := picks_bare (f := href?) rfl
    rw [OutlineNode.listed, listed, List.map_cons, List.map_append, ← inner, ← others]
    simp [outlineItem, bare, entryLink_links]

theorem outlineItems_links (nodes : List OutlineNode) :
    picks href? (outlineItems nodes) = (listed nodes).map entryAddress := by
  match nodes with
  | [] => rfl
  | node :: nodes =>
    rw [outlineItems, picks_append, outlineItem_links node, outlineItems_links nodes, listed,
      List.map_append]

end

theorem outlineNodes_links (entries : List Entry) :
    links (nodesTokens (outlineNodes entries)) = entries.map entryAddress := by
  have whole : links (nodesTokens (outlineNodes entries)) = picks href? (outlineNodes entries) := rfl
  rw [whole]
  unfold outlineNodes
  split
  · rename_i none
    rw [List.isEmpty_iff.mp none]
    rfl
  · rw [picks_cons, picks_bare rfl, picks_cons, outlineItems_links, listed_nest]
    simp

theorem links_own {document : Document}
    (known : ∀ mention ∈ document.mentions, ∃ note ∈ document.footnotes,
      note.number = mention.number) {link : Text}
    (member : link ∈ footnoteLinks (nodesTokens (documentNodes document)) ++
      links (nodesTokens (outlineNodes document.entries))) :
    ∃ anchor ∈ ownAnchors document, link = '#' :: escapeAttribute anchor := by
  rcases List.mem_append.mp member with footnote | heading
  · exact footnoteLinks_own known footnote
  · rw [outlineNodes_links] at heading
    obtain ⟨entry, listed, rfl⟩ := List.mem_map.mp heading
    exact ⟨entry.anchor, List.mem_append_left _ (List.mem_map_of_mem listed), rfl⟩

/-! ### Soundness -/

theorem tokens_render {document : Document} (free : document.WithoutRawHtml)
    (anchored : document.Anchored) :
    tokens? (render document) = some (nodesTokens (documentNodes document)) := by
  have calm := flow_calm free fun t member => anchored.proper _ member t rfl
  have read := tokens_writeNodes (documentNodes_calm calm) []
  rwa [List.append_nil, tokens?, Option.map_some, List.append_nil] at read

theorem tokens_renderOutline (entries : List Entry) :
    tokens? (renderOutline entries) = some (nodesTokens (outlineNodes entries)) := by
  have read := tokens_writeNodes (outlineNodes_calm entries) []
  rwa [List.append_nil, tokens?, Option.map_some, List.append_nil] at read

theorem footnoteAnchor_injective : Function.Injective footnoteAnchor :=
  fun _ _ same => ofNat_injective (List.append_cancel_left same)

theorem backAnchor_injective : Function.Injective backAnchor :=
  fun _ _ same => ofNat_injective (List.append_cancel_left same)

theorem backAnchor_third (n : Nat) : (backAnchor n)[2]? = some 'r' := rfl

theorem footnoteAnchor_third (n : Nat) : (footnoteAnchor n)[2]? = some '-' := rfl

theorem backAnchor_ne_footnoteAnchor (m n : Nat) : backAnchor m ≠ footnoteAnchor n := by
  intro same
  have third := backAnchor_third m
  rw [same, footnoteAnchor_third] at third
  exact absurd third (by decide)

/-- Own anchors are distinct unless a heading has that of a footnote. -/
theorem ownAnchors_nodup {document : Document} (anchored : document.Anchored)
    (numbered : (document.footnotes.map Footnote.number).Nodup) :
    (ownAnchors document).Nodup ↔
      ∀ entry ∈ document.entries, ∀ note ∈ document.footnotes,
        entry.anchor ≠ backAnchor note.number ∧ entry.anchor ≠ footnoteAnchor note.number := by
  have headings : (document.entries.map Entry.anchor).Nodup := by
    rw [anchored.entries, entries_anchors]
    exact anchored.distinct
  have notes : ((document.footnotes.map Footnote.number).map backAnchor ++
      (document.footnotes.map Footnote.number).map footnoteAnchor).Nodup := by
    rw [List.nodup_append]
    refine ⟨numbered.map backAnchor_injective, numbered.map footnoteAnchor_injective, ?_⟩
    intro a back b forth
    obtain ⟨m, _, rfl⟩ := List.mem_map.mp back
    obtain ⟨n, _, rfl⟩ := List.mem_map.mp forth
    exact backAnchor_ne_footnoteAnchor m n
  rw [ownAnchors, List.nodup_append]
  simp only [headings, notes, true_and]
  constructor
  · intro apart entry listed note noted
    have number := List.mem_map_of_mem (f := Footnote.number) noted
    constructor
    · exact apart _ (List.mem_map_of_mem listed) _
        (List.mem_append_left _ (List.mem_map_of_mem number))
    · exact apart _ (List.mem_map_of_mem listed) _
        (List.mem_append_right _ (List.mem_map_of_mem number))
  · intro apart a heading b own
    obtain ⟨entry, listed, rfl⟩ := List.mem_map.mp heading
    rcases List.mem_append.mp own with back | forth
    · obtain ⟨n, number, rfl⟩ := List.mem_map.mp back
      obtain ⟨note, noted, rfl⟩ := List.mem_map.mp number
      exact (apart entry listed note noted).1
    · obtain ⟨n, number, rfl⟩ := List.mem_map.mp forth
      obtain ⟨note, noted, rfl⟩ := List.mem_map.mp number
      exact (apart entry listed note noted).2

/-- Links that have an anchor to point to are sound if the anchors are distinct. -/
theorem linksSound_iff {page outline : List Token}
    (reached : ∀ link ∈ footnoteLinks page ++ links outline,
      ∃ anchor ∈ ids page, link = '#' :: anchor) :
    LinksSound page outline ↔ (ids page).Nodup := by
  constructor
  · exact fun sound => sound.1
  · intro distinct
    refine ⟨distinct, ?_⟩
    intro link member
    obtain ⟨anchor, own, points⟩ := reached link member
    exact ⟨anchor, points, List.count_eq_one_of_mem distinct own⟩

/-- The links of a page all have an anchor to point to. They are sound exactly when no heading has
taken the anchor of a footnote. -/
theorem links_sound_iff {options : Options} {text : Text} {document : Document}
    (h : Document.ofText options text = .ok document) (free : document.WithoutRawHtml) :
    ∃ page outline, tokens? (render document) = some page ∧
      tokens? (renderOutline document.entries) = some outline ∧
      (∀ link ∈ footnoteLinks page ++ links outline, ∃ anchor ∈ ids page, link = '#' :: anchor) ∧
      (LinksSound page outline ↔
        ∀ entry ∈ document.entries, ∀ note ∈ document.footnotes,
          entry.anchor ≠ backAnchor note.number ∧ entry.anchor ≠ footnoteAnchor note.number) := by
  obtain ⟨blocks, read, resolved⟩ := bind_ok h
  have anchored := resolve_anchored (readBlocks_unassigned read) resolved
  obtain ⟨numbers, continues⟩ := resolve_numbered resolved
  have firsts : (document.mentions.filter Mention.first).map Mention.number =
      document.footnotes.map Footnote.number := by
    rw [continues.firsts, numbers]
    rfl
  have known : ∀ mention ∈ document.mentions, ∃ note ∈ document.footnotes,
      note.number = mention.number := by
    intro mention member
    obtain ⟨positive, bound⟩ := continues.bounded member
    have listed : mention.number ∈ document.footnotes.map Footnote.number := by
      rw [numbers, List.mem_range'_1]
      omega
    exact List.mem_map.mp listed
  have own := ids_own anchored firsts
  have reached : ∀ link ∈ footnoteLinks (nodesTokens (documentNodes document)) ++
      links (nodesTokens (outlineNodes document.entries)),
      ∃ anchor ∈ ids (nodesTokens (documentNodes document)), link = '#' :: anchor := by
    intro link member
    obtain ⟨anchor, given, rfl⟩ := links_own known member
    exact ⟨_, own.mem_iff.mpr (List.mem_map_of_mem given), rfl⟩
  refine ⟨_, _, tokens_render free anchored, tokens_renderOutline document.entries, reached, ?_⟩
  have distinct : (document.footnotes.map Footnote.number).Nodup := by
    rw [numbers]
    exact List.nodup_range'
  rw [linksSound_iff reached, own.nodup_iff, List.nodup_map_iff escapeAttribute_injective,
    ownAnchors_nodup anchored distinct]

/-! ### Headings named like footnotes -/

def notedBlocks : List Block :=
  [paragraph ["x[^a]".toList], .footnoteDef "a".toList [paragraph ["b".toList]]]

theorem readBlocks_noted (n : Nat) :
    readBlocks Options.default.fence .document n ["x[^a]".toList, [], "[^a]: b".toList] =
      .ok notedBlocks := by
  have leading : blockAt Options.default.fence .document "x[^a]".toList
      [[], "[^a]: b".toList] = .leaf (paragraph ["x[^a]".toList]) 0 :=
    blockAt_text (by decide +kernel) (by decide)
  have footnote : blockAt Options.default.fence .document "[^a]: b".toList [] =
      .footnote "a".toList ["b".toList] 0 := by
    apply blockAt_definition
    · decide +kernel
    · decide +kernel
    · decide +kernel
    · decide +kernel
    · cbv
  have body : readBlocks Options.default.fence .item (n + (0 + 1) + 1)
      (lines (unlines ["b".toList])) = .ok [paragraph ["b".toList]] := by
    apply readBlocks_text
    rw [List.forall_mem_singleton]
    decide +kernel
  rw [readBlocks_leaf (by decide) leading, List.drop_zero, readBlocks_blank rfl,
    readBlocks_footnote (by decide) footnote, body, List.drop_nil, readBlocks_nil]
  rfl

def headed (title : Text) : Text := "# ".toList ++ title ++ "\n\nx[^a]\n\n[^a]: b".toList

theorem readDocument_headed {title : Text}
    (cut : lines (headed title) =
      ['#' :: ' ' :: title, [], "x[^a]".toList, [], "[^a]: b".toList])
    (step : ∀ ls, blockAt Options.default.fence .document ('#' :: ' ' :: title) ls =
      .leaf (headingBlock 1 title) 0) :
    readDocument Options.default.fence (headed title) =
      .ok (headingBlock 1 title :: notedBlocks) := by
  have filled : ¬ Text.isBlank ('#' :: ' ' :: title) := by
    rw [Text.isBlank, List.all_cons]
    simp [show isSpace '#' = false by decide]
  rw [readDocument, cut, readBlocks_leaf filled (step _), List.drop_zero, readBlocks_blank rfl,
    readBlocks_noted]
  rfl

theorem links_sound_headed :
    ∃ document page outline, Document.ofText Options.default (headed "fn".toList) = .ok document ∧
      document.WithoutRawHtml ∧ tokens? (render document) = some page ∧
      tokens? (renderOutline document.entries) = some outline ∧ LinksSound page outline := by
  have read : readDocument Options.default.fence (headed "fn".toList) =
      .ok (headingBlock 1 "fn".toList :: notedBlocks) := by
    refine readDocument_headed (by decide) fun ls => ?_
    apply blockAt_heading <;> decide +kernel
  have resolved : ∃ document,
      resolve Options.default (headingBlock 1 "fn".toList :: notedBlocks) = .ok document ∧
        document.WithoutRawHtml ∧ document.entries.map Entry.anchor = ["fn".toList] := by
    refine ⟨_, by cbv, ⟨?_, ?_⟩, rfl⟩
    · simp [Document.flow, flow, Block.flow]
    · simp [Document.flow, flow, Block.flow, Document.spans, Block.spans, spanFlow, Inline.flow]
  obtain ⟨document, resolved, free, titled⟩ := resolved
  have whole : Document.ofText Options.default (headed "fn".toList) = .ok document := by
    rw [Document.ofText, read]
    exact resolved
  obtain ⟨page, outline, shown, drawn, _, sound⟩ := links_sound_iff whole free
  refine ⟨document, page, outline, whole, free, shown, drawn, sound.mpr ?_⟩
  intro entry listed note _
  have named : entry.anchor = "fn".toList := by
    have member := List.mem_map_of_mem (f := Entry.anchor) listed
    rwa [titled, List.mem_singleton] at member
  have short : entry.anchor[2]? = none := by
    rw [named]
    decide
  constructor
  · intro same
    rw [same, backAnchor_third] at short
    cases short
  · intro same
    rw [same, footnoteAnchor_third] at short
    cases short

/-- The anchor of the heading is also that of the footnote. -/
theorem links_clash :
    ∃ document page outline, Document.ofText Options.default (headed "fn 1".toList) = .ok document ∧
      document.WithoutRawHtml ∧ tokens? (render document) = some page ∧
      tokens? (renderOutline document.entries) = some outline ∧
      ids page = ["fn-1".toList, "fnref-1".toList, "fn-1".toList] ∧
      links outline = ["#fn-1".toList] ∧ ¬ LinksSound page outline := by
  have read : readDocument Options.default.fence (headed "fn 1".toList) =
      .ok (headingBlock 1 "fn 1".toList :: notedBlocks) := by
    refine readDocument_headed (by decide) fun ls => ?_
    apply blockAt_heading <;> decide +kernel
  have resolved : ∃ document,
      resolve Options.default (headingBlock 1 "fn 1".toList :: notedBlocks) = .ok document ∧
        document.WithoutRawHtml ∧
        ids (nodesTokens (documentNodes document)) =
          ["fn-1".toList, "fnref-1".toList, "fn-1".toList] ∧
        document.entries.map entryAddress = ["#fn-1".toList] := by
    refine ⟨_, by cbv, ⟨?_, ?_⟩, by decide, by decide⟩
    · simp [Document.flow, flow, Block.flow]
    · simp [Document.flow, flow, Block.flow, Document.spans, Block.spans, spanFlow, Inline.flow]
  obtain ⟨document, resolved, free, own, listed⟩ := resolved
  have anchored := resolve_anchored (readBlocks_unassigned read) resolved
  refine ⟨document, _, _, ?_, free, tokens_render free anchored,
    tokens_renderOutline document.entries, own, (outlineNodes_links _).trans listed, ?_⟩
  · rw [Document.ofText, read]
    exact resolved
  · intro sound
    have distinct := sound.1
    rw [own] at distinct
    exact absurd distinct (by decide)

end Page
end CommentMarkup
