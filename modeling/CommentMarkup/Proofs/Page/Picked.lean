import CommentMarkup.Page
import CommentMarkup.Proofs.Footnote.Numbering
import CommentMarkup.Proofs.Heading.Anchors
import CommentMarkup.Proofs.Html.Token

/-!
# Picking from the tags of a page

Whatever is picked from the attributes of a page's tags comes from its headings, from its footnotes
and from the references to them, if it is never picked from plain attributes: `documentNodes_picks`.
-/

namespace CommentMarkup

open Html

namespace Html

def Token.settings : Token → List Setting
  | .opening _ settings | .void _ settings => settings
  | .closing _ => []

variable (f : List Setting → Option Text)

def Node.picks (node : Node) : List Text := node.tokens.filterMap fun token => f token.settings

/-- The texts that `f` picks from the attributes of the tags that nodes stand for. -/
def picks (nodes : List Node) : List Text :=
  (nodesTokens nodes).filterMap fun token => f token.settings

@[simp] theorem picks_nil : picks f [] = [] := rfl

@[simp] theorem picks_cons (node : Node) (nodes : List Node) :
    picks f (node :: nodes) = node.picks f ++ picks f nodes := by
  rw [picks, nodesTokens, List.filterMap_append, Node.picks, picks]

@[simp] theorem picks_append (a b : List Node) : picks f (a ++ b) = picks f a ++ picks f b := by
  induction a with
  | nil => rfl
  | cons node a ih => rw [List.cons_append, picks_cons, ih, picks_cons, List.append_assoc]

@[simp] theorem picks_text (t : Text) : (Node.text t).picks f = [] := rfl

@[simp] theorem picks_lineFeed : Page.lineFeed.picks f = [] := rfl

/-! ### Plain attributes -/

def lacks (name : String) (attributes : List Attribute) : Bool :=
  attributes.all fun a => name.toList != a.name

def plain (attributes : List Attribute) : Bool :=
  lacks "id" attributes && (lacks "href" attributes || lacks "class" attributes)

def Quiet : Prop := ∀ attributes, plain attributes → f (attributes.map Attribute.setting) = none

variable {f}

theorem picks_element (closing : f [] = none) (tag : Tag) (attributes : List Attribute)
    (children : List Node) :
    (Node.element tag attributes children).picks f =
      (f (attributes.map Attribute.setting)).toList ++ picks f children := by
  cases here : f (attributes.map Attribute.setting) <;>
    simp [Node.picks, picks, Node.tokens, Token.settings, here, closing]

theorem picks_bare (closing : f [] = none) (tag : Tag) (children : List Node) :
    (Node.element tag [] children).picks f = picks f children := by
  rw [picks_element closing, List.map_nil, closing]
  rfl

theorem Quiet.closing (quiet : Quiet f) : f [] = none := quiet [] rfl

theorem picks_plain (quiet : Quiet f) (tag : Tag) {attributes : List Attribute}
    (isPlain : plain attributes) (children : List Node) :
    (Node.element tag attributes children).picks f = picks f children := by
  rw [picks_element quiet.closing, quiet attributes isPlain]
  rfl

theorem picks_void (quiet : Quiet f) (tag : VoidTag) {attributes : List Attribute}
    (isPlain : plain attributes) : (Node.void tag attributes).picks f = [] := by
  simp [Node.picks, Node.tokens, Token.settings, quiet attributes isPlain]

end Html

namespace Page

variable {f : List Setting → Option Text}

/-! ### Spans -/

def mentionPicks (f : List Setting → Option Text) (mention : Mention) : List Text :=
  picks f (spanNodes (.footnoteRef [] mention.number mention.first))

mutual

theorem spanNodes_picks (quiet : Quiet f) (span : Inline) :
    picks f (spanNodes span) = span.mentions.flatMap (mentionPicks f) := by
  cases span with
  | emphasis children | strong children | strikethrough children =>
    rw [spanNodes, picks_cons, picks_plain quiet _ rfl, inlineNodes_picks quiet children,
      picks_nil, List.append_nil, Inline.mentions]
  | link target children =>
    obtain ⟨url, title⟩ := target
    rw [spanNodes, picks_cons, picks_plain quiet _ (by cases title <;> rfl),
      inlineNodes_picks quiet children, picks_nil, List.append_nil, Inline.mentions]
  | image target alt =>
    obtain ⟨url, title⟩ := target
    rw [spanNodes, picks_cons, picks_void quiet _ (by cases title <;> rfl)]
    rfl
  | footnoteRef label number first => exact (List.append_nil _).symm
  | lineBreak =>
    rw [spanNodes, picks_cons, picks_void quiet _ rfl]
    rfl
  | code t | abbreviation term expansion =>
    rw [spanNodes, picks_cons, picks_plain quiet _ rfl]
    rfl
  | autolink target email =>
    cases email <;>
    · rw [spanNodes, picks_cons, picks_plain quiet _ rfl]
      rfl
  | _ => rfl

theorem inlineNodes_picks (quiet : Quiet f) (spans : List Inline) :
    picks f (inlineNodes spans) = (mentions spans).flatMap (mentionPicks f) := by
  cases spans with
  | nil => rfl
  | cons span spans =>
    rw [inlineNodes, picks_append, spanNodes_picks quiet span, inlineNodes_picks quiet spans,
      mentions_cons, List.flatMap_append]

end

/-! ### Outlines -/

theorem entryLink_picks (quiet : Quiet f) (entry : Entry) : (entryLink entry).picks f = [] := by
  rw [entryLink, picks_plain quiet _ rfl]
  rfl

mutual

theorem outlineItem_picks (quiet : Quiet f) (node : OutlineNode) :
    picks f (outlineItem node) = [] := by
  match node with
  | .node entry [] => simp [outlineItem, picks_bare quiet.closing, entryLink_picks quiet]
  | .node entry (child :: children) =>
    simp [outlineItem, picks_bare quiet.closing, entryLink_picks quiet,
      outlineItem_picks quiet child, outlineItems_picks quiet children]

theorem outlineItems_picks (quiet : Quiet f) (nodes : List OutlineNode) :
    picks f (outlineItems nodes) = [] := by
  match nodes with
  | [] => rfl
  | node :: nodes =>
    rw [outlineItems, picks_append, outlineItem_picks quiet node, outlineItems_picks quiet nodes]
    rfl

end

theorem outlineNodes_picks (quiet : Quiet f) (entries : List Entry) :
    picks f (outlineNodes entries) = [] := by
  unfold outlineNodes
  split
  · rfl
  · simp [picks_bare quiet.closing, outlineItems_picks quiet]

/-! ### Blocks -/

def anchorPicks (f : List Setting → Option Text) (block : Block) : List Text :=
  block.anchor?.toList.flatMap fun anchor =>
    (f ((headingAttributes anchor).map Attribute.setting)).toList

def blockPicks (f : List Setting → Option Text) (block : Block) : List Text :=
  anchorPicks f block ++ block.mentions.flatMap (mentionPicks f)

def flowPicks (f : List Setting → Option Text) (blocks : List Block) : List Text :=
  (flow blocks).flatMap (blockPicks f)

theorem flowPicks_cons (block : Block) (blocks : List Block) :
    flowPicks f (block :: blocks) = flowPicks f [block] ++ flowPicks f blocks := by
  simp [flowPicks, flow]

theorem flowPicks_append (a b : List Block) :
    flowPicks f (a ++ b) = flowPicks f a ++ flowPicks f b := by
  induction a with
  | nil => rfl
  | cons block a ih =>
    rw [List.cons_append, flowPicks_cons, ih, flowPicks_cons block a, List.append_assoc]

theorem flowPicks_shown (blocks : List Block) :
    flowPicks f (blocks.filter fun block => !block.isDefinition) = flowPicks f blocks := by
  induction blocks with
  | nil => rfl
  | cons block blocks ih =>
    cases defines : block.isDefinition with
    | true =>
      have none : flowPicks f [block] = [] := by
        cases block <;> first | rfl | cases defines
      rw [List.filter_cons_of_neg (by simp [defines]), ih, flowPicks_cons block, none,
        List.nil_append]
    | false =>
      rw [List.filter_cons_of_pos (by simp [defines]), flowPicks_cons, ih, ← flowPicks_cons]

theorem flowPicks_definitions {blocks : List Block} (defines : blocks.all Block.isDefinition) :
    flowPicks f blocks = [] := by
  have none : (blocks.filter fun block => !block.isDefinition) = [] := by
    simpa [List.filter_eq_nil_iff] using defines
  rw [← flowPicks_shown, none]
  rfl

theorem flowPicks_prose (content : Prose) :
    flowPicks f [.paragraph content] = (mentions content.spans).flatMap (mentionPicks f) := by
  simp [flowPicks, flow, Block.flow, blockPicks, anchorPicks, Block.anchor?, Block.mentions]

theorem blockElement_picks (quiet : Quiet f) (tag : Tag) {attributes : List Attribute}
    (isPlain : plain attributes) (content : List Node) :
    picks f (blockElement tag attributes content) = picks f content := by
  simp [blockElement, picks_plain quiet tag isPlain]

theorem listTag_plain (ordered : Bool) (start : Nat) : plain (listTag ordered start).2 := by
  unfold listTag
  split
  · rfl
  · split <;> rfl

theorem bulletNodes_picks (quiet : Quiet f) (bullet : Bullet) :
    picks f (bulletNodes bullet) = [] := by
  cases bullet with
  | plain => rfl
  | task checked =>
    rw [bulletNodes, picks_cons, picks_void quiet _ (by cases checked <;> rfl)]
    rfl

section Outline

variable {outline : List Node}

mutual

theorem blockNodes_picks (quiet : Quiet f) (drawn : picks f outline = []) (block : Block) :
    picks f (blockNodes outline block) = flowPicks f [block] := by
  cases block with
  | heading level content anchor =>
    simp [blockNodes, picks_element quiet.closing, inlineNodes_picks quiet, flowPicks, flow,
      Block.flow, blockPicks, anchorPicks, Block.anchor?, Block.mentions]
  | paragraph content =>
    rw [blockNodes, picks_cons, picks_plain quiet _ rfl, inlineNodes_picks quiet, flowPicks_prose]
    simp
  | list ordered start tight items =>
    rw [blockNodes, blockElement_picks quiet _ (listTag_plain ordered start),
      itemsNodes_picks quiet drawn tight items]
    simp [flowPicks, flow, Block.flow, blockPicks, anchorPicks, Block.anchor?, Block.mentions]
  | quote blocks =>
    rw [blockNodes, blockElement_picks quiet _ rfl, blocksNodes_picks quiet drawn blocks]
    simp [flowPicks, flow, Block.flow, blockPicks, anchorPicks, Block.anchor?, Block.mentions]
  | code kind literal =>
    rw [blockNodes, picks_cons, picks_plain quiet _ rfl, picks_cons,
      picks_plain quiet _ (by rcases kind with ⟨_ | _⟩ | _ | _ <;> rfl)]
    rfl
  | rule =>
    rw [blockNodes, picks_cons, picks_void quiet _ rfl]
    rfl
  | outline =>
    rw [blockNodes]
    split
    · rfl
    · rw [blockElement_picks quiet _ rfl, drawn]
      rfl
  | _ => rfl

theorem blocksNodes_picks (quiet : Quiet f) (drawn : picks f outline = []) (blocks : List Block) :
    picks f (blocksNodes outline blocks) = flowPicks f blocks := by
  cases blocks with
  | nil => rfl
  | cons block blocks =>
    rw [blocksNodes, picks_append, blockNodes_picks quiet drawn block,
      blocksNodes_picks quiet drawn blocks, ← flowPicks_cons]

theorem itemBody_picks (quiet : Quiet f) (drawn : picks f outline = []) (bullet : Bullet)
    (tight : Bool) (blocks : List Block) :
    picks f (itemBody outline bullet tight blocks) = flowPicks f blocks := by
  cases blocks with
  | nil => rfl
  | cons block blocks =>
    have here := blockNodes_picks quiet drawn block
    have later := blocksNodes_picks quiet drawn blocks
    rw [flowPicks_cons]
    cases block with
    | abbreviationDef | referenceDef | footnoteDef =>
      rw [itemBody, itemBody_picks quiet drawn bullet tight blocks]
      rfl
    | paragraph content =>
      have space : picks f (bulletSpace bullet) = [] := by cases bullet <;> rfl
      rw [itemBody]
      split
      · rw [picks_append, picks_append, space, inlineNodes_picks quiet, ← flowPicks_prose]
        split
        · rename_i defines
          rw [flowPicks_definitions defines]
          rfl
        · rw [picks_cons, later]
          rfl
      · rw [picks_cons, picks_append, here, later]
        rfl
    | _ =>
      simp only [itemBody, picks_cons, picks_append, picks_lineFeed, here, later,
        List.nil_append]

theorem itemsNodes_picks (quiet : Quiet f) (drawn : picks f outline = []) (tight : Bool)
    (items : List (Item Block)) :
    picks f (itemsNodes outline tight items) = (itemsFlow items).flatMap (blockPicks f) := by
  cases items with
  | nil => rfl
  | cons item items =>
    obtain ⟨bullet, blocks⟩ := item
    have bulletPlain : plain (bulletAttributes bullet) := by cases bullet <;> rfl
    rw [itemsNodes, picks_cons, picks_plain quiet _ bulletPlain, picks_append,
      bulletNodes_picks quiet, itemBody_picks quiet drawn bullet tight blocks, picks_cons,
      itemsNodes_picks quiet drawn tight items, itemsFlow, List.flatMap_append]
    rfl

end

end Outline

/-! ### Documents -/

def notePicks (f : List Setting → Option Text) (note : Footnote) : List Text :=
  (f ([.id (footnoteAnchor note.number)].map Attribute.setting)).toList ++
    (backLink note.number).picks f

theorem footnoteBody_picks (quiet : Quiet f) {outline : List Node} (drawn : picks f outline = [])
    (note : Footnote) :
    picks f (footnoteBody outline note) =
      flowPicks f note.blocks ++ (backLink note.number).picks f := by
  rw [← flowPicks_shown]
  unfold footnoteBody
  dsimp only
  split
  · rename_i last ends
    have parts := congrArg (flowPicks f) (List.dropLast_append_getLast? _ ends)
    rw [flowPicks_append] at parts
    rw [← parts, picks_append, blocksNodes_picks quiet drawn, picks_cons, picks_bare quiet.closing,
      picks_append, inlineNodes_picks quiet, flowPicks_prose]
    simp
  · rw [picks_append, blocksNodes_picks quiet drawn]
    simp

theorem footnoteItem_picks (quiet : Quiet f) {outline : List Node} (drawn : picks f outline = [])
    (note : Footnote) :
    (picks f (footnoteItem outline note)).Perm (flowPicks f note.blocks ++ notePicks f note) := by
  have item : picks f (footnoteItem outline note) =
      (f ([.id (footnoteAnchor note.number)].map Attribute.setting)).toList ++
        (flowPicks f note.blocks ++ (backLink note.number).picks f) := by
    rw [footnoteItem, blockElement, picks_cons, picks_element quiet.closing, picks_cons,
      footnoteBody_picks quiet drawn]
    simp
  rw [item, notePicks]
  exact List.perm_append_comm_assoc _ _ _

theorem footnoteSection_picks (quiet : Quiet f) (outline : List Node)
    (footnotes : List Footnote) :
    picks f (footnoteSection outline footnotes) =
      footnotes.flatMap fun note => picks f (footnoteItem outline note) := by
  have items : picks f (footnotes.flatMap (footnoteItem outline)) =
      footnotes.flatMap fun note => picks f (footnoteItem outline note) := by
    induction footnotes with
    | nil => rfl
    | cons note footnotes ih => rw [List.flatMap_cons, picks_append, ih, List.flatMap_cons]
  unfold footnoteSection
  split
  · rename_i none
    rw [List.isEmpty_iff.mp none]
    rfl
  · rw [blockElement_picks quiet _ rfl, picks_cons, picks_void quiet _ rfl, picks_cons,
      blockElement_picks quiet _ rfl, items]
    simp

theorem mentions_flow (document : Document) :
    document.mentions = document.flow.flatMap Block.mentions := by
  rw [Document.mentions, Document.flow, List.flatMap_append, List.flatMap_assoc]
  rfl

/-- What is picked from a page, by where it comes from. -/
theorem documentNodes_picks (quiet : Quiet f) (document : Document) :
    (picks f (documentNodes document)).Perm
      (document.flow.flatMap (anchorPicks f) ++ (document.mentions.flatMap (mentionPicks f) ++
        document.footnotes.flatMap (notePicks f))) := by
  have drawn := outlineNodes_picks quiet document.entries
  have notes : (picks f (footnoteSection (outlineNodes document.entries) document.footnotes)).Perm
      ((document.footnotes.flatMap fun note => flowPicks f note.blocks) ++
        document.footnotes.flatMap (notePicks f)) := by
    rw [footnoteSection_picks quiet]
    exact (List.Perm.flatMap_left _ fun note _ => footnoteItem_picks quiet drawn note).trans
      (List.flatMap_append_perm _ _ _).symm
  have flows : flowPicks f document.blocks ++
      (document.footnotes.flatMap fun note => flowPicks f note.blocks) =
        document.flow.flatMap (blockPicks f) := by
    rw [Document.flow, List.flatMap_append, List.flatMap_assoc]
    rfl
  have parts : (document.flow.flatMap (blockPicks f)).Perm
      (document.flow.flatMap (anchorPicks f) ++ document.mentions.flatMap (mentionPicks f)) := by
    rw [mentions_flow, List.flatMap_assoc]
    exact (List.flatMap_append_perm _ _ _).symm
  rw [documentNodes, picks_append, blocksNodes_picks quiet drawn]
  refine (notes.append_left _).trans ?_
  rw [← List.append_assoc, flows, ← List.append_assoc]
  exact parts.append_right _

end Page
end CommentMarkup
