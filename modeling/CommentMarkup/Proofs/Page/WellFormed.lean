import CommentMarkup.Page
import CommentMarkup.Proofs.Html.Token
import CommentMarkup.Proofs.Tree.Flow

/-!
# Well-formed pages

Pages are well-formed markup whatever texts their documents hold. Only what documents pass on as
written can break them: raw HTML, and references with an angle bracket.
-/

namespace CommentMarkup

open Html

/-! ### Calm markup -/

@[simp] theorem nodesCalm_nil : nodesCalm [] = true := rfl

@[simp] theorem nodesCalm_cons (node : Node) (nodes : List Node) :
    nodesCalm (node :: nodes) = (node.isCalm && nodesCalm nodes) := rfl

@[simp] theorem nodesCalm_append (a b : List Node) :
    nodesCalm (a ++ b) = (nodesCalm a && nodesCalm b) := by
  induction a with
  | nil => rfl
  | cons node a ih => rw [List.cons_append, nodesCalm_cons, nodesCalm_cons, ih, Bool.and_assoc]

def Inline.isCalm : Inline → Bool
  | .charRef t => t.all fun c => !isAngle c
  | .rawHtml _ => false
  | _ => true

def Block.isCalm : Block → Bool
  | .heading _ content _ | .paragraph content => (spanFlow content.spans).all Inline.isCalm
  | .rawHtml .. => false
  | _ => true

namespace Page

@[simp] theorem lineFeed_calm : lineFeed.isCalm = true := rfl

mutual

theorem spanNodes_calm {span : Inline} (calm : span.flow.all Inline.isCalm) :
    nodesCalm (spanNodes span) := by
  cases span with
  | emphasis children | strong children | strikethrough children | link _ children =>
    rw [Inline.flow, List.all_cons, Bool.and_eq_true] at calm
    simpa [spanNodes, Node.isCalm] using inlineNodes_calm calm.2
  | charRef t => simpa [spanNodes, Node.isCalm, Inline.flow, Inline.isCalm] using calm
  | rawHtml t => simp [Inline.flow, Inline.isCalm] at calm
  | autolink target email => cases email <;> rfl
  | _ => rfl

theorem inlineNodes_calm {spans : List Inline} (calm : (spanFlow spans).all Inline.isCalm) :
    nodesCalm (inlineNodes spans) := by
  cases spans with
  | nil => rfl
  | cons span spans =>
    rw [spanFlow, List.all_append, Bool.and_eq_true] at calm
    rw [inlineNodes, nodesCalm_append, spanNodes_calm calm.1, inlineNodes_calm calm.2]
    rfl

end

mutual

theorem outlineItem_calm (node : OutlineNode) : nodesCalm (outlineItem node) := by
  match node with
  | .node entry [] => rfl
  | .node entry (child :: children) =>
    simpa [outlineItem, entryLink, Node.isCalm] using
      ⟨outlineItem_calm child, outlineItems_calm children⟩

theorem outlineItems_calm (nodes : List OutlineNode) : nodesCalm (outlineItems nodes) := by
  match nodes with
  | [] => rfl
  | node :: nodes =>
    rw [outlineItems, nodesCalm_append, outlineItem_calm node, outlineItems_calm nodes]
    rfl

end

theorem outlineNodes_calm (entries : List Entry) : nodesCalm (outlineNodes entries) := by
  unfold outlineNodes
  split
  · rfl
  · simpa [Node.isCalm] using outlineItems_calm (nest entries)

theorem blockElement_calm (tag : Tag) (attributes : List Attribute) (content : List Node) :
    nodesCalm (blockElement tag attributes content) = nodesCalm content := by
  simp [blockElement, Node.isCalm]

theorem bulletNodes_calm (bullet : Bullet) : nodesCalm (bulletNodes bullet) := by
  cases bullet <;> rfl

theorem bulletSpace_calm (bullet : Bullet) : nodesCalm (bulletSpace bullet) := by
  cases bullet <;> rfl

theorem proseNodes_calm {content : Prose} (calm : (spanFlow content.spans).all Inline.isCalm)
    (tag : Tag) (attributes : List Attribute) :
    nodesCalm [.element tag attributes (inlineNodes content.spans), lineFeed] := by
  simpa [Node.isCalm] using inlineNodes_calm calm

mutual

theorem blockNodes_calm {outline : List Node} (drawn : nodesCalm outline) {block : Block}
    (calm : block.flow.all Block.isCalm) : nodesCalm (blockNodes outline block) := by
  cases block with
  | heading level content anchor =>
    exact proseNodes_calm (by simpa [Block.flow, Block.isCalm] using calm) _ _
  | paragraph content =>
    exact proseNodes_calm (by simpa [Block.flow, Block.isCalm] using calm) _ _
  | list ordered start tight items =>
    rw [Block.flow, List.all_cons, Bool.and_eq_true] at calm
    rw [blockNodes, blockElement_calm]
    exact itemsNodes_calm drawn tight calm.2
  | quote blocks =>
    rw [Block.flow, List.all_cons, Bool.and_eq_true] at calm
    rw [blockNodes, blockElement_calm]
    exact blocksNodes_calm drawn calm.2
  | rawHtml tag html => simp [Block.flow, Block.isCalm] at calm
  | outline =>
    rw [blockNodes]
    split
    · rfl
    · rwa [blockElement_calm]
  | _ => rfl

theorem blocksNodes_calm {outline : List Node} (drawn : nodesCalm outline) {blocks : List Block}
    (calm : (flow blocks).all Block.isCalm) : nodesCalm (blocksNodes outline blocks) := by
  cases blocks with
  | nil => rfl
  | cons block blocks =>
    rw [flow, List.all_append, Bool.and_eq_true] at calm
    rw [blocksNodes, nodesCalm_append, blockNodes_calm drawn calm.1,
      blocksNodes_calm drawn calm.2]
    rfl

theorem itemBody_calm {outline : List Node} (drawn : nodesCalm outline) (bullet : Bullet)
    (tight : Bool) {blocks : List Block} (calm : (flow blocks).all Block.isCalm) :
    nodesCalm (itemBody outline bullet tight blocks) := by
  cases blocks with
  | nil => rfl
  | cons block blocks =>
    rw [flow, List.all_append, Bool.and_eq_true] at calm
    have later := blocksNodes_calm drawn calm.2
    have here := blockNodes_calm drawn calm.1
    cases block with
    | abbreviationDef | referenceDef | footnoteDef =>
      rw [itemBody]
      exact itemBody_calm drawn bullet tight calm.2
    | paragraph content =>
      have bare : nodesCalm (inlineNodes content.spans) := by
        simpa [blockNodes, Node.isCalm] using here
      rw [itemBody]
      split
      · split <;> simp [bulletSpace_calm, bare, later]
      · simp [here, later]
    | _ => simp [itemBody, here, later]

theorem itemsNodes_calm {outline : List Node} (drawn : nodesCalm outline) (tight : Bool)
    {items : List (Item Block)} (calm : (itemsFlow items).all Block.isCalm) :
    nodesCalm (itemsNodes outline tight items) := by
  cases items with
  | nil => rfl
  | cons item items =>
    obtain ⟨bullet, blocks⟩ := item
    rw [itemsFlow, List.all_append, Bool.and_eq_true] at calm
    simpa [itemsNodes, Node.isCalm, bulletNodes_calm] using
      ⟨itemBody_calm drawn bullet tight calm.1, itemsNodes_calm drawn tight calm.2⟩

end

/-! ### Pages -/

theorem backLink_calm (number : Nat) : (backLink number).isCalm := by
  rw [backLink, Node.isCalm, nodesCalm_cons]
  decide

theorem footnoteBody_calm {outline : List Node} (drawn : nodesCalm outline) {footnote : Footnote}
    (calm : (flow footnote.blocks).all Block.isCalm) :
    nodesCalm (footnoteBody outline footnote) := by
  have part {blocks : List Block} (h : blocks.Sublist footnote.blocks) :
      (flow blocks).all Block.isCalm := all_of_sublist (flow_sublist h) calm
  have shown := List.filter_sublist (l := footnote.blocks) (p := fun block => !block.isDefinition)
  unfold footnoteBody
  dsimp only
  split
  · rename_i last ends
    have start := blocksNodes_calm drawn (part ((List.dropLast_sublist _).trans shown))
    have alone := part ((List.singleton_sublist.mpr (List.mem_of_getLast? ends)).trans shown)
    have spans := inlineNodes_calm (by simpa [flow, Block.flow, Block.isCalm] using alone)
    simp [start, spans, backLink_calm, Node.isCalm]
  · simp [blocksNodes_calm drawn (part shown), backLink_calm]

theorem footnoteSection_calm {outline : List Node} (drawn : nodesCalm outline)
    {footnotes : List Footnote}
    (calm : ∀ note ∈ footnotes, (flow note.blocks).all Block.isCalm) :
    nodesCalm (footnoteSection outline footnotes) := by
  have items : nodesCalm (footnotes.flatMap (footnoteItem outline)) := by
    induction footnotes with
    | nil => rfl
    | cons note footnotes ih =>
      rw [List.forall_mem_cons] at calm
      rw [List.flatMap_cons, nodesCalm_append, footnoteItem, blockElement_calm,
        footnoteBody_calm drawn calm.1, ih calm.2]
      rfl
  unfold footnoteSection
  split
  · rfl
  · rw [blockElement_calm, nodesCalm_cons, nodesCalm_cons, blockElement_calm, items]
    rfl

theorem documentNodes_calm {document : Document} (calm : document.flow.all Block.isCalm) :
    nodesCalm (documentNodes document) := by
  have drawn := outlineNodes_calm document.entries
  rw [Document.flow, List.all_append, Bool.and_eq_true, List.all_flatMap] at calm
  obtain ⟨blocks, notes⟩ := calm
  rw [List.all_eq_true] at notes
  rw [documentNodes, nodesCalm_append, blocksNodes_calm drawn blocks,
    footnoteSection_calm drawn notes]
  rfl

theorem flow_calm {document : Document} (free : document.WithoutRawHtml)
    (references : ∀ t, Inline.charRef t ∈ document.spans → '<' ∉ t ∧ '>' ∉ t) :
    document.flow.all Block.isCalm := by
  rw [List.all_eq_true]
  intro block shown
  have spans : block.spans.all Inline.isCalm := by
    rw [List.all_eq_true]
    intro span inside
    have member : span ∈ document.spans := List.mem_flatMap.mpr ⟨block, shown, inside⟩
    cases span with
    | charRef t =>
      rw [Inline.isCalm, List.all_eq_true]
      intro c here
      have ⟨low, high⟩ := references t member
      have apart : c ≠ '<' ∧ c ≠ '>' :=
        ⟨ne_of_mem_of_not_mem here low, ne_of_mem_of_not_mem here high⟩
      simp [isAngle, apart]
    | rawHtml t => exact absurd member (free.spans t)
    | _ => rfl
  cases block with
  | heading | paragraph => exact spans
  | rawHtml tag html => exact absurd shown (free.blocks tag html)
  | _ => rfl

/-- The page of a document and its outline are well-formed, unless the document passes angle
brackets on as written. -/
theorem render_wellFormed {document : Document} (free : document.WithoutRawHtml)
    (references : ∀ t, Inline.charRef t ∈ document.spans → '<' ∉ t ∧ '>' ∉ t) :
    WellFormed (render document) ∧ WellFormed (renderOutline document.entries) := by
  have calm := flow_calm free references
  exact ⟨writeNodes_wellFormed (documentNodes_calm calm),
    writeNodes_wellFormed (outlineNodes_calm document.entries)⟩

def hostileDocument : Document where
  blocks := [
    .heading 2 ⟨[], [.text "</h2><script>".toList]⟩ "\"><p".toList,
    .outline,
    .list true 3 true [
      ⟨.task true, [
        .referenceDef "r".toList ⟨"<".toList, none⟩,
        .paragraph ⟨[], [
          .link ⟨"\"><".toList, some "</a>\"".toList⟩ [.strong [.charRef "&lt;".toList]],
          .footnoteRef "f".toList 1 true]⟩,
        .code (.fenced (some "\">".toList)) "</code>".toList]⟩,
      ⟨.plain, [.quote [.paragraph ⟨[], [.autolink "a\"@b".toList true, .lineBreak]⟩]]⟩]]
  footnotes := [⟨1, "f".toList, [
    .paragraph ⟨[], [.image ⟨"x\" />".toList, none⟩ "<".toList]⟩,
    .abbreviationDef ">".toList "<".toList]⟩]
  entries := [⟨2, "\"><p".toList, "</a>".toList⟩, ⟨3, "<".toList, []⟩]
  warnings := []

theorem render_wellFormed_hostile :
    hostileDocument.WithoutRawHtml ∧
    (∀ t, Inline.charRef t ∈ hostileDocument.spans → '<' ∉ t ∧ '>' ∉ t) ∧
    WellFormed (render hostileDocument) ∧ WellFormed (renderOutline hostileDocument.entries) := by
  have free : hostileDocument.WithoutRawHtml := by
    constructor <;> simp [hostileDocument, Document.flow, flow, Block.flow, itemsFlow,
      Document.spans, Block.spans, spanFlow, Inline.flow]
  have references (t : Text) (member : Inline.charRef t ∈ hostileDocument.spans) :
      '<' ∉ t ∧ '>' ∉ t := by
    have same : t = "&lt;".toList := by
      simpa [hostileDocument, Document.flow, flow, Block.flow, itemsFlow, Document.spans,
        Block.spans, spanFlow, Inline.flow] using member
    rw [same]
    decide
  exact ⟨free, references, render_wellFormed free references⟩

end Page
end CommentMarkup
