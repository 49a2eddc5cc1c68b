import CommentMarkup.Proofs.Page.Links
import CommentMarkup.Proofs.Page.Placed

/-!
# Mail addresses in blocks

A mail address stands on the page of a document if and only if it stands in what one of its blocks
shows by itself: `render_inside`. It stands in the outline if and only if it stands in the text of an
entry: `renderOutline_inside`.
-/

namespace CommentMarkup

open Html Page

def Block.Spells (address : Text) (outline : List Node) : Block → Prop
  | .heading _ content anchor =>
    (∃ a ∈ headingAttributes anchor, address <:+: a.write) ∨
      address <:+: writeNodes (inlineNodes content.spans)
  | .paragraph content => address <:+: writeNodes (inlineNodes content.spans)
  | .code kind literal =>
    (∃ a ∈ codeAttributes kind, address <:+: a.write) ∨ address <:+: escapeText literal
  | .rawHtml _ html => address <:+: html
  | .outline => address <:+: writeNodes outline
  | _ => False

def Spelt (address : Text) (outline : List Node) (blocks : List Block) : Prop :=
  ∃ block ∈ flow blocks, block.Spells address outline

def Silent (address : Text) (attributes : List Attribute) : Prop :=
  ∀ a ∈ attributes, ¬ address <:+: a.write

section Spelt

variable {address : Text} {outline : List Node}

theorem spelt_cons (block : Block) (blocks : List Block) :
    Spelt address outline (block :: blocks) ↔
      (∃ inner ∈ block.flow, inner.Spells address outline) ∨ Spelt address outline blocks := by
  simp only [Spelt, flow_cons, List.mem_append, or_and_right, exists_or]

theorem spelt_append (a b : List Block) :
    Spelt address outline (a ++ b) ↔ Spelt address outline a ∨ Spelt address outline b := by
  induction a with
  | nil => simp [Spelt, flow]
  | cons block a ih => rw [List.cons_append, spelt_cons, ih, spelt_cons, or_assoc]

theorem spelt_leaf {block : Block} (leaf : block.isLeaf) :
    (∃ inner ∈ block.flow, inner.Spells address outline) ↔ block.Spells address outline := by
  rw [Block.flow_leaf leaf]
  simp

theorem spelt_definition {block : Block} (defines : block.isDefinition) (blocks : List Block) :
    Spelt address outline (block :: blocks) ↔ Spelt address outline blocks := by
  have none : ¬ ∃ inner ∈ block.flow, inner.Spells address outline := by
    cases block with
    | abbreviationDef | referenceDef | footnoteDef => simp [Block.flow, Block.Spells]
    | _ => cases defines
  rw [spelt_cons]
  exact or_iff_right none

theorem spelt_shown (blocks : List Block) :
    Spelt address outline (blocks.filter fun block => !block.isDefinition) ↔
      Spelt address outline blocks := by
  induction blocks with
  | nil => rfl
  | cons block blocks ih =>
    by_cases defines : block.isDefinition
    · rw [List.filter_cons_of_neg (by simp [defines]), ih, spelt_definition defines]
    · rw [List.filter_cons_of_pos (by simp [defines]), spelt_cons, ih, spelt_cons]

theorem spelt_definitions {blocks : List Block} (defines : blocks.all Block.isDefinition) :
    ¬ Spelt address outline blocks := by
  have none : (blocks.filter fun block => !block.isDefinition) = [] := by
    simpa [List.filter_eq_nil_iff] using defines
  rw [← spelt_shown, none]
  simp [Spelt, flow]

end Spelt

namespace Page

section Mail

variable {address : Text} (mail : isMailAddress address)

include mail

/-! ### Elements -/

omit mail in
theorem silent_nil : Silent address [] := fun _ none => nomatch none

theorem silent_setting {name : String} (plain : '@' ∉ name.toList) {t : Text} (bare : '@' ∉ t)
    {a : Attribute} (same : a.write = writeAttribute name (.text t)) : Silent address [a] := by
  intro other listed
  rw [List.mem_singleton.mp listed, same]
  exact setting_plain mail plain bare

theorem element_inner (tag : Tag) {attributes : List Attribute}
    (silent : Silent address attributes) (children : List Node) :
    Parts address (Node.element tag attributes children).write
      (address <:+: writeNodes children) := by
  have none : ¬ ∃ a ∈ attributes, address <:+: a.write := by
    rintro ⟨a, listed, inside⟩
    exact silent a listed inside
  exact (element_parts mail tag attributes children).congr (or_iff_right none)

theorem element_silent (tag : Tag) {attributes : List Attribute} {children : List Node} {P : Prop}
    (silent : Silent address attributes) (inner : Closes address (writeNodes children) P) :
    Parts address (Node.element tag attributes children).write P :=
  (element_inner mail tag silent children).congr (inner.inside_iff (mail_filled mail))

omit mail in
theorem node_closes {node : Node} {P : Prop} (parts : Parts address node.write P) :
    Closes address (writeNodes [node]) P := by
  rw [writeNodes_singleton]
  exact parts.closes

omit mail in
theorem nodes_closes {node : Node} {nodes : List Node} {P Q : Prop}
    (first : Parts address node.write P) (others : Closes address (writeNodes nodes) Q) :
    Closes address (writeNodes (node :: nodes)) (P ∨ Q) := by
  rw [writeNodes]
  exact first.closes.append others

theorem line_parts {node : Node} {P : Prop} (parts : Parts address node.write P) :
    Parts address (writeNodes [node, lineFeed]) P := by
  rw [writeNodes, writeNodes_singleton]
  exact (parts.append (lineFeed_parts mail)).congr (by rw [or_false])

theorem blockElement_inner (tag : Tag) {attributes : List Attribute}
    (silent : Silent address attributes) (content : List Node) :
    Parts address (writeNodes (blockElement tag attributes content))
      (address <:+: writeNodes content) := by
  have fed := (lineFeed_parts mail).closes (writeNodes content)
  rw [false_or, ← writeNodes] at fed
  exact (line_parts mail (element_inner mail tag silent (lineFeed :: content))).congr fed

theorem blockElement_parts (tag : Tag) {attributes : List Attribute} {content : List Node}
    {P : Prop} (silent : Silent address attributes)
    (inner : Closes address (writeNodes content) P) :
    Parts address (writeNodes (blockElement tag attributes content)) P :=
  (blockElement_inner mail tag silent content).congr (inner.inside_iff (mail_filled mail))

/-! ### Outlines -/

theorem entryLink_parts {entry : Entry} (plain : '@' ∉ entry.anchor) :
    Parts address (entryLink entry).write (address <:+: escapeText entry.text) := by
  have silent : Silent address [.href (fragment entry.anchor)] :=
    silent_setting mail (by decide) (by simp [plain]) rfl
  have whole := element_inner mail .a silent [.text entry.text]
  rwa [writeNodes_singleton, Node.write] at whole

omit mail

mutual

theorem outlineItem_parts (mail : isMailAddress address) (node : OutlineNode)
    (plain : ∀ entry ∈ node.listed, '@' ∉ entry.anchor) :
    Parts address (writeNodes (outlineItem node))
      (∃ entry ∈ node.listed, address <:+: escapeText entry.text) := by
  match node with
  | .node entry [] =>
    have link := entryLink_parts mail (plain entry List.mem_cons_self)
    have item := line_parts mail
      (element_silent mail .li silent_nil (node_closes link))
    exact item.congr (by simp [OutlineNode.listed, listed])
  | .node entry (child :: children) =>
    have link := entryLink_parts mail (plain entry List.mem_cons_self)
    have inner := outlineItem_parts mail child fun entry member =>
      plain entry (List.mem_cons_of_mem _ (List.mem_append_left _ member))
    have others := outlineItems_closes mail children fun entry member =>
      plain entry (List.mem_cons_of_mem _ (List.mem_append_right _ member))
    have below := inner.closes.append others
    rw [← writeNodes_append] at below
    have list := blockElement_parts mail .ul silent_nil below
    have item := line_parts mail (element_silent mail .li silent_nil
      (nodes_closes link (nodes_closes (lineFeed_parts mail) list.closes)))
    refine item.congr ?_
    simp [OutlineNode.listed, listed, or_and_right, exists_or]

theorem outlineItems_closes (mail : isMailAddress address) (nodes : List OutlineNode)
    (plain : ∀ entry ∈ listed nodes, '@' ∉ entry.anchor) :
    Closes address (writeNodes (outlineItems nodes))
      (∃ entry ∈ listed nodes, address <:+: escapeText entry.text) := by
  match nodes with
  | [] => exact Closes.nil.congr (by simp [listed])
  | node :: nodes =>
    have first := outlineItem_parts mail node fun entry member =>
      plain entry (List.mem_append_left _ member)
    have others := outlineItems_closes mail nodes fun entry member =>
      plain entry (List.mem_append_right _ member)
    rw [outlineItems, writeNodes_append]
    exact (first.closes.append others).congr (by simp [listed, or_and_right, exists_or])

end

include mail

theorem renderOutline_inside {entries : List Entry}
    (plain : ∀ entry ∈ entries, '@' ∉ entry.anchor) :
    address <:+: renderOutline entries ↔
      ∃ entry ∈ entries, address <:+: escapeText entry.text := by
  have none : ¬ address <:+: [] := mail_not_inside mail (by simp)
  have items := outlineItems_closes mail (nest entries) (by rwa [listed_nest])
  rw [listed_nest] at items
  rw [renderOutline, outlineNodes]
  split
  · rename_i empty
    rw [List.isEmpty_iff.mp empty, writeNodes, iff_false_intro none]
    simp
  · exact (blockElement_parts mail .ul silent_nil items).closes.inside_iff (mail_filled mail)

/-! ### Blocks -/

theorem listTag_silent (ordered : Bool) (start : Nat) :
    Silent address (listTag ordered start).2 := by
  have digits : '@' ∉ Text.ofNat start := at_notMem_of_alphanum (ofNat_alphanum start)
  unfold listTag
  split
  · exact silent_nil
  · split
    · exact silent_nil
    · exact silent_setting mail (by decide) digits rfl

theorem bulletAttributes_silent (bullet : Bullet) : Silent address (bulletAttributes bullet) := by
  cases bullet with
  | plain => exact silent_nil
  | task checked => exact silent_setting mail (by decide) (by decide) rfl

theorem bulletNodes_closes (bullet : Bullet) :
    Closes address (writeNodes (bulletNodes bullet)) False := by
  cases bullet with
  | plain => exact .nil
  | task checked =>
    have plain : ∀ a ∈ Attribute.type "checkbox".toList :: .disabled ::
        if checked then [Attribute.checked] else [], '@' ∉ a.write := by
      cases checked <;> decide
    refine (node_closes (void_parts mail .input _)).congr (iff_false_intro ?_)
    rintro ⟨a, listed, inside⟩
    exact mail_not_inside mail (plain a listed) inside

theorem bulletSpace_closes (bullet : Bullet) :
    Closes address (writeNodes (bulletSpace bullet)) False := by
  cases bullet with
  | plain => exact .nil
  | task checked => exact node_closes (mail_cut mail (c := ' ') (by decide) (by decide))

omit mail

variable {outline : List Node}

mutual

theorem blockNodes_closes (mail : isMailAddress address) (block : Block) :
    Closes address (writeNodes (blockNodes outline block))
      (∃ inner ∈ block.flow, inner.Spells address outline) := by
  cases block with
  | heading level content anchor =>
    rw [spelt_leaf rfl]
    exact (line_parts mail (element_parts mail _ _ _)).closes
  | paragraph content =>
    rw [spelt_leaf rfl]
    exact (line_parts mail (element_inner mail .p silent_nil _)).closes
  | list ordered start tight items =>
    have inner := itemsNodes_closes mail tight items
    refine (blockElement_parts mail _ (listTag_silent mail ordered start) inner).closes.congr ?_
    simp [Block.flow, Block.Spells]
  | quote blocks =>
    have inner := blocksNodes_closes mail blocks
    refine (blockElement_parts mail .blockquote silent_nil inner).closes.congr ?_
    simp [Block.flow, Block.Spells, Spelt]
  | code kind literal =>
    have code := element_parts mail .code (codeAttributes kind) [.text literal]
    rw [writeNodes_singleton, Node.write] at code
    rw [spelt_leaf rfl]
    exact (line_parts mail (element_silent mail .pre silent_nil (node_closes code))).closes
  | rule =>
    rw [spelt_leaf rfl]
    exact (line_parts mail (void_parts mail .hr [])).closes.congr (by simp [Block.Spells])
  | rawHtml tag html =>
    rw [spelt_leaf rfl, blockNodes, writeNodes, writeNodes_singleton]
    exact ((lineFeed_parts mail).after html).congr (by simp [Block.Spells])
  | outline =>
    rw [spelt_leaf rfl, blockNodes]
    split
    · rename_i empty
      have none : ¬ address <:+: [] := mail_not_inside mail (by simp)
      rw [List.isEmpty_iff.mp empty]
      exact Closes.nil.congr (iff_of_false id none)
    · have silent : Silent address [.className "toc".toList] :=
        silent_setting mail (by decide) (by decide) rfl
      exact (blockElement_inner mail .div silent outline).closes
  | _ =>
    rw [spelt_leaf rfl]
    exact .nil

theorem blocksNodes_closes (mail : isMailAddress address) (blocks : List Block) :
    Closes address (writeNodes (blocksNodes outline blocks)) (Spelt address outline blocks) := by
  cases blocks with
  | nil => exact Closes.nil.congr (by simp [Spelt, flow])
  | cons block blocks =>
    rw [blocksNodes, writeNodes_append, spelt_cons]
    exact (blockNodes_closes mail block).append (blocksNodes_closes mail blocks)

theorem itemBody_inside (mail : isMailAddress address) (bullet : Bullet) (tight : Bool)
    (blocks : List Block) :
    address <:+: writeNodes (itemBody outline bullet tight blocks) ↔
      Spelt address outline blocks := by
  have none : ¬ address <:+: [] := mail_not_inside mail (by simp)
  cases blocks with
  | nil => exact iff_of_false none (by simp [Spelt, flow])
  | cons block blocks =>
    have here := blockNodes_closes mail block
    have later := blocksNodes_closes mail blocks
    have both := here.append later
    rw [← writeNodes_append, ← spelt_cons] at both
    have fed := (nodes_closes (lineFeed_parts mail) both).inside_iff (mail_filled mail)
    rw [false_or] at fed
    cases block with
    | abbreviationDef | referenceDef | footnoteDef =>
      rw [itemBody, itemBody_inside mail bullet tight blocks, spelt_definition rfl]
    | paragraph content =>
      rw [itemBody]
      split
      · rw [List.append_assoc, writeNodes_append, bulletSpace_closes mail bullet, false_or,
          writeNodes_append, spelt_cons, spelt_leaf rfl]
        split
        · rename_i defines
          rw [writeNodes, List.append_nil]
          exact (or_iff_left (spelt_definitions defines)).symm
        · have behind := lineFeed_parts mail (writeNodes (inlineNodes content.spans))
            (writeNodes (blocksNodes outline blocks))
          rw [List.append_assoc, ← writeNodes, false_or, later.inside_iff (mail_filled mail)] at behind
          exact behind
      · exact fed
    | _ => exact fed

theorem itemsNodes_closes (mail : isMailAddress address) (tight : Bool)
    (items : List (Item Block)) :
    Closes address (writeNodes (itemsNodes outline tight items))
      (∃ inner ∈ itemsFlow items, inner.Spells address outline) := by
  cases items with
  | nil => exact Closes.nil.congr (by simp [itemsFlow])
  | cons item items =>
    obtain ⟨bullet, blocks⟩ := item
    have body := itemBody_inside mail bullet tight blocks
    have others := itemsNodes_closes mail tight items
    have content := bulletNodes_closes mail bullet
      (writeNodes (itemBody outline bullet tight blocks))
    rw [false_or, ← writeNodes_append, body] at content
    have element := (element_inner mail .li (bulletAttributes_silent mail bullet)
      (bulletNodes bullet ++ itemBody outline bullet tight blocks)).congr content
    rw [itemsNodes]
    refine (nodes_closes element (nodes_closes (lineFeed_parts mail) others)).congr ?_
    simp [Spelt, itemsFlow, or_and_right, exists_or]

end

/-! ### Documents -/

include mail

theorem backLink_parts (number : Nat) : Parts address (backLink number).write False := by
  have digits : '@' ∉ Text.ofNat number := at_notMem_of_alphanum (ofNat_alphanum number)
  have silent : Silent address
      [.href (fragment (backAnchor number)), .className "footnote-backref".toList] := by
    intro a listed
    rcases List.mem_cons.mp listed with rfl | listed
    · exact setting_plain mail (by decide) (by simp [backAnchor, digits])
    · rw [List.mem_singleton.mp listed]
      exact setting_plain mail (by decide) (by decide)
  have arrow : ¬ address <:+: writeNodes [.verbatim "&#8617;".toList] :=
    mail_not_inside mail (by decide)
  exact (element_inner mail .a silent _).congr (iff_false_intro arrow)

theorem footnoteBody_closes (outline : List Node) (note : Footnote) :
    Closes address (writeNodes (footnoteBody outline note))
      (Spelt address outline note.blocks) := by
  have shown : Spelt address outline (note.blocks.filter fun block => !block.isDefinition) ↔
      Spelt address outline note.blocks := spelt_shown note.blocks
  have back := backLink_parts mail note.number
  unfold footnoteBody
  generalize (note.blocks.filter fun block => !block.isDefinition) = blocks at shown ⊢
  dsimp only
  split
  · rename_i last ends
    have space : Parts address (Node.text [' ']).write False :=
      mail_cut mail (c := ' ') (by decide) (by decide)
    have tail : Parts address (writeNodes [.text [' '], backLink note.number]) False := by
      rw [writeNodes, writeNodes_singleton]
      exact (space.append back).congr (by rw [or_false])
    have inner := tail.after (writeNodes (inlineNodes last.spans))
    rw [← writeNodes_append, or_false] at inner
    have front : Closes address (writeNodes (blocksNodes outline blocks.dropLast))
        (Spelt address outline blocks.dropLast) := blocksNodes_closes mail _
    have paragraph := line_parts mail (element_silent mail .p silent_nil inner)
    rw [← List.dropLast_append_getLast? _ ends, spelt_append, spelt_cons, spelt_leaf rfl] at shown
    rw [← shown, writeNodes_append]
    refine (front.append paragraph.closes).congr ?_
    simp [Spelt, flow, Block.Spells]
  · rw [← shown, writeNodes_append]
    refine ((blocksNodes_closes mail blocks).append (line_parts mail back).closes).congr ?_
    rw [or_false]

theorem footnoteSection_closes (outline : List Node) (footnotes : List Footnote) :
    Closes address (writeNodes (footnoteSection outline footnotes))
      (∃ note ∈ footnotes, Spelt address outline note.blocks) := by
  have items : Closes address (writeNodes (footnotes.flatMap (footnoteItem outline)))
      (∃ note ∈ footnotes, Spelt address outline note.blocks) := by
    induction footnotes with
    | nil => exact Closes.nil.congr (by simp)
    | cons note footnotes ih =>
      have digits : '@' ∉ Text.ofNat note.number :=
        at_notMem_of_alphanum (ofNat_alphanum note.number)
      have silent : Silent address [.id (footnoteAnchor note.number)] :=
        silent_setting mail (by decide) (by simp [footnoteAnchor, digits]) rfl
      have item := blockElement_parts mail .li silent (footnoteBody_closes mail outline note)
      rw [List.flatMap_cons, writeNodes_append, List.exists_mem_cons_iff]
      exact item.closes.append ih
  unfold footnoteSection
  split
  · rename_i none
    rw [List.isEmpty_iff.mp none]
    exact Closes.nil.congr (by simp)
  · have silent : Silent address [.className "footnotes".toList] :=
      silent_setting mail (by decide) (by decide) rfl
    have list := blockElement_parts mail .ol silent_nil items
    have content := nodes_closes (void_parts mail .hr [])
      (nodes_closes (lineFeed_parts mail) list.closes)
    exact (blockElement_parts mail .div silent content).closes.congr (by simp)

/-- An address stands on a page if and only if it stands in what one of the blocks shows. -/
theorem render_inside (document : Document) :
    address <:+: render document ↔
      ∃ block ∈ document.flow, block.Spells address (outlineNodes document.entries) := by
  have body : Closes address
      (writeNodes (blocksNodes (outlineNodes document.entries) document.blocks))
      (Spelt address (outlineNodes document.entries) document.blocks) :=
    blocksNodes_closes mail document.blocks
  have notes := footnoteSection_closes mail (outlineNodes document.entries) document.footnotes
  have whole := (body.append notes).inside_iff (mail_filled mail)
  rw [← writeNodes_append] at whole
  rw [render, documentNodes, whole]
  simp only [Document.flow, Spelt, List.mem_append, List.mem_flatMap, or_and_right, exists_or]
  refine or_congr_right ⟨?_, ?_⟩
  · rintro ⟨note, listed, block, member, spells⟩
    exact ⟨block, ⟨note, listed, member⟩, spells⟩
  · rintro ⟨block, ⟨note, listed, member⟩, spells⟩
    exact ⟨note, listed, block, member, spells⟩

end Mail

end Page

end CommentMarkup
