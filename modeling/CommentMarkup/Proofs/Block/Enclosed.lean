import CommentMarkup.Proofs.Block.Balance
import CommentMarkup.Proofs.Block.Literal
import CommentMarkup.Proofs.Html.Neutralized

/-!
# Raw blocks inside raw blocks

Between the lines that open and close a raw block any lines without a tag may stand, blank ones too,
and further blocks of the same tag. `readDocument_rawBlock` says that all of this is passed through
as written, as one block.
-/

namespace CommentMarkup

open Text

def openingLine (tag : Text) : Text := '<' :: (tag ++ ['>'])

def closingLine (tag : Text) : Text := '<' :: '/' :: (tag ++ ['>'])

def rawBlock (tag : Text) (inner : List Text) : List Text :=
  openingLine tag :: (inner ++ [closingLine tag])

theorem rawBlock_append (tag : Text) (inner rest : List Text) :
    rawBlock tag inner ++ rest = openingLine tag :: (inner ++ closingLine tag :: rest) := by
  simp [rawBlock]

theorem unlines_rawBlock (tag : Text) (inner : List Text) :
    unlines (rawBlock tag inner) =
      openingLine tag ++ '\n' :: (literalText inner ++ closingLine tag) := by
  rw [rawBlock, ← List.cons_append, unlines_concat]
  simp [literalText]

/-- What may stand inside a raw block: lines without a tag, and raw blocks of the same tag. -/
inductive RawContent (tag : Text) : List Text → Prop
  | nil : RawContent tag []
  | line {l : Text} {ls : List Text} (line : IsLine l) (plain : '<' ∉ l)
      (rest : RawContent tag ls) : RawContent tag (l :: ls)
  | block {inner ls : List Text} (inside : RawContent tag inner) (rest : RawContent tag ls) :
      RawContent tag (rawBlock tag inner ++ ls)

/-! ### Tags of blocks -/

/-- What holds of the eight tags one by one holds of every block tag. -/
@[elab_as_elim]
theorem forall_blockTag {motive : Text → Prop} {tag : Text} (known : isBlockTag tag)
    (each : ∀ tag ∈ blockTags, motive tag) : motive tag :=
  each tag (by simpa [isBlockTag] using known)

section Tag

variable {tag : Text} (known : isBlockTag tag)

include known

theorem rawTag_openingLine : rawTag? (openingLine tag) = some tag :=
  forall_blockTag known (by decide)

theorem isLine_openingLine : IsLine (openingLine tag) :=
  ⟨forall_blockTag known (by decide), forall_blockTag known (by decide)⟩

theorem isLine_closingLine : IsLine (closingLine tag) :=
  ⟨forall_blockTag known (by decide), forall_blockTag known (by decide)⟩

theorem depthChange_openingLine : depthChange tag (toLower (openingLine tag)) = 1 :=
  forall_blockTag known (by decide)

theorem depthChange_closingLine : depthChange tag (toLower (closingLine tag)) = -1 :=
  forall_blockTag known (by decide)

theorem scanTag_openingLine (t : Text) :
    scanTag (openingLine tag ++ t) = some (.tag tag, tag.length + 2) := by
  refine forall_blockTag known ?_
  simp only [blockTags, List.map_cons, List.map_nil, List.forall_mem_cons]
  exact ⟨rfl, rfl, rfl, rfl, rfl, rfl, rfl, rfl, nofun⟩

theorem scanTag_closingLine (t : Text) :
    scanTag (closingLine tag ++ t) = some (.tag tag, tag.length + 3) := by
  refine forall_blockTag known ?_
  simp only [blockTags, List.map_cons, List.map_nil, List.forall_mem_cons]
  exact ⟨rfl, rfl, rfl, rfl, rfl, rfl, rfl, rfl, nofun⟩

end Tag

/-! ### The end of the block -/

theorem depthChange_plain {l : Text} (plain : '<' ∉ l) (tag : Text) :
    depthChange tag (toLower l) = 0 := by
  induction l with
  | nil => rfl
  | cons c l ih =>
    rw [List.mem_cons, not_or] at plain
    have lower : c.toLower ≠ '<' := fun same => plain.1 (toLower_eq (by decide) same).symm
    have step : depthChange tag (toLower (c :: l)) =
        (if c.toLower = '<' then tagWeight tag (toLower l) else 0) + depthChange tag (toLower l) :=
      rfl
    rw [step, if_neg lower, ih plain.2]
    rfl

section Extent

variable {tag : Text} {inner : List Text} (known : isBlockTag tag)

include known

/-- Inside the content no depth falls to zero, and behind it the depth is what it was before. -/
theorem rawExtent_content (content : RawContent tag inner) {depth : Int} (deep : 0 < depth)
    (rest : List Text) :
    rawExtent? tag depth (inner ++ rest) =
      (rawExtent? tag depth rest).map (· + inner.length) := by
  induction content generalizing depth rest with
  | nil => simp
  | @line l ls _ plain _ ih =>
    have inside : ¬ depth ≤ 0 := by omega
    rw [List.cons_append, rawExtent?, depthChange_plain plain, Int.add_zero, if_neg inside, ih deep,
      Option.map_map]
    rfl
  | @block inner ls _ _ ihInside ihRest =>
    have opened : ¬ depth + 1 ≤ 0 := by omega
    have closed : ¬ depth ≤ 0 := by omega
    rw [List.append_assoc, rawBlock_append, rawExtent?, depthChange_openingLine known, if_neg opened,
      ihInside (by omega), rawExtent?, depthChange_closingLine known, Int.add_neg_cancel_right, if_neg closed,
      ihRest deep]
    cases rawExtent? tag depth rest with
    | none => rfl
    | some n =>
      simp only [Option.map_some, rawBlock, List.length_append, List.length_cons, List.length_nil]
      congr 1
      omega

theorem rawExtent_rawBlock (content : RawContent tag inner) (rest : List Text) :
    rawExtent? tag 0 (rawBlock tag inner ++ rest) = some (inner.length + 2) := by
  rw [rawBlock_append, rawExtent?, depthChange_openingLine known, if_neg (by decide),
    rawExtent_content known content (by decide), rawExtent?, depthChange_closingLine known,
    if_pos (by decide), Option.map_some, Option.map_some]
  congr 1
  omega

end Extent

/-! ### What becomes of the text -/

theorem neutralizeTags_plain {l : Text} (plain : '<' ∉ l) (t : Text) :
    neutralizeTags (l ++ t) = l ++ neutralizeTags t := by
  induction l with
  | nil => rfl
  | cons c l ih =>
    rw [List.mem_cons, not_or] at plain
    rw [List.cons_append, neutralizeTags_cons (scanTag_other (Ne.symm plain.1) _), ih plain.2,
      List.cons_append]

theorem neutralizeTags_feed (t : Text) : neutralizeTags ('\n' :: t) = '\n' :: neutralizeTags t :=
  neutralizeTags_cons (scanTag_other (by decide) t)

section Kept

variable {tag : Text} {inner : List Text} (known : isBlockTag tag)

include known

theorem neutralizeTags_openingLine (t : Text) :
    neutralizeTags (openingLine tag ++ t) = openingLine tag ++ neutralizeTags t := by
  have allowed : isAllowedTag tag := by simp [isAllowedTag, known]
  have whole : openingLine tag ++ t = '<' :: (tag ++ '>' :: t) := by simp [openingLine]
  rw [neutralizeTags_tag whole (scanTag_openingLine known t), if_pos allowed]
  rfl

theorem neutralizeTags_closingLine (t : Text) :
    neutralizeTags (closingLine tag ++ t) = closingLine tag ++ neutralizeTags t := by
  have allowed : isAllowedTag tag := by simp [isAllowedTag, known]
  have whole : closingLine tag ++ t = '<' :: (('/' :: tag) ++ '>' :: t) := by simp [closingLine]
  rw [neutralizeTags_tag whole (scanTag_closingLine known t), if_pos allowed]
  rfl

theorem neutralizeTags_content (content : RawContent tag inner) (t : Text) :
    neutralizeTags (literalText inner ++ t) = literalText inner ++ neutralizeTags t := by
  induction content generalizing t with
  | nil => rfl
  | @line l ls _ plain _ ih =>
    have whole (u : Text) : literalText (l :: ls) ++ u = l ++ '\n' :: (literalText ls ++ u) := by
      simp [literalText]
    rw [whole, neutralizeTags_plain plain, neutralizeTags_feed, ih, whole]
  | @block inner ls _ _ ihInside ihRest =>
    have whole (u : Text) : literalText (rawBlock tag inner ++ ls) ++ u =
        openingLine tag ++ '\n' :: (literalText inner ++
          (closingLine tag ++ '\n' :: (literalText ls ++ u))) := by
      simp [literalText, rawBlock]
    rw [whole, neutralizeTags_openingLine known, neutralizeTags_feed, ihInside,
      neutralizeTags_closingLine known, neutralizeTags_feed, ihRest, whole]

theorem neutralizeTags_rawBlock (content : RawContent tag inner) :
    neutralizeTags (unlines (rawBlock tag inner)) = unlines (rawBlock tag inner) := by
  have closing := neutralizeTags_closingLine known []
  rw [neutralizeTags, List.append_nil] at closing
  rw [unlines_rawBlock, neutralizeTags_openingLine known, neutralizeTags_feed,
    neutralizeTags_content known content, closing]

end Kept

/-! ### Whole texts -/

section Whole

variable {tag : Text} {inner : List Text} (known : isBlockTag tag)
  (content : RawContent tag inner)

include known content

theorem RawContent.isLine : ∀ l ∈ inner, IsLine l := by
  induction content with
  | nil => nofun
  | line line _ _ ih => exact List.forall_mem_cons.mpr ⟨line, ih⟩
  | block _ _ ihInside ihRest =>
    simp only [rawBlock, List.cons_append, List.append_assoc, List.forall_mem_cons,
      List.forall_mem_append, List.nil_append]
    exact ⟨isLine_openingLine known, ihInside, isLine_closingLine known, ihRest⟩

theorem lines_rawBlock (rest : Text) :
    lines (unlines (rawBlock tag inner) ++ '\n' :: rest) = rawBlock tag inner ++ lines rest := by
  have each : ∀ l ∈ rawBlock tag inner, IsLine l := by
    simp only [rawBlock, List.forall_mem_cons, List.forall_mem_append]
    exact ⟨isLine_openingLine known, content.isLine known, isLine_closingLine known, nofun⟩
  have whole : unlines (rawBlock tag inner) ++ '\n' :: rest =
      literalText (rawBlock tag inner) ++ rest := by
    rw [unlines_rawBlock]
    simp [literalText, rawBlock]
  rw [whole, lines_literalText each]

theorem blockAt_rawBlock (ctx : Context) (ls : List Text) :
    blockAt Options.default.fence ctx (openingLine tag) (inner ++ closingLine tag :: ls) =
      .leaf (.rawHtml tag (unlines (rawBlock tag inner))) (inner.length + 1) := by
  have closes := rawExtent_rawBlock known content ls
  have taken : (rawBlock tag inner ++ ls).take (inner.length + 2) = rawBlock tag inner := by
    rw [show inner.length + 2 = (rawBlock tag inner).length by simp [rawBlock]]
    exact List.take_left
  rw [rawBlock_append] at closes taken
  have found := rawAt_closed (rawTag_openingLine known) closes
  rw [taken, neutralizeTags_rawBlock known content] at found
  apply blockAt_raw _ _ _ found
  · exact forall_blockTag known (by decide)
  · exact forall_blockTag known (by decide)
  · exact forall_blockTag known (by decide)

/-- A raw block with any such content is one block, as it is written, and what stands behind it is
read on its own. -/
theorem readDocument_rawBlock (rest : Text) :
    readDocument Options.default.fence (unlines (rawBlock tag inner) ++ '\n' :: rest) =
      match readDocument Options.default.fence rest with
      | .ok blocks => .ok (.rawHtml tag (unlines (rawBlock tag inner)) :: blocks)
      | .error ⟨line, reason⟩ => .error ⟨line + (inner.length + 2), reason⟩ := by
  have filled : ¬ isBlank (openingLine tag) := forall_blockTag known (by decide)
  have step := blockAt_rawBlock known content .document (lines rest)
  have behind : (inner ++ closingLine tag :: lines rest).drop (inner.length + 1) = lines rest := by
    simp
  have cut : lines (unlines (rawBlock tag inner) ++ '\n' :: rest) =
      openingLine tag :: (inner ++ closingLine tag :: lines rest) := by
    rw [lines_rawBlock known content, rawBlock_append]
  rw [readDocument, cut, readBlocks_leaf filled step, behind, readBlocks_below, readDocument]
  cases readBlocks Options.default.fence .document 1 (lines rest) <;> rfl

end Whole

def listingSample : List Text :=
  ["# a".toList, [], "<ul>".toList, "- b".toList, "</ul>".toList]

theorem rawContent_listingSample : RawContent "ul".toList listingSample := by
  have item : RawContent "ul".toList ["- b".toList] :=
    .line ⟨by decide, by decide⟩ (by decide) .nil
  have block : RawContent "ul".toList (rawBlock "ul".toList ["- b".toList] ++ []) :=
    .block item .nil
  exact .line ⟨by decide, by decide⟩ (by decide)
    (.line ⟨by decide, by decide⟩ (by decide) block)

theorem readDocument_rawBlock_listing :
    readDocument Options.default.fence "<ul>\n# a\n\n<ul>\n- b\n</ul>\n</ul>\nx".toList =
      .ok [.rawHtml "ul".toList "<ul>\n# a\n\n<ul>\n- b\n</ul>\n</ul>".toList,
        paragraph ["x".toList]] := by
  have rest : readDocument Options.default.fence "x".toList = .ok [paragraph ["x".toList]] := by
    have step : blockAt Options.default.fence .document "x".toList [] =
        .leaf (paragraph ["x".toList]) 0 := blockAt_text (by decide +kernel) rfl
    exact readDocument_single (by decide) (by decide) step
  have known : isBlockTag "ul".toList := by decide
  have whole := readDocument_rawBlock known rawContent_listingSample "x".toList
  rw [rest] at whole
  exact whole

end CommentMarkup
