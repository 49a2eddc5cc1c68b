import CommentMarkup.Proofs.Inline.Emphasized
import CommentMarkup.Proofs.Page.Verbatim

/-!
# Code shown verbatim

Any text on one line can stand between two runs of backticks of a length that none of its own runs
has. Its line is a paragraph of one code span, which shows the text: `renderText_codeMarkup`.
-/

namespace CommentMarkup

open Text

def HasTickRun (n : Nat) (t : Text) : Prop :=
  ∃ front back, t = front ++ (List.replicate n tick ++ back) ∧ front.getLast? ≠ some tick ∧
    back.head? ≠ some tick

/-- A text between runs of `n` backticks, set off from them by spaces. -/
def codeMarkup (n : Nat) (t : Text) : Text :=
  List.replicate n tick ++ (' ' :: (t ++ ' ' :: List.replicate n tick))

/-! ### Runs of backticks -/

theorem runLength_append_apart (c : Char) (t : Text) {rest : Text} (apart : rest.head? ≠ some c) :
    runLength c (t ++ rest) = runLength c t := by
  induction t with
  | nil =>
    cases rest with
    | nil => rfl
    | cons d rest =>
      have other : d ≠ c := fun same => apart (congrArg some same)
      simp [runLength, other]
  | cons d t ih =>
    simp only [runLength] at ih
    by_cases same : d = c <;> simp [runLength, same, ih]

theorem runLength_replicate (c : Char) (n : Nat) {rest : Text} (apart : rest.head? ≠ some c) :
    runLength c (List.replicate n c ++ rest) = n := by
  rw [runLength_append_apart c _ apart]
  simp [runLength]

theorem hasTickRun_tail {n : Nat} {c : Char} {t : Text} (other : c ≠ tick)
    (run : HasTickRun n t) : HasTickRun n (c :: t) := by
  obtain ⟨front, back, rfl, before, behind⟩ := run
  refine ⟨c :: front, back, rfl, ?_, behind⟩
  cases front with
  | nil => simpa using other
  | cons d front => simpa using before

/-- A run behind the first one, with other characters between them, is a run of the text. -/
theorem hasTickRun_behind {n : Nat} (m : Nat) (positive : 0 < n) {t : Text}
    (apart : t.head? ≠ some tick) (run : HasTickRun n t) :
    HasTickRun n (List.replicate m tick ++ t) := by
  obtain ⟨front, back, rfl, before, behind⟩ := run
  refine ⟨List.replicate m tick ++ front, back, by rw [List.append_assoc], ?_, behind⟩
  cases front with
  | nil =>
    obtain ⟨k, rfl⟩ := Nat.exists_eq_succ_of_ne_zero (Nat.ne_of_gt positive)
    exact absurd rfl apart
  | cons d front => simpa [List.getLast?_append] using before

/-- The search for a closing run passes over a text without such a run. -/
theorem ticksIndex_append {n : Nat} (positive : 0 < n) {t rest : Text} (none : ¬ HasTickRun n t)
    (apart : rest.head? ≠ some tick) :
    ticksIndex? n (t ++ rest) = (ticksIndex? n rest).map (· + t.length) := by
  fun_induction ticksIndex? n t with
  | case1 => simp
  | case2 cs run same =>
    refine absurd ⟨[], cs.drop (runLength tick cs), ?_, nofun, head_drop_runLength tick cs⟩ none
    rw [List.nil_append, ← same]
    exact (runLength_append_drop tick cs).symm
  | case3 cs run other ih =>
    have whole : List.replicate run tick ++ cs.drop (run - 1) = tick :: cs :=
      runLength_append_drop tick cs
    have length : run + (cs.drop (run - 1)).length = cs.length + 1 := by
      simpa using congrArg List.length whole
    have later : ¬ HasTickRun n (cs.drop (run - 1)) := by
      intro inner
      have first : (cs.drop (run - 1)).head? ≠ some tick := head_drop_runLength tick cs
      exact none (whole ▸ hasTickRun_behind run positive first inner)
    have behind : (cs ++ rest).drop (run - 1) = cs.drop (run - 1) ++ rest :=
      List.drop_append_of_le_length (by omega)
    rw [List.cons_append, ticksIndex?, if_pos rfl, runLength_append_apart tick cs apart]
    dsimp only
    rw [if_neg other, behind, ih later, Option.map_map]
    congr 1
    funext k
    simp only [Function.comp_apply, List.length_cons]
    omega
  | case4 c cs other ih =>
    have later : ¬ HasTickRun n cs := fun inner => none (hasTickRun_tail other inner)
    rw [List.cons_append, ticksIndex?, if_neg other, ih later, Option.map_map]
    rfl

/-! ### Code spans -/

theorem codeText_spaced {t : Text} (filled : ¬ t.isBlank) (feedless : '\n' ∉ t)
    (returnless : '\r' ∉ t) : codeText (' ' :: (t ++ [' '])) = t := by
  have kept : (' ' :: (t ++ [' '])).map (fun c => if c = '\n' ∨ c = '\r' then ' ' else c) =
      ' ' :: (t ++ [' ']) := by
    refine (List.map_congr_left fun c member => if_neg ?_).trans (List.map_id _)
    rintro (rfl | rfl) <;> simp_all
  have ends : Text.endsWith (· == ' ') (' ' :: (t ++ [' '])) :=
    endsWith_iff.mpr ⟨' ' :: t, ' ', rfl, rfl⟩
  have inked : ¬ Text.isBlank (' ' :: (t ++ [' '])) := by
    intro blank
    refine filled (List.all_eq_true.mpr fun c member => ?_)
    exact List.all_eq_true.mp blank c (by simp [member])
  rw [codeText, kept]
  simp [ends, inked, startsWith]

section Markup

variable {n : Nat} (positive : 0 < n) {t : Text} (filled : ¬ t.isBlank) (feedless : '\n' ∉ t)
  (returnless : '\r' ∉ t) (apart : ¬ HasTickRun n t)

include positive apart in
/-- The closing run is the first one of its length. -/
theorem ticksIndex_codeMarkup :
    ticksIndex? n (' ' :: (t ++ ' ' :: List.replicate n tick)) = some (t.length + 2) := by
  have closing : ticksIndex? n (List.replicate n tick) = some 0 := by
    obtain ⟨k, rfl⟩ := Nat.exists_eq_succ_of_ne_zero (Nat.ne_of_gt positive)
    have run : runLength tick (List.replicate k tick ++ []) = k :=
      runLength_replicate tick k (fun same => by cases same)
    rw [List.append_nil] at run
    rw [List.replicate_succ, ticksIndex?, if_pos rfl, run]
    exact if_pos rfl
  have last : ticksIndex? n (' ' :: List.replicate n tick) = some 1 := by
    rw [ticksIndex?, if_neg (by decide), closing]
    rfl
  rw [ticksIndex?, if_neg (by decide), ticksIndex_append positive apart (by simp [tick]), last]
  simp only [Option.map_some, Option.some.injEq]
  omega

include positive filled feedless returnless apart

theorem codeSpan_codeMarkup :
    codeSpan? (codeMarkup n t) = some (t, (codeMarkup n t).length) := by
  have opening : runLength tick (codeMarkup n t) = n := runLength_replicate tick n (by simp [tick])
  have behind : (codeMarkup n t).drop n = ' ' :: (t ++ ' ' :: List.replicate n tick) :=
    List.drop_left' List.length_replicate
  have inside : (' ' :: (t ++ ' ' :: List.replicate n tick)).take (t.length + 2) =
      ' ' :: (t ++ [' ']) := by simp [List.take_append]
  have length : (codeMarkup n t).length = n + (t.length + 2) + n := by
    simp only [codeMarkup, List.length_append, List.length_cons, List.length_replicate]
    omega
  rw [codeSpan?, opening, behind, ticksIndex_codeMarkup positive apart, Option.map_some, inside,
    codeText_spaced filled feedless returnless, length]

/-- The code span is all there is, whatever abbreviations are defined. -/
theorem readInline_codeMarkup (scope : Scope) (notes : Notes) :
    readInline scope (codeMarkup n t) notes = ([.code t], notes) := by
  have span := codeSpan_codeMarkup positive filled feedless returnless apart
  obtain ⟨cs, written⟩ : ∃ cs, codeMarkup n t = tick :: cs := by
    obtain ⟨k, rfl⟩ := Nat.exists_eq_succ_of_ne_zero (Nat.ne_of_gt positive)
    exact ⟨_, rfl⟩
  rw [written] at span ⊢
  have read : lexeme scope.mode none none [] tick cs = .span (.code t) cs.length := by
    rw [lexeme, if_neg (by decide), if_pos rfl, span]
    rfl
  rw [readInline, scan, if_neg (by simp [opensBracket, tick]), read]
  simp [scan, heldPiece, emphasize, pair, flatten, expandAbbreviations, Inline.expand]

end Markup

/-! ### Lines -/

/-- A line between backticks that opens no fence is text: every other rule looks for another
character at its start. -/
theorem isTextLine_ticked {u : Text} (framed : isFramed (tick :: u))
    (unfenced : openFence? Options.default.fence (tick :: u) = none) :
    isTextLine Options.default.fence .document (tick :: u) := by
  have start := trimStart_framed framed
  have ends := trim_framed framed
  have ink : isSpace tick = false := by decide
  have code : isCodeLine (tick :: u) = false := rfl
  have outline : isOutlineLine (tick :: u) = false := by rw [isOutlineLine, ends]; rfl
  have raw : rawTag? (tick :: u) = none := by rw [rawTag?, start]; rfl
  have definition : definitionLine? (tick :: u) = none := by rw [definitionLine?, start]; rfl
  have rule : isRule (tick :: u) = false := by
    have inked : ¬ isSpace tick := by decide
    simp [isRule, inked, show tick ≠ '-' by decide, show tick ≠ '_' by decide,
      show tick ≠ '*' by decide]
  have heading : heading? (tick :: u) = none := by rw [heading?, start]; rfl
  have quote : isQuoteLine (tick :: u) = false := by rw [isQuoteLine, start]; rfl
  have marker : listMarker? (tick :: u) = none := by rw [listMarker?, start]; rfl
  have underline : underline? (tick :: u) = none := by
    have equals : (tick :: u).all (· == '=') = false := rfl
    have hyphens : (tick :: u).all (· == '-') = false := rfl
    simp only [underline?, ends, equals, hyphens, Bool.and_false, Bool.false_eq_true, if_false]
  simp [isTextLine, interruptsParagraph, isBlank, ink, unfenced, code, outline, raw, definition,
    rule, heading, quote, marker, underline]

section Line

variable {n : Nat} (positive : 0 < n) (t : Text)

include positive

theorem codeMarkup_framed : isFramed (codeMarkup n t) := by
  obtain ⟨k, rfl⟩ := Nat.exists_eq_succ_of_ne_zero (Nat.ne_of_gt positive)
  have last : (codeMarkup (k + 1) t).endsWith fun c => !isSpace c := by
    refine endsWith_iff.mpr ⟨List.replicate (k + 1) tick ++ ' ' :: (t ++ ' ' ::
      List.replicate k tick), tick, ?_, by decide⟩
    simp [codeMarkup, List.replicate_succ']
  rw [isFramed, last, Bool.and_true]
  rfl

/-- The backticks behind the text keep the line from opening a fence. -/
theorem openFence_codeMarkup : openFence? Options.default.fence (codeMarkup n t) = none := by
  have start := trimStart_framed (codeMarkup_framed positive t)
  cases lead : dropLead? Options.default.fence (codeMarkup n t) with
  | none => simp only [openFence?, Options.default, start] at lead ⊢; rw [lead]
  | some rest =>
    have inside : rest.contains tick := by
      have whole := dropLead_iff.mp lead
      obtain rfl | rfl | long : n = 1 ∨ n = 2 ∨ 3 ≤ n := by omega
      · simp [codeMarkup, Options.default, tick] at whole
      · simp [codeMarkup, Options.default, tick, List.replicate_succ] at whole
      · obtain ⟨k, rfl⟩ := Nat.exists_eq_add_of_le' long
        have behind : rest = (codeMarkup (k + 3) t).drop 3 := by rw [whole]; rfl
        simp [behind, codeMarkup, List.replicate_succ]
    simp only [openFence?, Options.default, start] at lead ⊢
    rw [lead]
    exact if_pos inside

theorem readDocument_codeMarkup (feedless : '\n' ∉ t) :
    readDocument Options.default.fence (codeMarkup n t) =
      .ok [.paragraph (.unread (codeMarkup n t))] := by
  have framed := codeMarkup_framed positive t
  have whole : '\n' ∉ codeMarkup n t := by simp [codeMarkup, tick, feedless]
  have written : codeMarkup n t ≠ [] := by simp [codeMarkup]
  have text : isTextLine Options.default.fence .document (codeMarkup n t) := by
    obtain ⟨k, rfl⟩ := Nat.exists_eq_succ_of_ne_zero (Nat.ne_of_gt positive)
    exact isTextLine_ticked framed (openFence_codeMarkup positive t)
  rw [readDocument, lines_singleton whole written, readBlocks_text (by simpa using text), paragraph,
    paragraphText_framed (by simp) (by simpa using framed), unlines_singleton]

end Line

/-! ### Pages -/

theorem rendered_code (source t : Text) :
    (Document.mk [.paragraph ⟨source, [.code t]⟩] [] [] []).rendered =
      ⟨"<p><code>".toList ++ escapeText t ++ "</code></p>\n".toList, [], []⟩ := by
  have opening : "<p><code>".toList = Html.openTag .p [] ++ Html.openTag .code [] := by decide
  have closing : "</code></p>\n".toList =
      Html.closeTag .code ++ (Html.closeTag .p ++ Page.lineFeed.write) := by decide
  rw [opening, closing]
  simp only [Document.rendered, Page.render, Page.documentNodes, Page.blocksNodes, Page.blockNodes,
    Page.inlineNodes, Page.spanNodes, Page.footnoteSection, Page.renderOutline, Page.outlineNodes,
    List.isEmpty_nil, if_true, List.append_nil, Html.writeNodes, Html.Node.write, List.append_assoc]

/-- A text between runs of backticks of a length that it does not hold itself is shown as code. -/
theorem renderText_codeMarkup {n : Nat} (positive : 0 < n) {t : Text} (filled : ¬ t.isBlank)
    (feedless : '\n' ∉ t) (returnless : '\r' ∉ t) (apart : ¬ HasTickRun n t) :
    renderText Options.default (codeMarkup n t) =
      .ok ⟨"<p><code>".toList ++ escapeText t ++ "</code></p>\n".toList, [], []⟩ := by
  have read (scope : Scope) (notes : Notes) :
      readInline scope (codeMarkup n t) notes = ([.code t], notes) :=
    readInline_codeMarkup positive filled feedless returnless apart scope notes
  have document : Document.ofText Options.default (codeMarkup n t) =
      .ok ⟨[.paragraph ⟨codeMarkup n t, [.code t]⟩], [], [], []⟩ := by
    rw [Document.ofText, readDocument_codeMarkup positive t feedless]
    exact resolve_paragraph (read _ _)
  rw [renderText, document]
  exact congrArg Except.ok (rendered_code (codeMarkup n t) t)

/-- Runs of one and two backticks, a backslash and a tag between runs of three, which open no
fence. -/
theorem renderText_codeMarkup_runs :
    let t := "\x60\x60*\\ <b>\x60".toList
    0 < 3 ∧ ¬ isBlank t ∧ '\n' ∉ t ∧ '\r' ∉ t ∧ ¬ HasTickRun 3 t ∧
      renderText Options.default ("\x60\x60\x60 ".toList ++ t ++ " \x60\x60\x60".toList) =
        .ok ⟨"<p><code>\x60\x60*\\ &lt;b&gt;\x60</code></p>\n".toList, [], []⟩ := by
  intro t
  have apart : ¬ HasTickRun 3 t := by
    rintro ⟨front, back, parts, _, _⟩
    have inside : List.replicate 3 tick <:+: t := ⟨front, back, by rw [parts, List.append_assoc]⟩
    exact absurd inside (by decide)
  have positive : 0 < 3 := by decide
  have filled : ¬ isBlank t := by decide
  have feedless : '\n' ∉ t := by decide
  have returnless : '\r' ∉ t := by decide
  have shown := renderText_codeMarkup positive filled feedless returnless apart
  exact ⟨positive, filled, feedless, returnless, apart, shown⟩

end CommentMarkup
