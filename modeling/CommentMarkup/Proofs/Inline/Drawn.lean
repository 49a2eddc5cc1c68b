import CommentMarkup.Proofs.Html.CharRef
import CommentMarkup.Proofs.Inline.Delimited
import CommentMarkup.Proofs.Inline.Lexeme
import CommentMarkup.Proofs.Inline.Wording

/-!
# Spans drawn from their text

All that scanning a text shows is drawn from the text, each string out of characters of its own:
`scan_draws`. Mail addresses are drawn from it too, though they are not part of the wording.
-/

namespace CommentMarkup

def Inline.mail? : Inline → Option Text
  | .autolink target true => some target
  | _ => none

theorem lasting_mail : Lasting Inline.mail? :=
  ⟨fun _ => rfl, fun _ => rfl, fun _ => rfl, fun _ => rfl, fun _ _ => rfl, fun _ _ _ => rfl⟩

def mailCost (μ : Text → Nat) (spans : List Inline) : Nat :=
  sumOver μ (inventory Inline.mail? spans)

def pieceMailCost (μ : Text → Nat) (pieces : List Piece) : Nat :=
  sumOver μ (pieceInventory Inline.mail? pieces)

theorem mailCost_emphasize (μ : Text → Nat) (pieces : List Piece) :
    mailCost μ (emphasize pieces) = pieceMailCost μ pieces := by
  rw [mailCost, inventory_emphasize lasting_mail.textless, pieceMailCost]

theorem pieceMailCost_span (μ : Text → Nat) (span : Inline) (pieces : List Piece) :
    pieceMailCost μ (.span span :: pieces) = mailCost μ [span] + pieceMailCost μ pieces := by
  rw [pieceMailCost, pieceInventory_span, sumOver_append, mailCost, pieceMailCost]

theorem pieceMailCost_held (μ : Text → Nat) (held : Text) (pieces : List Piece) :
    pieceMailCost μ (heldPiece held ++ pieces) = pieceMailCost μ pieces := by
  rw [pieceMailCost, pieceInventory_held lasting_mail.textless, pieceMailCost]

theorem pieceWording_held {given : Text → Bool} (held : Text) :
    pieceWording given (heldPiece held) = held.reverse := by
  unfold heldPiece
  split
  · rename_i empty
    rw [List.isEmpty_iff.mp empty]
    rfl
  · rw [pieceWording_cons, Piece.wording, Inline.wording]
    exact List.append_nil _

/-! ### Lexemes -/

section Lexemes

variable {μ : Text → Nat} (given : Text → Bool)

/-- What a lexeme shows is drawn from the characters that it takes. -/
def Lexeme.Draws (μ : Text → Nat) (c : Char) (cs : Text) : Lexeme → Prop
  | .text shown more => shown ++ cs.drop more = c :: cs
  | .escape e => c = '\\' ∧ cs.head? = some e
  | .span s more => Within μ (mailCost μ [s]) (s.wording given) (c :: cs.take more)
  | .run r more => r.wording ++ cs.drop more = c :: cs
  | .lineBreak _ => True

variable {given} (measure : InkMeasure μ)

theorem take_prefix_pred (c : Char) (cs : Text) (n : Nat) :
    (c :: cs).take n <+: c :: cs.take (n - 1) := by
  cases n with
  | zero => exact List.nil_prefix
  | succ n => exact List.prefix_refl _

theorem take_eq_pred {n : Nat} (taken : 0 < n) (c : Char) (cs : Text) :
    (c :: cs).take n = c :: cs.take (n - 1) := by
  obtain ⟨k, rfl⟩ := Nat.exists_eq_add_one_of_ne_zero (Nat.pos_iff_ne_zero.mp taken)
  rfl

theorem charRef_pos {t : Text} {n : Nat} (h : CharRef.length? t = some n) : 0 < n := by
  obtain ⟨ref, _, rfl, form⟩ := CharRef.length_eq_some_iff.mp h
  obtain ⟨body, rfl, _⟩ := form.body
  exact Nat.succ_pos _

theorem rawInline_draws {c : Char} {cs : Text} {span : Inline} {n : Nat}
    (h : rawInline? (c :: cs) = some (span, n)) :
    Within μ (mailCost μ [span]) (span.wording given) (c :: cs.take (n - 1)) := by
  obtain ⟨⟨markup, k⟩, found, h⟩ := Option.map_eq_some_iff.mp h
  cases h
  rw [← take_eq_pred (scanTag_pos found)]
  split
  · exact .refl _
  · exact .refl _

include measure

theorem autolink_draws {c : Char} {cs : Text} {span : Inline} {n : Nat}
    (h : autolink? (c :: cs) = some (span, n)) :
    Within μ (mailCost μ [span]) (span.wording given) (c :: cs.take (n - 1)) := by
  unfold autolink? at h
  split at h
  · rename_i rest eq
    cases eq
    generalize address : (cs.takeWhile fun c => c != '>' && c != '\n' && c != '<') = target at h
    have part : target <:+: '<' :: cs.take (target.length + 1) := by
      refine List.IsInfix.trans ?_ (List.suffix_cons _ _).isInfix
      have front : target <+: cs := by
        rw [← address]
        exact List.takeWhile_prefix _
      exact (List.prefix_take_iff.mpr ⟨front, Nat.le_succ _⟩).isInfix
    have drawn := measure.le_of_infix part
    dsimp only at h
    split at h
    · cases h
    · split at h
      · cases h
        exact .spaced measure ((Nat.zero_add _).trans_le drawn)
      · split at h
        · cases h
          exact .spaced measure drawn
        · cases h
  · cases h

theorem lexeme_draws (given : Text → Bool) (mode : EmphasisMode) (prev escaped : Option Char)
    (held : Text) (c : Char)
    (cs : Text) : (lexeme mode prev escaped held c cs).Draws given μ c cs := by
  have starts := lexeme_starts mode prev escaped held c cs
  generalize lexeme mode prev escaped held c cs = found at starts ⊢
  cases starts with
  | backslash | plain => rfl
  | escape slash first => exact ⟨slash, first⟩
  | brokenLine | lineFeed => trivial
  | @code _ _ n found =>
    have drawn := measure.le_of_infix (take_prefix_pred c cs n).isInfix
    have inner := codeSpan_le measure found
    exact .spaced measure (inner.trans drawn)
  | ticks =>
    rw [Lexeme.Draws, runLength, drop_takeWhile_length, List.cons_append,
      List.takeWhile_append_dropWhile]
  | charRef _ form =>
    rw [Lexeme.Draws, ← take_eq_pred (charRef_pos form)]
    exact .refl _
  | autolink _ found => exact autolink_draws measure found
  | raw _ found => exact rawInline_draws found
  | run _ mark count =>
    rw [Lexeme.Draws, Run.wording, mark, count]
    exact runLength_append_drop c cs
  | leftover => exact runLength_append_drop c cs

end Lexemes

/-! ### Scanning -/

section Scan

variable {σ : Type} {μ : Text → Nat} {given : Text → Bool} {R : σ → Nat → σ → Prop}

/-- A span that an attempt makes is set apart, and it is drawn from the characters that it takes,
with what the attempt pays for. -/
def Drawn (μ : Text → Nat) (given : Text → Bool) (R : σ → Nat → σ → Prop) (t : Text) (s : σ) :
    Option (Inline × Nat) × σ → Prop
  | (none, s') => R s 0 s'
  | (some (span, n), s') => ∃ price strings, R s price s' ∧ 0 < n ∧
      span.wording given = spaced strings ∧
      sumOver μ strings + (mailCost μ [span] + price) ≤ μ (t.take n)

theorem within_piece {a b : Nat} (held : Text) {shown taken pieces rest whole : Text}
    (here : Within μ a shown taken) (later : Within μ b pieces rest) (eq : taken ++ rest = whole) :
    Within μ (a + b) (held ++ (shown ++ pieces)) (held ++ whole) := by
  subst eq
  simpa using (Within.refl held).append (here.append later)

theorem scan_draws (measure : Spelling μ) (idle : ∀ s, R s 0 s)
    (compose : ∀ {s s' s'' m n}, R s m s' → R s' n s'' → R s (m + n) s'')
    (mode : EmphasisMode) (attempt : Attempt σ) (draws : ∀ t s, Drawn μ given R t s (attempt t s))
    (prev escaped : Option Char) (held t : Text) (s : σ) :
    ∃ price, R s price (scan mode attempt prev escaped held t s).2 ∧
      Within μ (pieceMailCost μ (scan mode attempt prev escaped held t s).1 + price)
        (pieceWording given (scan mode attempt prev escaped held t s).1) (held.reverse ++ t) := by
  have ink := measure.toInkMeasure
  fun_induction scan mode attempt prev escaped held t s with
  | case1 prev escaped held s =>
    have none := pieceMailCost_held μ held []
    rw [List.append_nil] at none
    rw [pieceWording_held, List.append_nil, none]
    exact ⟨0, idle s, .refl _⟩
  | case2 prev escaped held s c cs last _ span n s' found pieces s'' rest ih =>
    have tried := draws (c :: cs) s
    rw [found] at tried
    obtain ⟨price, strings, paid, taken, set, drawn⟩ := tried
    rw [rest] at ih
    dsimp only at ih
    obtain ⟨more, paid', within⟩ := ih
    refine ⟨price + more, compose paid paid', ?_⟩
    have here : Within μ (mailCost μ [span] + price) (span.wording given) ((c :: cs).take n) := by
      rw [set]
      exact .spaced ink drawn
    have both := within_piece held.reverse here within (take_append_drop_pred taken c cs)
    rw [pieceWording_append, pieceWording_held, pieceWording_cons, pieceMailCost_held,
      pieceMailCost_span]
    exact both.weaken (by omega)
  | case3 prev escaped held s c cs _ s' found ih =>
    have tried := draws (c :: cs) s
    rw [found] at tried
    obtain ⟨more, paid', within⟩ := ih
    refine ⟨0 + more, compose tried paid', ?_⟩
    simpa using within
  | case4 prev escaped held s c cs last _ shown more found ih =>
    have taken := lexeme_draws ink given mode prev escaped held c cs
    rw [found] at taken
    obtain ⟨price, paid, within⟩ := ih
    refine ⟨price, paid, ?_⟩
    rw [← taken]
    simpa using within
  | case5 prev escaped held s c cs _ e found ih =>
    have taken := lexeme_draws ink given mode prev escaped held c cs
    rw [found] at taken
    obtain ⟨rfl, first⟩ := taken
    obtain ⟨rest, rfl⟩ := List.head?_eq_some_iff.mp first
    obtain ⟨price, paid, within⟩ := ih
    refine ⟨price, paid, within.trans (k := 0) ?_⟩
    have dropped := (Within.refl held.reverse).append
      ((Within.nil_left measure).append (Within.refl (e :: rest)))
    simpa using dropped
  | case6 prev escaped held s c cs last _ span more found pieces s' rest ih =>
    have here := lexeme_draws ink given mode prev escaped held c cs
    rw [found] at here
    rw [rest] at ih
    dsimp only at ih
    obtain ⟨price, paid, within⟩ := ih
    refine ⟨price, paid, ?_⟩
    have whole : c :: cs.take more ++ cs.drop more = c :: cs := by
      rw [List.cons_append, List.take_append_drop]
    have both := within_piece held.reverse here within whole
    rw [pieceWording_append, pieceWording_held, pieceWording_cons, pieceMailCost_held,
      pieceMailCost_span]
    exact both.weaken (by omega)
  | case7 prev escaped held s c cs last _ run more found pieces s' rest ih =>
    have taken := lexeme_draws ink given mode prev escaped held c cs
    rw [found] at taken
    rw [rest] at ih
    dsimp only at ih
    obtain ⟨price, paid, within⟩ := ih
    refine ⟨price, paid, ?_⟩
    have both := within_piece held.reverse (.refl run.wording) within taken
    rw [pieceWording_append, pieceWording_held, pieceWording_cons, pieceMailCost_held]
    exact both.weaken (Nat.le_of_eq (Nat.zero_add _).symm)
  | case8 prev escaped held s c cs _ more found pieces s' rest ih =>
    rw [rest] at ih
    dsimp only at ih
    obtain ⟨price, paid, within⟩ := ih
    refine ⟨price, paid, ?_⟩
    -- the spaces at the end of the text before the line break are dropped with it
    have spaces : ∃ dropped, held = dropped ++ held.dropWhile (· == ' ') :=
      ⟨_, (List.takeWhile_append_dropWhile).symm⟩
    obtain ⟨dropped, eq⟩ := spaces
    have whole :
        dropped.reverse ++ (c :: cs.take more) ++ cs.drop more = dropped.reverse ++ c :: cs := by
      simp
    have here : Within μ 0 (spaced []) (dropped.reverse ++ (c :: cs.take more)) :=
      .spaced ink (Nat.zero_le _)
    have both := within_piece (held.dropWhile (· == ' ')).reverse here within whole
    rw [pieceWording_append, pieceWording_held, pieceWording_cons, pieceMailCost_held]
    have front : held.reverse = (held.dropWhile (· == ' ')).reverse ++ dropped.reverse := by
      rw [← List.reverse_append, ← eq]
    rw [front, List.append_assoc]
    exact both.weaken (Nat.le_of_eq (Nat.zero_add _).symm)

end Scan

end CommentMarkup
