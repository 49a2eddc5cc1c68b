import CommentMarkup.Proofs.Inline.Linked
import CommentMarkup.Proofs.Inline.Seen

/-!
# Hyperlinks inside links

Brackets mean nothing in the text of a link, so that it holds neither links nor footnote references.
An address in angle brackets is read there as everywhere else: `link_unnested_iff`.
-/

namespace CommentMarkup

inductive Hyperlink
  | link (target : Target)
  | note (label : Text) (number : Nat) (first : Bool)
  | address (target : Text) (email : Bool)
  deriving DecidableEq, Repr

def Inline.hyperlink? : Inline → Option Hyperlink
  | .link target _ => some (.link target)
  | .footnoteRef label number first => some (.note label number first)
  | .autolink target email => some (.address target email)
  | _ => none

def hyperlinks (spans : List Inline) : List Hyperlink := inventory Inline.hyperlink? spans

theorem lasting_hyperlink : Lasting Inline.hyperlink? :=
  ⟨fun _ => rfl, fun _ => rfl, fun _ => rfl, fun _ => rfl, fun _ _ => rfl, fun _ _ _ => rfl⟩

/-! ### Addresses -/

def addressAt? (t : Text) : Option Hyperlink :=
  match autolink? t with
  | some (.autolink target email, _) => some (.address target email)
  | _ => none

/-- The addresses in angle brackets among the lexemes of a text without brackets. -/
def addresses : Text → List Hyperlink
  | [] => []
  | c :: cs => (addressAt? (c :: cs)).toList ++ addresses (cs.drop (firstLexeme c cs).more)
termination_by t => t.length
decreasing_by simp only [List.length_cons, List.length_drop]; omega

def Lexeme.hyperlinks : Lexeme → List Hyperlink
  | .span s _ => CommentMarkup.hyperlinks [s]
  | _ => []

theorem addressAt_other {c : Char} (other : c ≠ '<') (cs : Text) : addressAt? (c :: cs) = none := by
  unfold addressAt? autolink?
  split
  · rename_i found
    split at found
    · rename_i same
      cases same
      exact absurd rfl other
    · cases found
  · rfl

theorem rawInline_form {t : Text} {span : Inline} {n : Nat} (h : rawInline? t = some (span, n)) :
    ∃ w, span = .rawHtml w ∨ span = .text w := by
  obtain ⟨⟨markup, k⟩, _, h⟩ := Option.map_eq_some_iff.mp h
  cases h
  split
  · exact ⟨_, .inl rfl⟩
  · exact ⟨_, .inr rfl⟩

theorem lexeme_angle (mode : EmphasisMode) (prev escaped : Option Char) (held cs : Text) :
    lexeme mode prev escaped held '<' cs =
      ((autolink? ('<' :: cs) <|> rawInline? ('<' :: cs)).map fun (span, n) =>
        Lexeme.span span (n - 1)).getD (.text ['<'] 0) := by
  rw [lexeme, if_neg (by decide), if_neg (by decide), if_neg (by decide), if_pos rfl]
  cases autolink? ('<' :: cs) <|> rawInline? ('<' :: cs) <;> rfl

/-- Whatever stands in front of it, an address in angle brackets is read. -/
theorem lexeme_hyperlinks (mode : EmphasisMode) (prev escaped : Option Char) (held : Text)
    (c : Char) (cs : Text) :
    (lexeme mode prev escaped held c cs).hyperlinks = (addressAt? (c :: cs)).toList := by
  by_cases angle : c = '<'
  · subst angle
    rw [lexeme_angle, addressAt?]
    cases link : autolink? ('<' :: cs) with
    | some pair =>
      obtain ⟨span, n⟩ := pair
      obtain ⟨address, email, rfl⟩ := autolink_form link
      rfl
    | none =>
      cases raw : rawInline? ('<' :: cs) with
      | some pair =>
        obtain ⟨span, n⟩ := pair
        obtain ⟨w, rfl | rfl⟩ := rawInline_form raw
        all_goals rfl
      | none => rfl
  · rw [addressAt_other angle]
    have starts := lexeme_starts mode prev escaped held c cs
    generalize lexeme mode prev escaped held c cs = found at starts ⊢
    cases starts with
    | autolink same | raw same => exact absurd same angle
    | _ => rfl

theorem addresses_cons (mode : EmphasisMode) (prev escaped : Option Char) (held : Text) (c : Char)
    (cs : Text) :
    addresses (c :: cs) = (lexeme mode prev escaped held c cs).hyperlinks ++
      addresses (cs.drop (lexeme mode prev escaped held c cs).more) := by
  rw [addresses, lexeme_hyperlinks, lexeme_more]

/-- A character that may open a bracket is no address. -/
theorem addresses_bracket {escaped : Option Char} {c : Char} {cs : Text}
    (opens : opensBracket escaped c cs) : addresses (c :: cs) = addresses cs := by
  have bracket : c = '!' ∨ c = '[' := by
    simp only [opensBracket, Bool.or_eq_true, Bool.and_eq_true, beq_iff_eq] at opens
    exact opens.imp And.left And.left
  have plain : lexeme .classic none none [] c cs = .text [c] 0 := by
    apply lexeme_unmarked
    · rcases bracket with rfl | rfl <;> decide
    · rcases bracket with rfl | rfl <;> decide
  rw [addresses_cons .classic none none [], plain]
  rfl

/-- Of the pieces of a text in which brackets mean nothing only addresses can be followed. -/
theorem scan_hyperlinks (mode : EmphasisMode) (prev escaped : Option Char) (held t : Text)
    (s : Unit) :
    pieceInventory Inline.hyperlink? (scan mode .never prev escaped held t s).1 = addresses t := by
  have shown := pieceInventory_held lasting_hyperlink.textless
  fun_induction scan mode .never prev escaped held t s with
  | case1 prev escaped held s =>
    rw [heldPiece_inventory lasting_hyperlink.textless, addresses]
  | case2 prev escaped held s c cs last opens span n s' found => cases found
  | case3 prev escaped held s c cs opens s' found ih => rw [ih, addresses_bracket opens]
  | case4 prev escaped held s c cs last _ text more found ih =>
    rw [ih, addresses_cons mode prev escaped held, found]
    rfl
  | case5 prev escaped held s c cs _ e found ih =>
    rw [ih, addresses_cons mode prev escaped held, found]
    rfl
  | case6 prev escaped held s c cs last _ span more found pieces s' rest ih =>
    rw [rest] at ih
    rw [shown, pieceInventory_span, ih, addresses_cons mode prev escaped held, found]
    rfl
  | case7 prev escaped held s c cs last _ run more found pieces s' rest ih =>
    rw [rest] at ih
    rw [shown, pieceInventory_run, ih, addresses_cons mode prev escaped held, found]
    rfl
  | case8 prev escaped held s c cs _ more found pieces s' rest ih =>
    rw [rest] at ih
    rw [shown, pieceInventory_span, ih, addresses_cons mode prev escaped held, found]
    rfl

theorem readFlat_hyperlinks (mode : EmphasisMode) (t : Text) :
    hyperlinks (readFlat mode t) = addresses t := by
  rw [hyperlinks, readFlat, inventory_emphasize lasting_hyperlink.textless, scan_hyperlinks]

/-! ### Links -/

def Inline.linked? : Inline → Option (Target × List Inline)
  | .link target children => some (target, children)
  | _ => none

theorem textless_linked : Textless Inline.linked? :=
  ⟨fun _ => rfl, fun _ => rfl, fun _ => rfl, fun _ => rfl⟩

def expandLinked (terms : List (Text × Text)) (linked : Target × List Inline) :
    Target × List Inline :=
  (linked.1, expandAbbreviations terms linked.2)

theorem expands_linked (terms : List (Text × Text)) :
    Expands Inline.linked? terms (expandLinked terms) where
  abbreviation _ _ := rfl
  link _ _ := rfl
  kept span same := by
    cases span with
    | link target children =>
      rw [Inline.expand, List.cons.injEq, Inline.link.injEq] at same
      rw [Inline.linked?, Option.map_some, expandLinked, same.1.2]
    | _ => rfl

section Reading

variable (scope : Scope)

theorem linkSpan_linked (image : Bool) (text : Text) (target : Target) :
    inventory Inline.linked? [linkSpan scope image text target] =
      if image then [] else [(target, readFlat scope.mode text)] := by
  cases image with
  | false =>
    exact linkSpan_picked textless_linked (fun _ lexeme => by cases lexeme <;> rfl) scope text target
  | true => rfl

/-- The link is made at a bracket, of what stands between that and the bracket that closes it. -/
theorem readBracket_linked {place : Text} {notes : Notes} {made : Inline} {n : Nat}
    {linked : Target × List Inline} (h : (readBracket scope place notes).1 = some (made, n))
    (member : linked ∈ inventory Inline.linked? [made]) :
    ∃ after k, '[' :: after <:+ place ∧ bracketIndex? 0 after = some k ∧
      linked.2 = readFlat scope.mode (after.take k) := by
  unfold readBracket at h
  split at h
  · obtain ⟨_, found⟩ := afterLead_some h
    obtain ⟨k, target, _, rfl⟩ := readLink_span scope found
    rw [linkSpan_linked] at member
    cases member
  · obtain ⟨_, found⟩ := afterLead_some h
    obtain ⟨label, number, first, rfl⟩ := readFootnote_form scope found
    cases member
  · rename_i cs _
    obtain ⟨_, found⟩ := afterLead_some h
    obtain ⟨k, target, closes, rfl⟩ := readLink_span scope found
    rw [linkSpan_linked] at member
    rw [List.mem_singleton.mp member]
    exact ⟨cs, k, List.suffix_refl _, closes, rfl⟩
  · cases h

theorem readInline_linked {t : Text} {notes : Notes} {target : Target} {children : List Inline}
    (member : .link target children ∈ spanFlow (readInline scope t notes).1) :
    ∃ place k, '[' :: place <:+ t ∧ bracketIndex? 0 place = some k ∧
      children = expandAbbreviations scope.references.abbreviations
        (readFlat scope.mode (place.take k)) := by
  have listed : (target, children) ∈ inventory Inline.linked? (readInline scope t notes).1 :=
    List.mem_filterMap.mpr ⟨_, member, rfl⟩
  rw [readInline] at listed
  dsimp only at listed
  rw [inventory_expand_spans textless_linked (expands_linked _),
    inventory_emphasize textless_linked] at listed
  obtain ⟨linked, made, same⟩ := List.mem_map.mp listed
  obtain ⟨place, before, made, n, inside, found, member⟩ :=
    scan_picked textless_linked (fun _ lexeme => by cases lexeme <;> rfl) none none [] t notes made
  obtain ⟨after, k, opens, closes, read⟩ := readBracket_linked scope found member
  cases same
  exact ⟨after, k, opens.trans inside, closes, by rw [read]⟩

/-- All that can be followed inside a link is the addresses in its text, so that a link in which
nothing can be followed is one without addresses in its text. -/
theorem link_unnested_iff {t : Text} {notes : Notes} {target : Target} {children : List Inline}
    (member : .link target children ∈ spanFlow (readInline scope t notes).1) :
    ∃ place k, '[' :: place <:+ t ∧ bracketIndex? 0 place = some k ∧
      children = expandAbbreviations scope.references.abbreviations
        (readFlat scope.mode (place.take k)) ∧
      hyperlinks children = addresses (place.take k) ∧
      ((∀ span ∈ spanFlow children, span.hyperlink? = none) ↔ addresses (place.take k) = []) := by
  obtain ⟨place, k, opens, closes, rfl⟩ := readInline_linked scope member
  have held : hyperlinks (expandAbbreviations scope.references.abbreviations
      (readFlat scope.mode (place.take k))) = addresses (place.take k) := by
    rw [hyperlinks, inventory_expandAbbreviations lasting_hyperlink, ← hyperlinks,
      readFlat_hyperlinks]
  refine ⟨place, k, opens, closes, rfl, held, ?_⟩
  rw [← held, hyperlinks, inventory, List.filterMap_eq_nil_iff]

end Reading

theorem link_unnested_emphasis :
    let scope : Scope := ⟨.classic, .empty, []⟩
    let children : List Inline := [.text "a ".toList, .emphasis [.text ['b']]]
    (readInline scope "[a *b*](/x)".toList (.start [])).1 =
        [.link ⟨"/x".toList, none⟩ children] ∧
      ∃ place k, '[' :: place <:+ "[a *b*](/x)".toList ∧ bracketIndex? 0 place = some k ∧
        children = expandAbbreviations scope.references.abbreviations
          (readFlat scope.mode (place.take k)) ∧
        hyperlinks children = addresses (place.take k) ∧
        ((∀ span ∈ spanFlow children, span.hyperlink? = none) ↔ addresses (place.take k) = []) := by
  have read : (readInline ⟨.classic, .empty, []⟩ "[a *b*](/x)".toList (.start [])).1 =
      [.link ⟨"/x".toList, none⟩ [.text "a ".toList, .emphasis [.text ['b']]]] := by cbv
  have member : .link ⟨"/x".toList, none⟩ [.text "a ".toList, .emphasis [.text ['b']]] ∈
      spanFlow (readInline ⟨.classic, .empty, []⟩ "[a *b*](/x)".toList (.start [])).1 := by
    rw [read]
    exact List.mem_cons_self
  exact ⟨read, link_unnested_iff ⟨.classic, .empty, []⟩ member⟩

/-- An address in angle brackets is a hyperlink, inside a link too. -/
theorem address_nested :
    ¬ ∀ (scope : Scope) (t : Text) (notes : Notes) (target : Target) (children : List Inline),
      .link target children ∈ spanFlow (readInline scope t notes).1 →
        ∀ span ∈ spanFlow children, span.hyperlink? = none := by
  intro unnested
  have read : (readInline ⟨.classic, .empty, []⟩ "[<http://a.b>](/x)".toList (.start [])).1 =
      [.link ⟨"/x".toList, none⟩ [.autolink "http://a.b".toList false]] := by cbv
  have free := unnested ⟨.classic, .empty, []⟩ "[<http://a.b>](/x)".toList (.start [])
    ⟨"/x".toList, none⟩ [.autolink "http://a.b".toList false] (by rw [read]; exact List.mem_cons_self)
  have none := free _ List.mem_cons_self
  cases none

end CommentMarkup
