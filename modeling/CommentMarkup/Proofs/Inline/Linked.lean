import CommentMarkup.Proofs.Footnote.Paid
import CommentMarkup.Proofs.Inline.Scanned

/-!
# Links that reading makes

Every link and image among the spans of a text was made at a bracket of the text, and what its target
is depends on what is written there: `readInline_links`, `readLink_reference`.
-/

namespace CommentMarkup

structure Link where
  image : Bool
  target : Target
  deriving DecidableEq, Repr

def Inline.link? : Inline → Option Link
  | .link target _ => some ⟨false, target⟩
  | .image target _ => some ⟨true, target⟩
  | _ => none

theorem lasting_link : Lasting Inline.link? :=
  ⟨fun _ => rfl, fun _ => rfl, fun _ => rfl, fun _ => rfl, fun _ _ => rfl, fun _ _ _ => rfl⟩

theorem Inline.IsLexeme.links {span : Inline} (lexeme : span.IsLexeme) :
    inventory Inline.link? [span] = [] := by
  cases lexeme <;> rfl

/-- What is picked from the pieces of a text, and not from lexemes, was made by an attempt at some
place in it. -/
theorem scan_picked {σ α : Type} {pick : Inline → Option α} (textless : Textless pick)
    (lexemes : ∀ span : Inline, span.IsLexeme → inventory pick [span] = []) {mode : EmphasisMode}
    {attempt : Attempt σ} {x : α} (prev escaped : Option Char) (held t : Text) (s : σ)
    (member : x ∈ pieceInventory pick (scan mode attempt prev escaped held t s).1) :
    ∃ place before made n, place <:+ t ∧ (attempt place before).1 = some (made, n) ∧
      x ∈ inventory pick [made] := by
  have later {c : Char} {cs : Text} (more : Nat)
      (ih : ∃ place before made n, place <:+ cs.drop more ∧
        (attempt place before).1 = some (made, n) ∧ x ∈ inventory pick [made]) :
      ∃ place before made n, place <:+ c :: cs ∧ (attempt place before).1 = some (made, n) ∧
        x ∈ inventory pick [made] := by
    obtain ⟨place, before, made, n, inside, rest⟩ := ih
    exact ⟨place, before, made, n, inside.trans (drop_suffix_cons more c cs), rest⟩
  fun_induction scan mode attempt prev escaped held t s with
  | case1 prev escaped held s =>
    rw [heldPiece_inventory textless] at member
    cases member
  | case2 prev escaped held s c cs last _ span n s' found pieces s'' rest ih =>
    rw [pieceInventory_held textless, pieceInventory_span] at member
    rw [rest] at ih
    rcases List.mem_append.mp member with here | tail
    · exact ⟨c :: cs, s, span, n, List.suffix_refl _, by rw [found], here⟩
    · exact later (n - 1) (ih tail)
  | case3 prev escaped held s c cs _ s' found ih => exact later 0 (ih member)
  | case4 prev escaped held s c cs last _ shown more _ ih => exact later more (ih member)
  | case5 prev escaped held s c cs _ e _ ih => exact later 1 (ih member)
  | case6 prev escaped held s c cs last _ span more found pieces s' rest ih =>
    rw [pieceInventory_held textless, pieceInventory_span,
      lexemes span (lexeme_isLexeme found)] at member
    rw [rest] at ih
    exact later more (ih member)
  | case7 prev escaped held s c cs last _ run more _ pieces s' rest ih =>
    rw [pieceInventory_held textless, pieceInventory_run] at member
    rw [rest] at ih
    exact later more (ih member)
  | case8 prev escaped held s c cs _ more _ pieces s' rest ih =>
    rw [pieceInventory_held textless, pieceInventory_span, lexemes _ .lineBreak] at member
    rw [rest] at ih
    exact later more (ih member)

/-- Brackets mean nothing in flat text. -/
theorem readFlat_picked {α : Type} {pick : Inline → Option α} (textless : Textless pick)
    (lexemes : ∀ span : Inline, span.IsLexeme → inventory pick [span] = []) (mode : EmphasisMode)
    (t : Text) : inventory pick (readFlat mode t) = [] := by
  rw [readFlat, inventory_emphasize textless, List.eq_nil_iff_forall_not_mem]
  intro x member
  obtain ⟨_, _, _, _, _, none, _⟩ := scan_picked textless lexemes none none [] t () member
  cases none

/-- From a link nothing is picked but what it is picked as itself. -/
theorem linkSpan_picked {α : Type} {pick : Inline → Option α} (textless : Textless pick)
    (lexemes : ∀ span : Inline, span.IsLexeme → inventory pick [span] = []) (scope : Scope)
    (text : Text) (target : Target) :
    inventory pick [linkSpan scope false text target] =
      (pick (.link target (readFlat scope.mode text))).toList := by
  have parts : inventory pick [linkSpan scope false text target] =
      (pick (.link target (readFlat scope.mode text))).toList ++
        inventory pick (readFlat scope.mode text) := inventory_link target _
  rw [parts, readFlat_picked textless lexemes, List.append_nil]

/-! ### Brackets -/

section Brackets

variable (scope : Scope)

/-- Reading makes the link of the text after an opening bracket. -/
def Scope.Makes (place : Text) (link : Link) : Prop :=
  ∃ notes made n, (readLink scope link.image place notes).1 = some (made, n) ∧
    made.link? = some link

theorem linkSpan_links (image : Bool) (text : Text) (target : Target) :
    inventory Inline.link? [linkSpan scope image text target] = [⟨image, target⟩] := by
  cases image with
  | false =>
    exact linkSpan_picked lasting_link.textless (fun _ lexeme => lexeme.links) scope text target
  | true => rfl

theorem linkSpan_link (image : Bool) (text : Text) (target : Target) :
    (linkSpan scope image text target).link? = some ⟨image, target⟩ := by
  cases image <;> rfl

/-- Where the target of a link or an image comes from: from behind its text, or from the tables. -/
def Scope.Aims (after : Text) (target : Target) (length : Nat) : Prop :=
  linkDestination? after = some (target, length) ∨ ∃ label, scope.target? label = some target

theorem target_of_link {label : Text} {target : Target}
    (h : scope.references.link? label = some target) : scope.target? label = some target := by
  rw [Scope.target?, h, Option.some_or]

theorem readLink_some {image : Bool} {t : Text} {notes after : Notes}
    {span : Inline} {n : Nat} (h : readLink scope image t notes = (some (span, n), after)) :
    after = notes ∧ ∃ k target length, bracketIndex? 0 t = some k ∧
      span = linkSpan scope image (t.take k) target ∧ n = k + 1 + length ∧
      scope.Aims (t.drop (k + 1)) target length := by
  unfold readLink at h
  dsimp only at h
  split at h
  · cases h
  · rename_i k closed
    split at h
    · rename_i found
      cases h
      exact ⟨rfl, k, _, _, closed, rfl, rfl, .inl found⟩
    · split at h
      · split at h
        · rename_i named
          cases h
          exact ⟨rfl, k, _, _, closed, rfl, rfl, .inr ⟨_, named⟩⟩
        · cases h
      · split at h
        · rename_i named
          cases h
          exact ⟨rfl, k, _, 0, closed, rfl, rfl, .inr ⟨_, target_of_link scope named⟩⟩
        · cases h

theorem readLink_span {image : Bool} {place : Text} {notes : Notes} {made : Inline} {n : Nat}
    (h : (readLink scope image place notes).1 = some (made, n)) :
    ∃ k target, bracketIndex? 0 place = some k ∧
      made = linkSpan scope image (place.take k) target := by
  obtain ⟨_, k, target, _, closes, same, _⟩ := readLink_some scope (Prod.ext h rfl)
  exact ⟨k, target, closes, same⟩

theorem readLink_makes {image : Bool} {place : Text} {notes : Notes} {made : Inline} {n : Nat}
    {link : Link} (h : (readLink scope image place notes).1 = some (made, n))
    (member : link ∈ inventory Inline.link? [made]) : scope.Makes place link := by
  obtain ⟨k, target, _, rfl⟩ := readLink_span scope h
  rw [linkSpan_links, List.mem_singleton] at member
  subst member
  exact ⟨notes, _, n, h, linkSpan_link scope image _ target⟩

theorem readFootnote_form {place : Text} {notes : Notes} {made : Inline} {n : Nat}
    (h : (readFootnote scope place notes).1 = some (made, n)) :
    ∃ label number first, made = .footnoteRef label number first := by
  unfold readFootnote at h
  dsimp only at h
  split at h
  · cases h
  split at h
  · cases h
  · obtain ⟨span, found, same⟩ := Option.map_eq_some_iff.mp h
    cases same
    exact footnoteRef_span found

theorem afterLead_some {lead n : Nat} {found : Option (Inline × Nat) × Notes} {made : Inline}
    (h : (afterLead lead found).1 = some (made, n)) : ∃ k, found.1 = some (made, k) := by
  obtain ⟨⟨span, k⟩, here, same⟩ := Option.map_eq_some_iff.mp h
  cases same
  exact ⟨k, here⟩

theorem readBracket_makes {place : Text} {notes : Notes} {made : Inline} {n : Nat} {link : Link}
    (h : (readBracket scope place notes).1 = some (made, n))
    (member : link ∈ inventory Inline.link? [made]) :
    ∃ after, '[' :: after <:+ place ∧ scope.Makes after link := by
  unfold readBracket at h
  split at h
  · rename_i cs
    obtain ⟨k, found⟩ := afterLead_some h
    exact ⟨cs, List.suffix_cons _ _, readLink_makes scope found member⟩
  · obtain ⟨k, found⟩ := afterLead_some h
    obtain ⟨label, number, first, rfl⟩ := readFootnote_form scope found
    cases member
  · rename_i cs _
    obtain ⟨k, found⟩ := afterLead_some h
    exact ⟨cs, List.suffix_refl _, readLink_makes scope found member⟩
  · cases h

/-- Every link among the spans of a text was made at one of its brackets. -/
theorem readInline_links {t : Text} {notes : Notes} {span : Inline} {link : Link}
    (member : span ∈ spanFlow (readInline scope t notes).1) (here : span.link? = some link) :
    ∃ place, '[' :: place <:+ t ∧ scope.Makes place link := by
  have listed : link ∈ inventory Inline.link? (readInline scope t notes).1 :=
    List.mem_filterMap.mpr ⟨span, member, here⟩
  rw [readInline] at listed
  dsimp only at listed
  rw [inventory_expandAbbreviations lasting_link, inventory_emphasize lasting_link.textless] at listed
  obtain ⟨place, before, made, n, inside, found, member⟩ :=
    scan_picked lasting_link.textless (fun _ lexeme => lexeme.links) none none [] t notes listed
  obtain ⟨after, opens, makes⟩ := readBracket_makes scope found member
  exact ⟨after, opens.trans inside, makes⟩

/-! ### References -/

/-- Behind its text the link has another pair of brackets, with the label in it. Blank brackets stand
for the text. -/
def ReferenceForm (place label : Text) : Prop :=
  ∃ n written length, bracketIndex? 0 place = some n ∧
    linkDestination? (place.drop (n + 1)) = none ∧
    linkLabel? (place.drop (n + 1)) = some (written, length) ∧
    label = if Text.isBlank written then place.take n else written

def Scope.Names (label : Text) (target : Target) : Prop :=
  scope.references.link? label = some target ∨
    scope.references.link? label = none ∧
      ∃ anchor, scope.headings.anchor? label = some anchor ∧ target = ⟨'#' :: anchor, none⟩

theorem target_names {label : Text} {target : Target} (h : scope.target? label = some target) :
    scope.Names label target := by
  unfold Scope.target? at h
  cases defined : scope.references.link? label with
  | some known =>
    rw [defined] at h
    exact .inl (defined.trans h)
  | none =>
    rw [defined] at h
    obtain ⟨anchor, named, same⟩ := Option.map_eq_some_iff.mp h
    exact .inr ⟨defined, anchor, named, same.symm⟩

theorem readLink_reference {place label : Text} {link : Link} (form : ReferenceForm place label)
    (makes : scope.Makes place link) : scope.Names label link.target := by
  obtain ⟨n, written, length, closes, noDestination, labelled, rfl⟩ := form
  obtain ⟨notes, made, k, found, same⟩ := makes
  obtain ⟨image, target⟩ := link
  unfold readLink at found
  rw [closes] at found
  dsimp only at found
  rw [noDestination, labelled] at found
  dsimp only at found
  split at found
  · rename_i known named
    cases found
    rw [linkSpan_link] at same
    cases same
    exact target_names scope named
  · cases found

end Brackets

end CommentMarkup
