import CommentMarkup.Proofs.Inline.Drawn
import CommentMarkup.Proofs.Inline.Linked
import CommentMarkup.Proofs.Inline.Outcome

/-!
# Addresses written down

An image keeps of its label only the plain text. Reading that writes down the mail addresses in these
labels reads the same spans, and it draws them, the addresses and the new footnotes from the text:
all that the spans show, by the measure of a spelling (`record_spells`), and what stands in them as
in the text, by any measure of ink (`record_copies`).
-/

namespace CommentMarkup

/-- The mail addresses in the label of the image that the text starts with. -/
def Scope.labelMails (scope : Scope) : Text → List Text
  | '!' :: '[' :: cs =>
    match bracketIndex? 0 cs with
    | some n => inventory Inline.mail? (readFlat scope.mode (cs.take n))
    | none => []
  | _ => []

/-- What a bracket comes to. Of an image, the addresses in its label are written down. -/
def Scope.recording (scope : Scope) : Attempt (Notes × List Text) := fun t s =>
  let (found, notes) := readBracket scope t s.1
  (found, notes, if found.isSome then s.2 ++ scope.labelMails t else s.2)

def Scope.record (scope : Scope) (s : Notes × List Text) (t : Text) : Notes × List Text :=
  (scan scope.mode scope.recording none none [] t s).2

theorem scan_recording (scope : Scope) (t : Text) (s : Notes × List Text) :
    scan scope.mode (readBracket scope) none none [] t s.1 =
      ((scan scope.mode scope.recording none none [] t s).1, (scope.record s t).1) :=
  scan_project Prod.fst (fun _ _ => rfl) none none [] t s

theorem record_notes (scope : Scope) (s : Notes × List Text) (t : Text) :
    (scope.record s t).1 = (readInline scope t s.1).2 := by
  rw [readInline, scan_recording]

theorem record_nil (scope : Scope) (s : Notes × List Text) : scope.record s [] = s := by
  rw [Scope.record, scan]

/-! ### What reading is worth -/

def FootnoteSource.cost (μ : Text → Nat) : FootnoteSource → Nat
  | .defined blocks => sumOver (Block.cost μ) (flow blocks)
  | .inPlace text => μ text

/-- The price pays for the new footnotes and for the addresses that are written down. -/
def Records (μ : Text → Nat) (references : References) (before : Notes × List Text) (price : Nat)
    (after : Notes × List Text) : Prop :=
  ∃ cost new, Paid (FootnoteSource.cost μ) references before.1 cost after.1 ∧
    after.2 = before.2 ++ new ∧ cost + sumOver μ new ≤ price

namespace Records

variable {μ : Text → Nat} {references : References}

theorem idle (s : Notes × List Text) (price : Nat) : Records μ references s price s :=
  ⟨0, [], .idle s.1 0, (List.append_nil _).symm, Nat.zero_le _⟩

theorem compose {first second third : Notes × List Text} {m n : Nat}
    (left : Records μ references first m second) (right : Records μ references second n third) :
    Records μ references first (m + n) third := by
  obtain ⟨cost, new, paid, eq, le⟩ := left
  obtain ⟨cost', new', paid', eq', le'⟩ := right
  refine ⟨cost + cost', new ++ new', paid.compose paid', by rw [eq', eq, List.append_assoc], ?_⟩
  rw [sumOver_append]
  omega

theorem of_paid {notes after : Notes} {list : List Text} {price : Nat}
    (paid : Paid (FootnoteSource.cost μ) references notes price after) :
    Records μ references (notes, list) price (after, list) :=
  ⟨price, [], paid, (List.append_nil _).symm, Nat.le_refl _⟩

theorem of_new (notes : Notes) (list new : List Text) :
    Records μ references (notes, list) (sumOver μ new) (notes, list ++ new) :=
  ⟨0, new, .idle notes 0, rfl, (Nat.zero_add _).le⟩

end Records

/-- Reading draws what `shown` makes of its spans, the mail addresses in them, those written down and
the new footnotes from the text. -/
def Scope.Spends (μ : Text → Nat) (shown : List Inline → Nat) (scope : Scope) : Prop :=
  ∀ t notes list, ∃ new cost,
    scope.record (notes, list) t = ((readInline scope t notes).2, list ++ new) ∧
    Paid (FootnoteSource.cost μ) scope.references notes cost (readInline scope t notes).2 ∧
    shown (readInline scope t notes).1 + mailCost μ (readInline scope t notes).1 + sumOver μ new +
      cost ≤ μ t

theorem Records.spent {μ : Text → Nat} {scope : Scope} {notes : Notes} {list : List Text} {t : Text}
    {price : Nat} (records : Records μ scope.references (notes, list) price
      (scope.record (notes, list) t)) :
    ∃ new cost, scope.record (notes, list) t = ((readInline scope t notes).2, list ++ new) ∧
      Paid (FootnoteSource.cost μ) scope.references notes cost (readInline scope t notes).2 ∧
      sumOver μ new + cost ≤ price := by
  obtain ⟨cost, new, paid, written, le⟩ := records
  have read := record_notes scope (notes, list) t
  dsimp only at paid written read
  rw [read] at paid
  exact ⟨new, cost, by rw [← read, ← written], paid, by omega⟩

/-! ### Brackets -/

theorem outcome_none_paid {worth : FootnoteSource → Nat} {scope : Scope} {notes after : Notes}
    (outcome : Outcome scope notes none after) (price : Nat) :
    Paid worth scope.references notes price after := by
  cases outcome with
  | text => exact .idle notes price
  | unresolved warning => exact .warn notes warning price

theorem readFootnote_some {scope : Scope} {t : Text} {notes after : Notes} {span : Inline} {n : Nat}
    (h : readFootnote scope t notes = (some (span, n), after)) :
    ∃ k, n = k + 1 ∧ footnoteRef? scope (t.take k) notes = (some span, after) := by
  unfold readFootnote at h
  dsimp only at h
  split at h
  · cases h
  · rename_i k _
    split at h
    · cases h
    · cases made : footnoteRef? scope (t.take k) notes with
      | mk found rest =>
        rw [made] at h
        cases found with
        | none => cases h
        | some span =>
          cases h
          exact ⟨k, rfl, made⟩

/-- The mail addresses in the label of a link that its span does not keep. -/
def Scope.unkept (scope : Scope) (image : Bool) (label : Text) : List Text :=
  if image then inventory Inline.mail? (readFlat scope.mode label) else []

inductive Recorded (μ : Text → Nat) (scope : Scope) (t : Text) (s : Notes × List Text) :
    Option (Inline × Nat) × Notes × List Text → Prop
  | nothing {after : Notes × List Text} (records : Records μ scope.references s 0 after) :
      Recorded μ scope t s (none, after)
  | footnote {label content : Text} {number n : Nat} {first : Bool} {after : Notes × List Text}
      (inside : content <:+: t.take n) (taken : 0 < n)
      (records : Records μ scope.references s (μ content) after) :
      Recorded μ scope t s (some (.footnoteRef label number first, n), after)
  | link (image : Bool) (front : Text) {rest : Text} {k length : Nat} {target : Target}
      (split : t = front ++ rest) (aims : scope.Aims (rest.drop (k + 1)) target length) :
      Recorded μ scope t s
        (some (linkSpan scope image (rest.take k) target, front.length + (k + 1 + length)),
          s.1, s.2 ++ scope.unkept image (rest.take k))

section Recorded

variable (μ : Text → Nat) (scope : Scope)

theorem link_recorded (image : Bool) (front rest : Text) (s : Notes × List Text) {list : List Text}
    (unkept : ∀ k, bracketIndex? 0 rest = some k → list = scope.unkept image (rest.take k)) :
    let found := afterLead front.length (readLink scope image rest s.1)
    Recorded μ scope (front ++ rest) s
      (found.1, found.2, if found.1.isSome then s.2 ++ list else s.2) := by
  have outcome := readLink_outcome scope image rest s.1
  cases read : readLink scope image rest s.1 with
  | mk found after =>
    rw [read] at outcome
    cases found with
    | none => exact .nothing (.of_paid (outcome_none_paid outcome 0))
    | some found =>
      obtain ⟨span, n⟩ := found
      obtain ⟨rfl, k, target, length, closed, rfl, rfl, aims⟩ := readLink_some scope read
      rw [unkept k closed]
      exact .link image front rfl aims

theorem footnote_recorded (rest : Text) (s : Notes × List Text) :
    let found := afterLead 2 (readFootnote scope rest s.1)
    Recorded μ scope ('[' :: '^' :: rest) s
      (found.1, found.2, if found.1.isSome then s.2 ++ [] else s.2) := by
  have outcome := readFootnote_outcome scope rest s.1
  cases read : readFootnote scope rest s.1 with
  | mk found after =>
    rw [read] at outcome
    cases found with
    | none => exact .nothing (.of_paid (outcome_none_paid outcome 0))
    | some found =>
      obtain ⟨span, n⟩ := found
      obtain ⟨k, rfl, made⟩ := readFootnote_some read
      have paid := footnoteRef_paid (FootnoteSource.cost μ) scope (rest.take k) s.1
      obtain ⟨label, number, first, rfl⟩ := footnoteRef_span (congrArg Prod.fst made)
      rw [made] at paid
      have inside : rest.take k <:+: ('[' :: '^' :: rest).take (2 + (k + 1)) := by
        rw [Nat.add_comm 2, List.take_succ_cons, List.take_succ_cons]
        have front : rest.take k <+: rest.take (k + 1) := List.take_prefix_take_left (Nat.le_succ k)
        exact front.isInfix.trans ((List.suffix_cons _ _).trans (List.suffix_cons _ _)).isInfix
      refine .footnote inside (by omega) ?_
      have same : (if (afterLead 2 (some (Inline.footnoteRef label number first, k + 1), after)).1.isSome
          then s.2 ++ [] else s.2) = s.2 := List.append_nil s.2
      rw [same]
      exact .of_paid paid

theorem recording_recorded (t : Text) (s : Notes × List Text) :
    Recorded μ scope t s (scope.recording t s) := by
  unfold Scope.recording
  dsimp only
  unfold readBracket
  split
  · rename_i cs
    refine link_recorded μ scope true ['!', '['] cs s fun k closed => ?_
    simp [Scope.labelMails, closed, Scope.unkept]
  · exact footnote_recorded μ scope _ s
  · exact link_recorded μ scope false ['['] _ s fun _ _ => rfl
  · exact .nothing (.idle s 0)

end Recorded

theorem link_parts {μ : Text → Nat} (measure : InkMeasure μ) (front rest : Text) (k length : Nat) :
    μ (rest.take k) + μ ((rest.drop (k + 1)).take length) ≤
      μ ((front ++ rest).take (front.length + (k + 1 + length))) := by
  have parts := parts_le measure rest (a := 0) (b := k) (c := k + 1) (d := length)
    (e := k + 1 + length) (by omega) (Nat.le_refl _)
  rw [List.drop_zero] at parts
  refine parts.trans (measure.le_of_infix ?_)
  rw [List.take_length_add_append]
  exact (List.suffix_append _ _).isInfix

/-! ### What the spans show -/

structure Scope.Given (given : Text → Bool) (scope : Scope) : Prop where
  links : ∀ entry ∈ scope.references.links, entry.2.kept given = [[], []]
  headings : ∀ entry ∈ scope.headings, given ('#' :: entry.2)
  abbreviations : ∀ entry ∈ scope.references.abbreviations, given entry.2

section Spelling

variable {μ : Text → Nat} (measure : Spelling μ) {given : Text → Bool} {scope : Scope}

theorem Scope.Given.target (tables : scope.Given given) {label : Text} {target : Target}
    (h : scope.target? label = some target) : target.kept given = [[], []] := by
  rcases Option.or_eq_some_iff.mp h with found | ⟨_, found⟩
  · exact tables.links _ (mem_of_lookup found)
  · obtain ⟨anchor, listed, rfl⟩ := Option.map_eq_some_iff.mp found
    have given' := tables.headings _ (mem_of_lookup listed)
    simp [Target.kept, kept, given']

include measure

theorem readFlat_draws (given : Text → Bool) (mode : EmphasisMode) (t : Text) :
    μ (wording given (readFlat mode t)) + mailCost μ (readFlat mode t) ≤ μ t := by
  have scanned : ∃ price, True ∧ Within μ
      (pieceMailCost μ (scan mode .never none none [] t ()).1 + price)
      (pieceWording given (scan mode .never none none [] t ()).1) ([] ++ t) :=
    scan_draws (R := fun _ _ _ => True) measure (fun _ => trivial) (fun _ _ => trivial) mode .never
      (fun _ _ => trivial) none none [] t ()
  obtain ⟨price, _, within⟩ := scanned
  have drawn := within.le
  have paired := (within_emphasize measure.toInkMeasure given
    (scan mode .never none none [] t ()).1).le
  rw [readFlat, mailCost_emphasize]
  rw [List.nil_append] at drawn
  omega

theorem kept_le (target : Target) : sumOver μ (target.kept given) ≤ target.cost μ := by
  have one (t : Text) : μ (kept given t) ≤ μ t := by
    unfold kept
    split
    · exact measure.toInkMeasure.le_of_infix List.nil_infix
    · exact Nat.le_refl _
  have url := one target.url
  have title := one (target.title.getD [])
  simp only [Target.kept, sumOver, Target.cost]
  omega

theorem linkDestination_le {t : Text} {target : Target} {n : Nat}
    (h : linkDestination? t = some (target, n)) : target.cost μ ≤ μ (t.take n) := by
  unfold linkDestination? at h
  split at h
  · rename_i cs
    obtain ⟨⟨target, k⟩, found, eq⟩ := Option.map_eq_some_iff.mp h
    cases eq
    have inner := destination_le measure found
    have outer := measure.toInkMeasure.le_of_infix (List.suffix_cons '(' (cs.take k)).isInfix
    exact inner.trans outer
  · cases h

theorem Scope.Aims.le (tables : scope.Given given) {after : Text} {target : Target} {length : Nat}
    (aims : scope.Aims after target length) :
    sumOver μ (target.kept given) ≤ μ (after.take length) := by
  rcases aims with written | ⟨label, named⟩
  · exact (kept_le measure target).trans (linkDestination_le measure written)
  · have empty := measure.nil
    rw [tables.target named]
    simp only [sumOver]
    omega

variable (given) in
theorem linkSpan_draws (scope : Scope) (image : Bool) (label : Text) (target : Target) :
    ∃ strings, (linkSpan scope image label target).wording given = spaced strings ∧
      sumOver μ strings + (mailCost μ [linkSpan scope image label target] +
        sumOver μ (scope.unkept image label)) ≤ μ label + sumOver μ (target.kept given) := by
  have flat := readFlat_draws measure given scope.mode label
  cases image with
  | true =>
    refine ⟨target.kept given, rfl, ?_⟩
    have none : mailCost μ [linkSpan scope true label target] = 0 := rfl
    have unkept : sumOver μ (scope.unkept true label) = mailCost μ (readFlat scope.mode label) := rfl
    omega
  | false =>
    refine ⟨wording given (readFlat scope.mode label) :: target.kept given, rfl, ?_⟩
    have same : mailCost μ [linkSpan scope false label target] =
        mailCost μ (readFlat scope.mode label) :=
      congrArg (sumOver μ) (inventory_link target _)
    have unkept : sumOver μ (scope.unkept false label) = 0 := rfl
    rw [same, sumOver_cons]
    omega

theorem Recorded.drawn (tables : scope.Given given) {t : Text} {s : Notes × List Text}
    {found : Option (Inline × Nat) × Notes × List Text} (recorded : Recorded μ scope t s found) :
    Drawn μ given (Records μ scope.references) t s found := by
  have ink := measure.toInkMeasure
  cases recorded with
  | nothing records => exact records
  | footnote inside taken records =>
    refine ⟨_, [], records, taken, rfl, ?_⟩
    exact (Nat.zero_add _).trans_le ((Nat.zero_add _).trans_le (ink.le_of_infix inside))
  | @link image front rest k length target split aims =>
    subst split
    obtain ⟨strings, set, shown⟩ := linkSpan_draws measure given scope image (rest.take k) target
    have aimed := aims.le measure tables
    have parts := link_parts ink front rest k length
    exact ⟨_, strings, .of_new s.1 s.2 _, by omega, set, by omega⟩

/-- What the spans of a text show, the mail addresses in it and what is recorded of it are drawn from
it. -/
theorem record_spells (tables : scope.Given given) :
    scope.Spends μ fun spans => μ (wording given spans) := by
  intro t notes list
  obtain ⟨price, records, within⟩ := scan_draws measure (.idle · 0) .compose scope.mode
    scope.recording (fun t s => (recording_recorded μ scope t s).drawn measure tables) none none [] t
    (notes, list)
  obtain ⟨new, cost, written, paid, le⟩ := Records.spent records
  refine ⟨new, cost, written, paid, ?_⟩
  have drawn := within.le
  have read := congrArg Prod.fst (scan_recording scope t (notes, list))
  dsimp only at read
  rw [← read, List.reverse_nil, List.nil_append] at drawn
  rw [readInline]
  dsimp only
  generalize (scan scope.mode (readBracket scope) none none [] t notes).1 = pieces at drawn ⊢
  have paired := (within_emphasize measure.toInkMeasure given pieces).le
  have expanded := (within_expandAbbreviations measure.toInkMeasure tables.abbreviations
    (emphasize pieces)).le
  have mails := mailCost_emphasize μ pieces
  rw [mailCost, inventory_expandAbbreviations lasting_mail, ← mailCost]
  omega

end Spelling

/-! ### What stands in the spans as in the text -/

/-- What of a span is copied from the text as it stands, apart from mail addresses. -/
def Inline.copied? : Inline → Option Text
  | .rawHtml t | .code t | .autolink t false => some t
  | _ => none

def copiedCost (μ : Text → Nat) (spans : List Inline) : Nat :=
  sumOver μ (inventory Inline.copied? spans)

def ownCost (μ : Text → Nat) (spans : List Inline) : Nat :=
  sumOver μ (spans.filterMap Inline.copied?) + sumOver μ (spans.filterMap Inline.mail?)

theorem ownCost_append (μ : Text → Nat) (a b : List Inline) :
    ownCost μ (a ++ b) = ownCost μ a + ownCost μ b := by
  simp only [ownCost, List.filterMap_append, sumOver_append]
  omega

theorem copiedCost_add (μ : Text → Nat) (spans : List Inline) :
    copiedCost μ spans + mailCost μ spans = ownCost μ (fixed spans) := by
  have copied : inventory Inline.copied? spans = (fixed spans).filterMap Inline.copied? :=
    inventory_eq_fixed (fun span other => by
      cases span <;> first | rfl | exact absurd rfl other) spans
  have mails : inventory Inline.mail? spans = (fixed spans).filterMap Inline.mail? :=
    inventory_eq_fixed (fun span other => by
      cases span <;> first | rfl | exact absurd rfl other) spans
  rw [copiedCost, mailCost, copied, mails, ownCost]

section Ink

variable {μ : Text → Nat} (measure : InkMeasure μ)

include measure

theorem lexeme_copies {mode : EmphasisMode} {prev escaped : Option Char} {held cs : Text} {c : Char}
    {span : Inline} {more : Nat} (found : lexeme mode prev escaped held c cs = .span span more) :
    ownCost μ (fixed [span]) ≤ μ (c :: cs.take more) := by
  have drawn := lexeme_draws measure (fun _ => false) mode prev escaped held c cs
  rw [found] at drawn
  have le := Within.le drawn
  have shown : copiedCost μ [span] ≤ μ (span.wording fun _ => false) := by
    have alone (t : Text) : μ t ≤ μ (spaced [t]) := (spaced_measure measure [t]).ge
    cases lexeme_isLexeme found with
    | text | charRef | lineBreak => exact Nat.zero_le _
    | code t => exact alone t
    | rawHtml => exact Nat.le_refl _
    | autolink t email =>
      cases email with
      | false => exact alone t
      | true => exact Nat.zero_le _
  rw [← copiedCost_add]
  omega

theorem readFlat_copies (mode : EmphasisMode) (t : Text) :
    ownCost μ (fixed (readFlat mode t)) ≤ μ t := by
  rw [readFlat, fixed_emphasize]
  refine scan_measured (R := fun _ n spans _ => ownCost μ spans ≤ n) measure
    (fun _ _ => Nat.zero_le _) ?_ (fun le drawn => drawn.trans le)
    (fun found _ => lexeme_copies measure found) (fun _ => Nat.le_refl _) (fun _ _ => Nat.zero_le _)
    none none [] t ()
  intro _ _ _ _ _ a b left right
  rw [ownCost_append]
  exact Nat.add_le_add left right

theorem Recorded.copied {scope : Scope} {t : Text} {s : Notes × List Text}
    {found : Option (Inline × Nat) × Notes × List Text} (recorded : Recorded μ scope t s found) :
    ∃ price, Records μ scope.references s price found.2 ∧
      ownCost μ (foundFixed found.1) + price ≤ μ (t.take (foundLength found.1)) := by
  cases recorded with
  | nothing records => exact ⟨0, records, Nat.zero_le _⟩
  | footnote inside taken records =>
    exact ⟨_, records, (Nat.zero_add _).trans_le (measure.le_of_infix inside)⟩
  | @link image front rest k length target split aims =>
    subst split
    have flat := readFlat_copies measure scope.mode (rest.take k)
    have parts := link_parts measure front rest k length
    refine ⟨_, .of_new s.1 s.2 _, ?_⟩
    cases image with
    | true =>
      have mails := copiedCost_add μ (readFlat scope.mode (rest.take k))
      have unkept : sumOver μ (scope.unkept true (rest.take k)) =
          mailCost μ (readFlat scope.mode (rest.take k)) := rfl
      have none : ownCost μ (foundFixed (some (linkSpan scope true (rest.take k) target,
          front.length + (k + 1 + length)))) = 0 := rfl
      dsimp only [foundLength]
      omega
    | false =>
      have same : foundFixed (some (linkSpan scope false (rest.take k) target,
          front.length + (k + 1 + length))) = fixed (readFlat scope.mode (rest.take k)) :=
        fixed_link target _
      have unkept : sumOver μ (scope.unkept false (rest.take k)) = 0 := rfl
      dsimp only [foundLength]
      rw [same]
      omega

/-- What is copied into the spans of a text, the mail addresses in it and what is recorded of it stand
in it. -/
theorem record_copies (scope : Scope) : scope.Spends μ (copiedCost μ) := by
  intro t notes list
  have scanned : ∃ price, Records μ scope.references (notes, list) price
        (scope.record (notes, list) t) ∧
      ownCost μ (pieceFixed (scan scope.mode scope.recording none none [] t (notes, list)).1) +
        price ≤ μ t := by
    refine scan_measured (R := fun s n spans s' => ∃ price, Records μ scope.references s price s' ∧
      ownCost μ spans + price ≤ n) measure ?_ ?_ ?_ ?_ ?_ ?_ none none [] t (notes, list)
    · exact fun s n => ⟨0, .idle s 0, Nat.zero_le n⟩
    · rintro _ _ _ _ _ a b ⟨p, left, here⟩ ⟨q, right, later⟩
      refine ⟨p + q, left.compose right, ?_⟩
      rw [ownCost_append]
      omega
    · rintro _ _ _ _ _ le ⟨price, records, here⟩
      exact ⟨price, records, here.trans le⟩
    · exact fun found s => ⟨0, .idle s 0, lexeme_copies measure found⟩
    · exact fun s => ⟨0, .idle s 0, Nat.le_refl 0⟩
    · exact fun t s => (recording_recorded μ scope t s).copied measure
  obtain ⟨price, records, drawn⟩ := scanned
  obtain ⟨new, cost, written, paid, le⟩ := Records.spent records
  refine ⟨new, cost, written, paid, ?_⟩
  have same : fixed (readInline scope t notes).1 =
      pieceFixed (scan scope.mode scope.recording none none [] t (notes, list)).1 := by
    rw [readInline, scan_recording scope t (notes, list)]
    dsimp only
    rw [fixed_expandAbbreviations, fixed_emphasize]
  rw [copiedCost_add, same]
  omega

end Ink

end CommentMarkup
