import CommentMarkup.Proofs.Inline.Scanned
import Mathlib.Data.List.Infix
import Mathlib.Data.List.Nodup

/-!
# Reported links

A link with a label that names nothing is reported and left as it is written. What stands behind its
opening bracket is then read again, and so is the bracket itself if the exclamation mark of an image
stood before it.
-/

namespace CommentMarkup

def Warning.link? : Warning → Option Text
  | .unresolved .link label => some label
  | _ => none

def reportedLinks (warnings : List Warning) : List Text := warnings.filterMap Warning.link?

/-- A report of a link, with the text from its opening bracket on. -/
structure Report where
  place : Text
  /-- The bracket was read as that of an image. -/
  image : Bool
  label : Text
  deriving DecidableEq, Repr

namespace Scope

variable (scope : Scope)

/-- The label with which the text after an opening bracket is reported. -/
def unresolved? (t : Text) : Option Text :=
  match bracketIndex? 0 t with
  | none => none
  | some n =>
    match linkDestination? (t.drop (n + 1)), linkLabel? (t.drop (n + 1)) with
    | none, some (written, _) =>
      let label := if written.isBlank then t.take n else written
      if (scope.target? label).isNone then some label else none
    | _, _ => none

def report? : Text → Option Report
  | '!' :: '[' :: cs => (scope.unresolved? cs).map (⟨'[' :: cs, true, ·⟩)
  | '[' :: '^' :: _ => none
  | '[' :: cs => (scope.unresolved? cs).map (⟨'[' :: cs, false, ·⟩)
  | _ => none

def reporting : Attempt (Notes × List Report) := fun t s =>
  ((readBracket scope t s.1).1, (readBracket scope t s.1).2, s.2 ++ (scope.report? t).toList)

def reports (t : Text) (notes : Notes) : List Report :=
  (scan scope.mode scope.reporting none none [] t (notes, [])).2.2

end Scope

/-! ### Attempts -/

section Attempts

variable {scope : Scope}

theorem readLink_unresolved {t label : Text} (h : scope.unresolved? t = some label) (image : Bool)
    (notes : Notes) :
    readLink scope image t notes = (none, notes.warn (.unresolved .link label)) := by
  unfold Scope.unresolved? at h
  split at h
  · cases h
  · rename_i n closes
    split at h
    · rename_i written length bare labelled
      obtain ⟨missing, eq⟩ := Option.ite_none_right_eq_some.mp h
      rw [Option.isNone_iff_eq_none, Option.some.inj eq] at missing
      simp only [readLink, closes, bare, labelled, Option.some.inj eq, missing]
    · cases h

theorem readLink_quiet {t : Text} (h : scope.unresolved? t = none) (image : Bool)
    (notes : Notes) : (readLink scope image t notes).2 = notes := by
  unfold readLink
  dsimp only
  split
  · rfl
  · rename_i n closes
    split
    · rfl
    · rename_i bare
      split
      · rename_i written length labelled
        split
        · rfl
        · rename_i missing
          -- this label would have been reported
          simp only [Scope.unresolved?, closes, bare, labelled, missing] at h
          cases h
      · split <;> rfl

theorem readFootnote_reportedLinks (scope : Scope) (t : Text) (notes : Notes) :
    reportedLinks (readFootnote scope t notes).2.warnings = reportedLinks notes.warnings := by
  unfold readFootnote
  dsimp only
  split
  · rfl
  · split
    · rfl
    · unfold footnoteRef?
      dsimp only
      split
      · rfl
      · split
        · rfl
        · split
          · exact (List.filterMap_append).trans (List.append_nil _)
          · rfl

theorem readLink_reportedLinks (image : Bool) (t : Text) (notes : Notes) :
    reportedLinks (readLink scope image t notes).2.warnings =
      reportedLinks notes.warnings ++ (scope.unresolved? t).toList := by
  cases unresolved : scope.unresolved? t with
  | none => rw [readLink_quiet unresolved, Option.toList_none, List.append_nil]
  | some label =>
    rw [readLink_unresolved unresolved]
    exact List.filterMap_append

/-- A place at which an attempt may come to something. -/
inductive Opening : Text → Prop
  | image (cs : Text) : Opening ('!' :: '[' :: cs)
  | footnote (cs : Text) : Opening ('[' :: '^' :: cs)
  | link {cs : Text} (caret : cs.head? ≠ some '^') : Opening ('[' :: cs)

theorem opening_or_idle (scope : Scope) (t : Text) :
    Opening t ∨ scope.report? t = none ∧ ∀ notes, readBracket scope t notes = (none, notes) := by
  unfold Scope.report?
  split
  · exact .inl (.image _)
  · exact .inl (.footnote _)
  · rename_i cs other
    refine .inl (.link fun caret => ?_)
    obtain ⟨rest, rfl⟩ := List.head?_eq_some_iff.mp caret
    exact other rest rfl
  · rename_i image footnote link
    refine .inr ⟨rfl, fun notes => ?_⟩
    unfold readBracket
    split
    · exact absurd rfl (image _)
    · exact absurd rfl (footnote _)
    · exact absurd rfl (link _)
    · rfl

theorem readBracket_link {cs : Text} (caret : cs.head? ≠ some '^') (notes : Notes) :
    readBracket scope ('[' :: cs) notes = afterLead 1 (readLink scope false cs notes) := by
  unfold readBracket
  split
  · rename_i eq
    cases eq
  · rename_i eq
    cases eq
    exact absurd rfl caret
  · rename_i eq
    cases eq
    rfl
  · rename_i other
    exact absurd rfl (other cs)

theorem report_link {cs : Text} (caret : cs.head? ≠ some '^') :
    scope.report? ('[' :: cs) = (scope.unresolved? cs).map (⟨'[' :: cs, false, ·⟩) := by
  unfold Scope.report?
  split
  · rename_i eq
    cases eq
  · rename_i eq
    cases eq
    exact absurd rfl caret
  · rename_i eq
    cases eq
    rfl
  · rename_i other
    exact absurd rfl (other cs)

/-- An attempt reports what is written down of it. -/
theorem readBracket_reportedLinks (t : Text) (notes : Notes) :
    reportedLinks (readBracket scope t notes).2.warnings =
      reportedLinks notes.warnings ++ (scope.report? t).toList.map Report.label := by
  rcases opening_or_idle scope t with opening | ⟨silent, idle⟩
  · cases opening with
    | image cs =>
      refine (readLink_reportedLinks true cs notes).trans ?_
      rw [Scope.report?]
      cases scope.unresolved? cs <;> rfl
    | footnote cs =>
      refine (readFootnote_reportedLinks scope cs notes).trans ?_
      exact (List.append_nil _).symm
    | @link cs caret =>
      rw [readBracket_link caret, report_link caret]
      refine (readLink_reportedLinks false cs notes).trans ?_
      cases scope.unresolved? cs <;> rfl
  · rw [idle, silent]
    exact (List.append_nil _).symm

/-- A report names the bracket of the attempt that makes it. -/
theorem report_place {t : Text} {r : Report} (h : scope.report? t = some r) :
    r.place.head? = some '[' ∧
      (t = '!' :: r.place ∧ r.image = true ∨ t = r.place ∧ r.image = false) := by
  rcases opening_or_idle scope t with opening | ⟨silent, _⟩
  · cases opening with
    | image cs =>
      rw [Scope.report?] at h
      obtain ⟨label, _, rfl⟩ := Option.map_eq_some_iff.mp h
      exact ⟨rfl, .inl ⟨rfl, rfl⟩⟩
    | footnote cs => cases h
    | link caret =>
      rw [report_link caret] at h
      obtain ⟨label, _, rfl⟩ := Option.map_eq_some_iff.mp h
      exact ⟨rfl, .inr ⟨rfl, rfl⟩⟩
  · rw [silent] at h
    cases h

/-- The bracket of a reported image is reported once more, unless a caret makes it the bracket of a
footnote. -/
theorem report_again {cs : Text} {r : Report} (h : scope.report? ('!' :: '[' :: cs) = some r) :
    (scope.report? ('[' :: cs)).isSome ↔ ¬ Text.startsWith (· == '^') cs := by
  rw [Scope.report?] at h
  obtain ⟨label, unresolved, _⟩ := Option.map_eq_some_iff.mp h
  by_cases caret : cs.head? = some '^'
  · obtain ⟨rest, rfl⟩ := List.head?_eq_some_iff.mp caret
    simp [Scope.report?, Text.startsWith]
  · have bare : ¬ Text.startsWith (· == '^') cs := by
      cases cs with
      | nil => exact Bool.false_ne_true
      | cons c cs => simpa [Text.startsWith] using caret
    simp [report_link caret, unresolved, bare]

/-- What is reported comes to nothing. -/
theorem readBracket_report {t : Text} {report : Report} (h : scope.report? t = some report)
    (notes : Notes) : (readBracket scope t notes).1 = none := by
  rcases opening_or_idle scope t with opening | ⟨silent, idle⟩
  · cases opening with
    | image cs =>
      rw [Scope.report?] at h
      obtain ⟨label, unresolved, _⟩ := Option.map_eq_some_iff.mp h
      rw [readBracket, readLink_unresolved unresolved]
      rfl
    | footnote cs => cases h
    | @link cs caret =>
      rw [report_link caret] at h
      obtain ⟨label, unresolved, _⟩ := Option.map_eq_some_iff.mp h
      rw [readBracket_link caret, readLink_unresolved unresolved]
      rfl
  · rw [idle]

end Attempts

/-! ### Scanning -/

/-- The reports of a text, which is scanned from behind `escaped` if that was escaped. -/
structure ReportsOf (scope : Scope) (escaped : Option Char) (t : Text) (reports : List Report) :
    Prop where
  places : ∀ r ∈ reports, r.place <:+ t ∧ r.place.head? = some '['
  here : ∀ r ∈ reports, r.place = t → scope.report? t = some r
  first : escaped ≠ some '!' → t.head? = some '[' → ∀ r, scope.report? t = some r → r ∈ reports
  once : (reports.map Report.place).Nodup ↔
    ∀ r ∈ reports, r.image → Text.startsWith (· == '^') (r.place.drop 1)

namespace ReportsOf

variable {scope : Scope} {escaped escaped' : Option Char} {c : Char} {cs : Text} {new : List Report}

theorem nil : ReportsOf scope escaped [] [] where
  places r member := nomatch member
  here r member := nomatch member
  first _ start := nomatch start
  once := by simp

/-- Nothing is reported of what is passed over. -/
theorem pass {more : Nat} (later : ReportsOf scope escaped' (cs.drop more) new)
    (silent : escaped ≠ some '!' → c = '[' → scope.report? (c :: cs) = none) :
    ReportsOf scope escaped (c :: cs) new where
  places r member := by
    obtain ⟨inside, opens⟩ := later.places r member
    exact ⟨inside.trans (drop_suffix_cons _ c cs), opens⟩
  here r member same := by
    have short := ((later.places r member).1.trans (List.drop_suffix _ _)).length_le
    rw [same, List.length_cons] at short
    omega
  first bare opens r reported := by
    rw [silent bare (Option.some.inj opens)] at reported
    cases reported
  once := later.once

/-- A link is reported, and reading goes on behind its bracket. -/
theorem link {r : Report} (later : ReportsOf scope none cs new)
    (reported : scope.report? ('[' :: cs) = some r) :
    ReportsOf scope escaped ('[' :: cs) (r :: new) := by
  obtain ⟨opens, ⟨eq, _⟩ | ⟨eq, plain⟩⟩ := report_place reported
  · cases eq
  have apart : ∀ other ∈ new, other.place ≠ '[' :: cs := by
    intro other member same
    have short := (later.places other member).1.length_le
    rw [same, List.length_cons] at short
    omega
  refine ⟨?_, ?_, ?_, ?_⟩
  · rw [List.forall_mem_cons]
    refine ⟨⟨eq ▸ List.suffix_rfl, opens⟩, fun other member => ?_⟩
    obtain ⟨inside, opens⟩ := later.places other member
    exact ⟨inside.trans (List.suffix_cons _ cs), opens⟩
  · rw [List.forall_mem_cons]
    exact ⟨fun _ => reported, fun other member same => absurd same (apart other member)⟩
  · intro _ _ other found
    rw [reported] at found
    exact Option.some.inj found ▸ List.mem_cons_self
  · have fresh : r.place ∉ new.map Report.place := by
      rw [← eq]
      rintro member
      obtain ⟨other, listed, same⟩ := List.mem_map.mp member
      exact apart other listed same
    rw [List.map_cons, List.nodup_cons, List.forall_mem_cons, later.once, plain]
    simp [fresh]

/-- An image is reported, and reading goes on at its bracket. -/
theorem image {r : Report} (later : ReportsOf scope none cs new)
    (reported : scope.report? ('!' :: cs) = some r) :
    ReportsOf scope escaped ('!' :: cs) (r :: new) := by
  obtain ⟨opens, ⟨eq, marked⟩ | ⟨eq, _⟩⟩ := report_place reported
  swap
  · rw [← eq] at opens
    cases opens
  cases eq
  obtain ⟨rest, split⟩ := List.head?_eq_some_iff.mp opens
  refine ⟨?_, ?_, fun _ start => (by cases start), ?_⟩
  · rw [List.forall_mem_cons]
    refine ⟨⟨List.suffix_cons _ _, opens⟩, fun other member => ?_⟩
    obtain ⟨inside, opens⟩ := later.places other member
    exact ⟨inside.trans (List.suffix_cons _ _), opens⟩
  · intro other member same
    have start : other.place.head? = some '[' := by
      rcases List.mem_cons.mp member with rfl | listed
      · exact opens
      · exact (later.places other listed).2
    rw [same] at start
    cases start
  · -- the bracket is among the later places exactly if it is reported itself
    have again : r.place ∈ new.map Report.place ↔ (scope.report? r.place).isSome := by
      rw [List.mem_map, Option.isSome_iff_exists]
      constructor
      · rintro ⟨other, listed, same⟩
        exact ⟨other, same ▸ later.here other listed same⟩
      · rintro ⟨other, found⟩
        refine ⟨other, later.first (by simp) opens other found, ?_⟩
        obtain ⟨_, ⟨other', _⟩ | ⟨same, _⟩⟩ := report_place found
        · rw [other'] at opens
          cases opens
        · exact same.symm
    rw [split] at reported
    have caret := report_again reported
    rw [← split] at caret
    rw [List.map_cons, List.nodup_cons, List.forall_mem_cons, later.once, again, caret, marked,
      split, List.drop_one, List.tail_cons]
    simp

end ReportsOf

theorem scan_reports (scope : Scope) (prev escaped : Option Char) (held t : Text)
    (s : Notes × List Report) :
    ∃ new, (scan scope.mode scope.reporting prev escaped held t s).2.2 = s.2 ++ new ∧
      ReportsOf scope escaped t new := by
  have quiet {escaped : Option Char} {c : Char} {cs : Text} (closed : ¬ opensBracket escaped c cs) :
      escaped ≠ some '!' → c = '[' → scope.report? (c :: cs) = none := by
    rintro bare rfl
    exact absurd (by simp [opensBracket, bare]) closed
  fun_induction scan scope.mode scope.reporting prev escaped held t s with
  | case1 prev escaped held s => exact ⟨[], (List.append_nil _).symm, .nil⟩
  | case2 prev escaped held s c cs last opens span n s' found pieces s'' rest ih =>
    have silent : scope.report? (c :: cs) = none := by
      by_contra reported
      obtain ⟨r, reported⟩ := Option.ne_none_iff_exists'.mp reported
      have nothing : (scope.reporting (c :: cs) s).1 = none := readBracket_report reported s.1
      rw [found] at nothing
      cases nothing
    have same : s'.2 = s.2 := by
      have written : (scope.reporting (c :: cs) s).2.2 = s.2 := by simp [Scope.reporting, silent]
      rwa [found] at written
    rw [rest] at ih
    obtain ⟨new, eq, later⟩ := ih
    exact ⟨new, by rw [← same, ← eq], later.pass fun _ _ => silent⟩
  | case3 prev escaped held s c cs opens s' found ih =>
    obtain ⟨new, eq, later⟩ := ih
    have written :
        (scope.reporting (c :: cs) s).2.2 = s.2 ++ (scope.report? (c :: cs)).toList := rfl
    rw [found] at written
    rw [written, List.append_assoc] at eq
    refine ⟨_, eq, ?_⟩
    cases reported : scope.report? (c :: cs) with
    | none =>
      have behind : ReportsOf scope none (cs.drop 0) new := later
      exact behind.pass fun _ _ => reported
    | some r =>
      obtain ⟨start, ⟨split, _⟩ | ⟨split, _⟩⟩ := report_place reported
      · cases split
        exact later.image reported
      · rw [← split] at start
        cases start
        exact later.link reported
  | case4 prev escaped held s c cs last closed shown more found ih
  | case5 prev escaped held s c cs closed e found ih =>
    obtain ⟨new, eq, later⟩ := ih
    exact ⟨new, eq, later.pass (quiet closed)⟩
  | case6 prev escaped held s c cs last closed span more found pieces s' rest ih
  | case7 prev escaped held s c cs last closed run more found pieces s' rest ih
  | case8 prev escaped held s c cs closed more found pieces s' rest ih =>
    rw [rest] at ih
    obtain ⟨new, eq, later⟩ := ih
    exact ⟨new, eq, later.pass (quiet closed)⟩

def WritesDown (before after : Notes × List Report) : Prop :=
  ∃ new, after.2 = before.2 ++ new ∧
    reportedLinks after.1.warnings = reportedLinks before.1.warnings ++ new.map Report.label

theorem WritesDown.refl (s : Notes × List Report) : WritesDown s s := ⟨[], by simp, by simp⟩

theorem WritesDown.trans {first second third : Notes × List Report}
    (left : WritesDown first second) (right : WritesDown second third) :
    WritesDown first third := by
  obtain ⟨new, eq, labels⟩ := left
  obtain ⟨more, eq', labels'⟩ := right
  exact ⟨new ++ more, by rw [eq', eq, List.append_assoc],
    by rw [labels', labels, List.map_append, List.append_assoc]⟩

theorem scan_writesDown (scope : Scope) (prev escaped : Option Char) (held t : Text)
    (s : Notes × List Report) :
    WritesDown s (scan scope.mode scope.reporting prev escaped held t s).2 :=
  scan_related (R := fun before _ _ after => WritesDown before after) (fun s _ => .refl s)
    (fun left right => left.trans right) (fun _ writes => writes) (fun s _ _ => .refl s)
    (fun t s => ⟨_, rfl, readBracket_reportedLinks t s.1⟩) prev escaped held t s

theorem readInline_reports (scope : Scope) (t : Text) (notes : Notes) :
    reportedLinks (readInline scope t notes).2.warnings =
        reportedLinks notes.warnings ++ (scope.reports t notes).map Report.label ∧
      ReportsOf scope none t (scope.reports t notes) := by
  have same : scan scope.mode (readBracket scope) none none [] t notes =
      ((scan scope.mode scope.reporting none none [] t (notes, [])).1,
        (scan scope.mode scope.reporting none none [] t (notes, [])).2.1) :=
    scan_project Prod.fst (fun _ _ => rfl) none none [] t (notes, [])
  obtain ⟨new, eq, found⟩ := scan_reports scope none none [] t (notes, [])
  obtain ⟨listed, eq', labels⟩ := scan_writesDown scope none none [] t (notes, [])
  rw [List.nil_append] at eq eq'
  refine ⟨?_, ?_⟩
  · rw [Scope.reports, eq', ← labels, readInline, same]
  · rwa [Scope.reports, eq]

end CommentMarkup
