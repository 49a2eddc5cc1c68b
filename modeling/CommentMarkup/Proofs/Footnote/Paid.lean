import CommentMarkup.Inline.Reader
import CommentMarkup.Proofs.Block.Prose

/-!
# What footnotes cost

A footnote is either defined or written in place. A defined one becomes a footnote once, so that all
footnotes together are worth no more than the definitions and the texts of the brackets that refer to
them: `footnoteRef_paid`.
-/

namespace CommentMarkup

theorem mem_of_lookup {α β : Type} [BEq α] [LawfulBEq α] {key : α} {value : β} {l : List (α × β)}
    (h : l.lookup key = some value) : (key, value) ∈ l := by
  induction l with
  | nil => cases h
  | cons entry l ih =>
    obtain ⟨k, v⟩ := entry
    rw [List.lookup_cons] at h
    split at h
    · rename_i same
      cases h
      rw [beq_iff_eq.mp same]
      exact List.mem_cons_self
    · exact List.mem_cons_of_mem _ (ih h)

theorem lookup_isNone_append {α β : Type} [BEq α] [LawfulBEq α] {key other : α} {value : β}
    {l : List (α × β)} :
    ((l ++ [(key, value)]).lookup other).isNone = ((l.lookup other).isNone && other != key) := by
  induction l with
  | nil =>
    rw [List.nil_append, List.lookup_cons, List.lookup_nil, Option.isNone_none, Bool.true_and, bne]
    cases other == key <;> rfl
  | cons entry l ih =>
    rw [List.cons_append, List.lookup_cons, List.lookup_cons]
    cases other == entry.1 with
    | true => rfl
    | false => exact ih

theorem sumOver_filter_strict {α : Type} {f : α → Nat} {p q : α → Bool} {a : α} {l : List α}
    (narrower : ∀ b, q b → p b) (member : a ∈ l) (old : p a) (gone : ¬ q a) :
    f a + sumOver f (l.filter q) ≤ sumOver f (l.filter p) := by
  have fewer (l : List α) : sumOver f (l.filter q) ≤ sumOver f (l.filter p) := by
    rw [show l.filter q = (l.filter p).filter q by
      rw [List.filter_filter]
      congr 1
      funext b
      by_cases h : q b
      · simp [h, narrower b h]
      · simp [h]]
    exact sumOver_filter_le f q _
  induction l with
  | nil => cases member
  | cons b l ih =>
    rcases List.mem_cons.mp member with rfl | tail
    · rw [List.filter_cons_of_neg gone, List.filter_cons_of_pos old, sumOver_cons]
      exact Nat.add_le_add_left (fewer l) _
    · have rest := ih tail
      by_cases kept : q b
      · rw [List.filter_cons_of_pos kept, List.filter_cons_of_pos (narrower b kept), sumOver_cons,
          sumOver_cons]
        omega
      · rw [List.filter_cons_of_neg kept]
        by_cases wide : p b
        · rw [List.filter_cons_of_pos wide, sumOver_cons]
          omega
        · rwa [List.filter_cons_of_neg wide]

section Paid

variable (worth : FootnoteSource → Nat) (references : References)

def unused (notes : Notes) : Nat :=
  sumOver (fun entry => worth (.defined entry.2))
    (references.footnotes.filter fun entry => (notes.numbers.lookup entry.1).isNone)

/-- The new footnotes are worth no more than the price and the definitions that are used up. -/
def Paid (before : Notes) (price : Nat) (after : Notes) : Prop :=
  ∃ added, after.footnotes = before.footnotes ++ added ∧
    sumOver (fun pending => worth pending.source) added + unused worth references after ≤
      unused worth references before + price

namespace Paid

variable {worth references}

theorem idle (notes : Notes) (price : Nat) : Paid worth references notes price notes :=
  ⟨[], by simp, by simp [sumOver]⟩

theorem warn (notes : Notes) (warning : Warning) (price : Nat) :
    Paid worth references notes price (notes.warn warning) :=
  ⟨[], by simp [Notes.warn], by simp [sumOver, unused, Notes.warn]⟩

theorem compose {first second third : Notes} {m n : Nat}
    (left : Paid worth references first m second) (right : Paid worth references second n third) :
    Paid worth references first (m + n) third := by
  obtain ⟨added, footnotes, paid⟩ := left
  obtain ⟨added', footnotes', paid'⟩ := right
  refine ⟨added ++ added', by rw [footnotes', footnotes, List.append_assoc], ?_⟩
  rw [sumOver_append]
  omega

theorem weaken {before after : Notes} {m n : Nat} (le : m ≤ n)
    (h : Paid worth references before m after) : Paid worth references before n after := by
  obtain ⟨added, footnotes, paid⟩ := h
  exact ⟨added, footnotes, by omega⟩

end Paid

theorem footnoteRef_span {scope : Scope} {content : Text} {notes : Notes} {span : Inline}
    (h : (footnoteRef? scope content notes).1 = some span) :
    ∃ label number first, span = .footnoteRef label number first := by
  unfold footnoteRef? at h
  dsimp only at h
  split at h
  · cases h
    exact ⟨_, _, _, rfl⟩
  split at h
  · cases h
    exact ⟨_, _, _, rfl⟩
  split at h
  · cases h
  · cases h
    exact ⟨_, _, _, rfl⟩

/-- A bracket that refers to a footnote is worth its content. -/
theorem footnoteRef_paid (scope : Scope) (content : Text) (notes : Notes) :
    Paid worth scope.references notes
      ((footnoteRef? scope content notes).1.elim 0 fun _ => worth (.inPlace content))
      (footnoteRef? scope content notes).2 := by
  unfold footnoteRef?
  dsimp only
  split
  · exact .idle notes _
  · rename_i fresh
    split
    · rename_i blocks found
      -- the definition is used up, which pays for the footnote that it becomes
      refine ⟨[⟨content, .defined blocks⟩], rfl, ?_⟩
      have spent := sumOver_filter_strict
        (f := fun entry : Text × List Block => worth (.defined entry.2))
        (p := fun entry => (notes.numbers.lookup entry.1).isNone)
        (q := fun entry => ((notes.numbers ++
          [(normalizeLabel content, notes.nextNumber)]).lookup entry.1).isNone)
        (fun entry kept => by
          rw [lookup_isNone_append, Bool.and_eq_true] at kept
          exact kept.1)
        (mem_of_lookup found) (by simp [fresh]) (by simp [lookup_isNone_append])
      simp only [sumOver, unused, Notes.register] at spent ⊢
      omega
    · split
      · exact .warn notes _ _
      · refine ⟨[⟨Text.ofNat notes.nextNumber, .inPlace content⟩], rfl, ?_⟩
        simp only [sumOver, unused, Notes.register, Option.elim_some]
        omega

end Paid

end CommentMarkup
