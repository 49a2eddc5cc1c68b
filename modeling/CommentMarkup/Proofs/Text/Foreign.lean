import CommentMarkup.Proofs.Text.Measure
import Mathlib.Data.List.TakeWhile

/-!
# Foreign characters

No rule of the dialect gives a meaning to a character beyond ASCII, white space apart. These
characters are called foreign, and all others plain. What a rule takes off a line is plain, so the
foreign characters are what reading has to keep.
-/

namespace CommentMarkup

def isForeign (c : Char) : Bool := 128 ≤ c.toNat && !isSpace c

/-- The prefix that satisfies `p` taken off a list. -/
theorem drop_takeWhile_length {α : Type} (p : α → Bool) (l : List α) :
    l.drop (l.takeWhile p).length = l.dropWhile p := by
  induction l with
  | nil => rfl
  | cons a l ih =>
    by_cases h : p a <;> simp [h, ih]

theorem takeWhile_append_stop {p : Char → Bool} {a b : Text} (all : ∀ c ∈ a, p c)
    (stop : b.startsWith fun c => !p c) : (a ++ b).takeWhile p = a := by
  rw [List.takeWhile_append_of_pos all]
  cases b with
  | nil => cases stop
  | cons c b =>
    have stopped : (!p c) = true := stop
    rw [List.takeWhile_cons_of_neg (by simpa using stopped), List.append_nil]

namespace Text

def foreign (t : Text) : Text := t.filter isForeign

def Plain (t : Text) : Prop := ∀ c ∈ t, ¬ isForeign c

/-- `part` is what is left of `whole` without some plain text at both ends. -/
def Strips (whole part : Text) : Prop :=
  ∃ front back, whole = front ++ part ++ back ∧ Plain front ∧ Plain back

@[simp] theorem foreign_nil : foreign [] = [] := rfl

@[simp] theorem foreign_append (a b : Text) : foreign (a ++ b) = foreign a ++ foreign b :=
  List.filter_append a b

theorem foreign_cons_plain {c : Char} (plain : ¬ isForeign c) (t : Text) :
    foreign (c :: t) = foreign t := List.filter_cons_of_neg plain

theorem Plain.foreign {t : Text} (plain : Plain t) : t.foreign = [] :=
  List.filter_eq_nil_iff.mpr plain

theorem plain_nil : Plain [] := by
  intro c member
  cases member

theorem Plain.append {a b : Text} (left : Plain a) (right : Plain b) : Plain (a ++ b) := by
  intro c member
  rcases List.mem_append.mp member with old | new
  · exact left c old
  · exact right c new

theorem not_foreign_of_space {c : Char} (space : isSpace c) : ¬ isForeign c := by
  simp [isForeign, space]

theorem not_foreign_of_ascii {c : Char} (ascii : c.toNat < 128) : ¬ isForeign c := by
  simp only [isForeign, Bool.and_eq_true, decide_eq_true_eq]
  omega

theorem plain_of_all {p : Char → Bool} {t : Text} (sound : ∀ c, p c → ¬ isForeign c)
    (all : t.all p) : Plain t :=
  fun c member => sound c (List.all_eq_true.mp all c member)

theorem plain_iff_all {t : Text} : Plain t ↔ t.all fun c => !isForeign c := by
  simp [Plain]

theorem plain_takeWhile {p : Char → Bool} (sound : ∀ c, p c → ¬ isForeign c) (t : Text) :
    Plain (t.takeWhile p) :=
  fun c member => sound c (List.mem_takeWhile_imp member)

theorem plain_of_isBlank {t : Text} (blank : t.isBlank) : Plain t :=
  plain_of_all (fun _ => not_foreign_of_space) blank

/-! ### Stripping -/

theorem Strips.refl (t : Text) : Strips t t := ⟨[], [], by simp, plain_nil, plain_nil⟩

theorem Strips.trans {a b c : Text} (outer : Strips a b) (inner : Strips b c) : Strips a c := by
  obtain ⟨front, back, rfl, plainFront, plainBack⟩ := outer
  obtain ⟨front', back', rfl, plainFront', plainBack'⟩ := inner
  refine ⟨front ++ front', back' ++ back, by simp, ?_, ?_⟩
  · exact plainFront.append plainFront'
  · exact plainBack'.append plainBack

theorem Strips.foreign {whole part : Text} (strips : Strips whole part) :
    part.foreign = whole.foreign := by
  obtain ⟨front, back, rfl, plainFront, plainBack⟩ := strips
  simp [plainFront.foreign, plainBack.foreign]

theorem Strips.isInfix {whole part : Text} (strips : Strips whole part) : part <:+: whole := by
  obtain ⟨front, back, rfl, _, _⟩ := strips
  exact ⟨front, back, rfl⟩

theorem strips_append_left {front : Text} (plain : Plain front) (t : Text) :
    Strips (front ++ t) t := ⟨front, [], by simp, plain, plain_nil⟩

theorem strips_append_right {back : Text} (plain : Plain back) (t : Text) :
    Strips (t ++ back) t := ⟨[], back, by simp, plain_nil, plain⟩

theorem strips_nil {t : Text} (plain : Plain t) : Strips t [] :=
  ⟨t, [], by simp, plain, plain_nil⟩

theorem strips_cons {c : Char} (plain : ¬ isForeign c) (t : Text) : Strips (c :: t) t := by
  have single : Plain [c] := by simpa [Plain] using plain
  exact strips_append_left single t

theorem strips_dropWhile {p : Char → Bool} (sound : ∀ c, p c → ¬ isForeign c) (t : Text) :
    Strips t (t.dropWhile p) := by
  have strips := strips_append_left (plain_takeWhile sound t) (t.dropWhile p)
  rwa [List.takeWhile_append_dropWhile] at strips

theorem strips_dropEndWhile {p : Char → Bool} (sound : ∀ c, p c → ¬ isForeign c) (t : Text) :
    Strips t (t.dropEndWhile p) := by
  have parts := congrArg List.reverse (List.takeWhile_append_dropWhile (p := p) (l := t.reverse))
  rw [List.reverse_append, List.reverse_reverse] at parts
  have plain : Plain (t.reverse.takeWhile p).reverse := by
    intro c member
    exact plain_takeWhile sound _ c (List.mem_reverse.mp member)
  have strips := strips_append_right plain (t.dropEndWhile p)
  rwa [dropEndWhile, parts] at strips

theorem strips_trimStart (t : Text) : Strips t t.trimStart :=
  strips_dropWhile (fun _ => not_foreign_of_space) t

theorem strips_trimEnd (t : Text) : Strips t t.trimEnd :=
  strips_dropEndWhile (fun _ => not_foreign_of_space) t

theorem strips_trim (t : Text) : Strips t t.trim := (strips_trimStart t).trans (strips_trimEnd _)

theorem dropLead_iff {lead t rest : Text} : dropLead? lead t = some rest ↔ t = lead ++ rest := by
  unfold dropLead?
  rw [Option.ite_none_right_eq_some, List.isPrefixOf_iff_prefix, Option.some.injEq]
  constructor
  · rintro ⟨⟨tail, rfl⟩, rfl⟩
    rw [List.drop_left]
  · rintro rfl
    exact ⟨List.prefix_append lead rest, List.drop_left⟩

theorem strips_of_dropLead {lead t rest : Text} (plain : Plain lead)
    (h : dropLead? lead t = some rest) : Strips t rest := by
  rw [dropLead_iff.mp h]
  exact strips_append_left plain rest

end Text

/-! ### Lines -/

theorem foreign_unlines (ls : List Text) : Text.foreign (unlines ls) = ls.flatMap Text.foreign := by
  induction ls with
  | nil => rfl
  | cons l ls ih =>
    cases ls with
    | nil => simp [unlines]
    | cons l' ls =>
      rw [unlines_cons_cons, Text.foreign_append, Text.foreign_cons_plain (by decide), ih]
      rfl

theorem foreign_lines (t : Text) : (lines t).flatMap Text.foreign = t.foreign := by
  fun_induction lines t with
  | case1 => rfl
  | case2 cs ih =>
    rw [Text.foreign_cons_plain (by decide), ← ih]
    rfl
  | case3 cs ih =>
    rw [Text.foreign_cons_plain (by decide), Text.foreign_cons_plain (by decide), ← ih]
    rfl
  | case4 c cs _ _ hnil ih =>
    rw [hnil] at ih
    rw [← List.singleton_append (l := cs), Text.foreign_append, ← ih]
    simp
  | case5 c cs _ _ l ls hcons ih =>
    rw [hcons] at ih
    rw [← List.singleton_append (l := cs), ← List.singleton_append (l := l), Text.foreign_append,
      ← ih, List.flatMap_cons, Text.foreign_append]
    simp

theorem foreign_relines (ls : List Text) :
    (lines (unlines ls)).flatMap Text.foreign = ls.flatMap Text.foreign := by
  rw [foreign_lines, foreign_unlines]

end CommentMarkup
