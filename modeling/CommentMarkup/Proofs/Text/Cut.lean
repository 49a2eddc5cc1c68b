import CommentMarkup.Proofs.Text.Measure

/-!
# Cutting at line feeds

Cutting a text at each line feed and joining the pieces gives the text again. `lines` finds the same
pieces if none of them is empty or ends with white space.
-/

namespace CommentMarkup

namespace Text

theorem startsWith_iff {p : Char → Bool} {t : Text} :
    t.startsWith p ↔ ∃ c u, t = c :: u ∧ p c := by
  cases t with
  | nil => simp [startsWith]
  | cons c t => simp [startsWith]

theorem endsWith_iff {p : Char → Bool} {t : Text} :
    t.endsWith p ↔ ∃ u c, t = u ++ [c] ∧ p c := by
  rw [endsWith, startsWith_iff]
  constructor
  · rintro ⟨c, u, eq, h⟩
    refine ⟨u.reverse, c, ?_, h⟩
    rw [List.reverse_eq_iff.mp eq, List.reverse_cons]
  · rintro ⟨u, c, rfl, h⟩
    exact ⟨c, u.reverse, by simp, h⟩

theorem endsWith_of_notMem {c : Char} {t : Text} (none : c ∉ t) : t.endsWith (· == c) = false := by
  rw [Bool.eq_false_iff]
  intro ends
  obtain ⟨u, d, rfl, same⟩ := endsWith_iff.mp ends
  exact none (by simp [beq_iff_eq.mp same])

end Text

section Pieces

variable {α : Type} {p : α → Bool}

theorem cutAt_ne_nil (l : List α) : cutAt p l ≠ [] := by
  cases l with
  | nil => simp [cutAt]
  | cons a l =>
    unfold cutAt
    split
    · simp
    · split <;> simp

theorem cutAt_cons_pos {a : α} (cut : p a) (l : List α) : cutAt p (a :: l) = [] :: cutAt p l := by
  rw [cutAt, if_pos cut]

theorem cutAt_cons_neg {a : α} (kept : ¬ p a) (l : List α) :
    ∃ piece pieces, cutAt p l = piece :: pieces ∧ cutAt p (a :: l) = (a :: piece) :: pieces := by
  cases eq : cutAt p l with
  | nil => exact absurd eq (cutAt_ne_nil l)
  | cons piece pieces =>
    refine ⟨piece, pieces, rfl, ?_⟩
    rw [cutAt, if_neg kept, eq]

/-- What stands before the first cut belongs to the first piece. -/
theorem cutAt_append {front l piece : List α} {pieces : List (List α)}
    (kept : ∀ a ∈ front, ¬ p a) (cut : cutAt p l = piece :: pieces) :
    cutAt p (front ++ l) = (front ++ piece) :: pieces := by
  induction front with
  | nil => exact cut
  | cons a front ih =>
    rw [List.forall_mem_cons] at kept
    obtain ⟨first, others, eq, whole⟩ := cutAt_cons_neg kept.1 (front ++ l)
    rw [ih kept.2] at eq
    cases eq
    exact whole

theorem cutAt_whole {l : List α} (kept : ∀ a ∈ l, ¬ p a) : cutAt p l = [l] := by
  simpa using cutAt_append (l := []) kept rfl

/-- The pieces hold the elements between the cuts. -/
theorem of_mem_cutAt {l piece : List α} {a : α} (found : piece ∈ cutAt p l) (member : a ∈ piece) :
    a ∈ l ∧ ¬ p a := by
  induction l generalizing piece with
  | nil =>
    rw [List.mem_singleton.mp found] at member
    cases member
  | cons b l ih =>
    have later {part : List α} (tail : part ∈ cutAt p l) (inner : a ∈ part) : a ∈ b :: l ∧ ¬ p a :=
      (ih tail inner).imp_left (List.mem_cons_of_mem b)
    by_cases cut : p b
    · rw [cutAt_cons_pos cut] at found
      rcases List.mem_cons.mp found with rfl | tail
      · cases member
      · exact later tail member
    · obtain ⟨first, others, eq, whole⟩ := cutAt_cons_neg cut l
      rw [whole] at found
      rw [eq] at later
      rcases List.mem_cons.mp found with rfl | tail
      · rcases List.mem_cons.mp member with rfl | inner
        · exact ⟨List.mem_cons_self, cut⟩
        · exact later List.mem_cons_self inner
      · exact later (List.mem_cons_of_mem _ tail) member

/-- What stands right before a cut ends a piece. -/
theorem exists_cutAt_ending {a b : α} (kept : ¬ p a) (cut : p b) (front back : List α) :
    ∃ u, u ++ [a] ∈ cutAt p (front ++ a :: b :: back) := by
  induction front with
  | nil =>
    obtain ⟨piece, pieces, eq, whole⟩ := cutAt_cons_neg kept (b :: back)
    rw [cutAt_cons_pos cut] at eq
    cases eq
    exact ⟨[], by rw [List.nil_append, whole]; exact List.mem_cons_self⟩
  | cons c front ih =>
    obtain ⟨u, found⟩ := ih
    by_cases here : p c
    · exact ⟨u, by rw [List.cons_append, cutAt_cons_pos here]; exact List.mem_cons_of_mem _ found⟩
    · obtain ⟨piece, pieces, eq, whole⟩ := cutAt_cons_neg here (front ++ a :: b :: back)
      rw [eq] at found
      rw [List.cons_append, whole]
      rcases List.mem_cons.mp found with same | tail
      · exact ⟨c :: u, by rw [← same]; exact List.mem_cons_self⟩
      · exact ⟨u, List.mem_cons_of_mem _ tail⟩

end Pieces

theorem cutAt_lineFeed {l : Text} (whole : '\n' ∉ l) : cutAt (· == '\n') l = [l] :=
  cutAt_whole fun _ member feed => whole (beq_iff_eq.mp feed ▸ member)

theorem unlines_cutAt (t : Text) : unlines (cutAt (· == '\n') t) = t := by
  induction t with
  | nil => rfl
  | cons c t ih =>
    by_cases feed : c = '\n'
    · subst feed
      rw [cutAt_cons_pos rfl]
      cases eq : cutAt (· == '\n') t with
      | nil => exact absurd eq (cutAt_ne_nil t)
      | cons piece pieces => rw [unlines_cons_cons, ← eq, ih, List.nil_append]
    · obtain ⟨piece, pieces, eq, whole⟩ :=
        cutAt_cons_neg (p := (· == '\n')) (by simpa using feed) t
      rw [eq] at ih
      rw [whole, ← ih]
      cases pieces with
      | nil => simp [unlines]
      | cons piece' pieces => rw [unlines_cons_cons, unlines_cons_cons, List.cons_append]

/-- Pieces without line feeds are found again. -/
theorem cutAt_unlines {ls : List Text} (filled : ls ≠ []) (whole : ∀ l ∈ ls, '\n' ∉ l) :
    cutAt (· == '\n') (unlines ls) = ls := by
  have kept {l : Text} (one : '\n' ∉ l) : ∀ c ∈ l, ¬ (c == '\n') = true := by
    intro c member feed
    exact one (beq_iff_eq.mp feed ▸ member)
  induction ls with
  | nil => exact absurd rfl filled
  | cons l ls ih =>
    rw [List.forall_mem_cons] at whole
    cases ls with
    | nil => simpa [unlines] using cutAt_append (l := []) (kept whole.1) rfl
    | cons l' ls =>
      rw [unlines_cons_cons, cutAt_append (kept whole.1) (cutAt_cons_pos rfl _), List.append_nil,
        ih (by simp) whole.2]

theorem notMem_unlines {c : Char} {ls : List Text} (feed : c ≠ '\n') (each : ∀ l ∈ ls, c ∉ l) :
    c ∉ unlines ls := by
  induction ls with
  | nil => exact List.not_mem_nil
  | cons l ls ih =>
    rw [List.forall_mem_cons] at each
    cases ls with
    | nil => simpa [unlines] using each.1
    | cons l' ls =>
      rw [unlines_cons_cons, List.mem_append, List.mem_cons]
      simp only [each.1, feed, ih each.2, or_self, not_false_eq_true]

/-! ### Lines -/

theorem lines_cons {c : Char} {t : Text} (other : c ≠ '\n')
    (bare : c = '\r' → t.head? ≠ some '\n') :
    lines (c :: t) =
      match lines t with
      | [] => [[c]]
      | l :: ls => (c :: l) :: ls := by
  apply lines.eq_4
  · exact other
  · rintro cs rfl rfl
    exact bare rfl rfl

theorem lines_singleton {l : Text} (whole : '\n' ∉ l) (filled : l ≠ []) : lines l = [l] := by
  induction l with
  | nil => exact absurd rfl filled
  | cons c l ih =>
    rw [List.mem_cons, not_or] at whole
    have bare : l.head? ≠ some '\n' := fun head => whole.2 (List.mem_of_head? head)
    rw [lines_cons (Ne.symm whole.1) fun _ => bare]
    cases l with
    | nil => rfl
    | cons d l => rw [ih whole.2 (by simp)]

def Text.dropReturn (l : Text) : Text := if l.endsWith (· == '\r') then l.dropLast else l

theorem Text.endsWith_cons {p : Char → Bool} {l : Text} (filled : l ≠ []) (c : Char) :
    endsWith p (c :: l) = endsWith p l := by
  obtain ⟨u, d, rfl⟩ := List.eq_nil_or_concat l |>.resolve_left filled
  simp [endsWith, startsWith]

theorem Text.dropReturn_cons {c : Char} {l : Text} (kept : l = [] → c ≠ '\r') :
    dropReturn (c :: l) = c :: dropReturn l := by
  cases l with
  | nil =>
    have other : endsWith (· == '\r') [c] = false := by simpa [endsWith, startsWith] using kept rfl
    rw [dropReturn, other]
    rfl
  | cons d l =>
    rw [dropReturn, dropReturn, endsWith_cons (by simp)]
    split <;> rfl

theorem Text.dropReturn_bare {l : Text} (bare : l.endsWith (· == '\r') = false) :
    l.dropReturn = l := by rw [dropReturn, bare]; rfl

theorem lines_return (t : Text) : lines ('\r' :: '\n' :: t) = lines ('\n' :: t) := rfl

/-- The lines of a text that goes on after a line feed. -/
theorem lines_join (s t : Text) :
    lines (s ++ '\n' :: t) = (cutAt (· == '\n') s).map Text.dropReturn ++ lines t := by
  induction s with
  | nil => rfl
  | cons c s ih =>
    by_cases feed : c = '\n'
    · subst feed
      rw [cutAt_cons_pos rfl, List.cons_append, lines, ih]
      rfl
    · obtain ⟨piece, pieces, cut, whole⟩ :=
        cutAt_cons_neg (p := (· == '\n')) (by simpa using feed) s
      have opens : (s ++ '\n' :: t).head? = some '\n' ↔ piece = [] := by
        cases s with
        | nil =>
          cases cut
          simp
        | cons d s =>
          by_cases feed : d = '\n'
          · rw [feed, cutAt_cons_pos rfl] at cut
            cases cut
            simp [feed]
          · obtain ⟨_, _, _, inner⟩ := cutAt_cons_neg (p := (· == '\n')) (by simpa using feed) s
            rw [inner] at cut
            cases cut
            simp [feed]
      rw [cut, List.map_cons, List.cons_append] at ih
      rw [whole, List.map_cons, List.cons_append, List.cons_append]
      by_cases returns : c = '\r' ∧ piece = []
      · obtain ⟨rfl, rfl⟩ := returns
        obtain ⟨rest, starts⟩ := List.head?_eq_some_iff.mp (opens.mpr rfl)
        rw [starts] at ih
        rw [starts, lines_return, ih]
        rfl
      · have kept : piece = [] → c ≠ '\r' := fun none same => returns ⟨same, none⟩
        rw [lines_cons feed fun same => mt opens.mp fun none => kept none same, ih,
          Text.dropReturn_cons kept]

theorem lines_unlines_cons {l : Text} (whole : '\n' ∉ l) (l' : Text) (ls : List Text) :
    lines (unlines (l :: l' :: ls)) = l.dropReturn :: lines (unlines (l' :: ls)) := by
  rw [unlines_cons_cons, lines_join, cutAt_lineFeed whole]
  rfl

/-- A line feed at the end makes an empty line, or ends the last line. -/
theorem lines_end {s : Text} (bare : s.endsWith (· == '\r') = false) :
    lines (s ++ ['\n']) = lines s ∨ lines (s ++ ['\n']) = lines s ++ [[]] := by
  induction s with
  | nil => exact .inr rfl
  | cons c s ih =>
    have later : Text.endsWith (· == '\r') s = false := by
      cases s with
      | nil => rfl
      | cons d s => rwa [Text.endsWith_cons (by simp)] at bare
    by_cases feed : c = '\n'
    · subst feed
      rw [List.cons_append, lines, lines, List.cons_append]
      exact (ih later).imp (congrArg _) (congrArg _)
    · by_cases returns : c = '\r' ∧ s.head? = some '\n'
      · obtain ⟨rfl, starts⟩ := returns
        obtain ⟨rest, rfl⟩ := List.head?_eq_some_iff.mp starts
        exact ih later
      · have first : c = '\r' → s.head? ≠ some '\n' := fun same head => returns ⟨same, head⟩
        have behind : c = '\r' → (s ++ ['\n']).head? ≠ some '\n' := by
          intro same
          cases s with
          | nil =>
            subst same
            exact absurd bare (by decide)
          | cons d s => exact first same
        rw [List.cons_append, lines_cons feed behind, lines_cons feed first]
        rcases ih later with same | ended
        · rw [same]
          exact .inl rfl
        · rw [ended]
          cases lines s with
          | nil => exact .inl rfl
          | cons l ls => exact .inr rfl

/-- A text that is found again as a line: it holds no line feed, and no carriage return at its end
that would be taken for a part of one. -/
structure IsLine (l : Text) : Prop where
  whole : '\n' ∉ l
  bare : l.endsWith (· == '\r') = false

theorem lines_isLine {l : Text} (line : IsLine l) (t : Text) :
    lines (l ++ '\n' :: t) = l :: lines t := by
  rw [lines_join, cutAt_lineFeed line.whole, List.map_singleton, Text.dropReturn_bare line.bare,
    List.singleton_append]

theorem lines_append {l : Text} (whole : '\n' ∉ l) (inked : l.endsWith fun c => !isSpace c)
    (t : Text) : lines (l ++ '\n' :: t) = l :: lines t := by
  refine lines_isLine ⟨whole, ?_⟩ t
  obtain ⟨u, c, rfl, ink⟩ := Text.endsWith_iff.mp inked
  have other : c ≠ '\r' := by
    rintro rfl
    exact absurd ink (by decide)
  simpa [Text.endsWith, Text.startsWith] using other

/-- Lines that end with ink are found again. -/
theorem lines_unlines {ls : List Text} (whole : ∀ l ∈ ls, '\n' ∉ l)
    (inked : ∀ l ∈ ls, l.endsWith fun c => !isSpace c) : lines (unlines ls) = ls := by
  induction ls with
  | nil => rfl
  | cons l ls ih =>
    have first := inked l List.mem_cons_self
    have one := whole l List.mem_cons_self
    cases ls with
    | nil =>
      have filled : l ≠ [] := by
        rintro rfl
        cases first
      rw [unlines_singleton]
      exact lines_singleton one filled
    | cons l' ls =>
      rw [unlines_cons_cons, lines_append one first]
      rw [ih (fun m member => whole m (List.mem_cons_of_mem _ member))
        fun m member => inked m (List.mem_cons_of_mem _ member)]

/-! ### Parts of lines -/

theorem infix_of_mem_lines {l t : Text} (found : l ∈ lines t) : l <:+: t ∧ '\n' ∉ l := by
  have first (t l : Text) (ls : List Text) (eq : lines t = l :: ls) : l <+: t := by
    fun_induction lines t generalizing l ls with
    | case1 => cases eq
    | case2 cs _ =>
      cases eq
      exact List.nil_prefix
    | case3 cs _ =>
      cases eq
      exact List.nil_prefix
    | case4 c cs _ _ none _ =>
      cases eq
      exact List.prefix_append [c] cs
    | case5 c cs _ _ m ms some ih =>
      cases eq
      exact List.prefix_cons_inj c |>.mpr (ih m ms some)
  fun_induction lines t generalizing l with
  | case1 => cases found
  | case2 cs ih =>
    rcases List.mem_cons.mp found with rfl | tail
    · exact ⟨List.nil_infix, List.not_mem_nil⟩
    · obtain ⟨inside, whole⟩ := ih tail
      exact ⟨inside.trans (List.suffix_cons _ cs).isInfix, whole⟩
  | case3 cs ih =>
    rcases List.mem_cons.mp found with rfl | tail
    · exact ⟨List.nil_infix, List.not_mem_nil⟩
    · obtain ⟨inside, whole⟩ := ih tail
      exact ⟨inside.trans (List.suffix_append ['\r', '\n'] cs).isInfix, whole⟩
  | case4 c cs feed _ none _ =>
    rw [List.mem_singleton.mp found]
    exact ⟨(List.prefix_append [c] cs).isInfix, by simpa using Ne.symm feed⟩
  | case5 c cs feed _ m ms some ih =>
    rw [some] at ih
    rcases List.mem_cons.mp found with rfl | tail
    · have whole := (ih List.mem_cons_self).2
      refine ⟨(List.prefix_cons_inj c |>.mpr (first cs m ms some)).isInfix, ?_⟩
      simpa using ⟨Ne.symm feed, whole⟩
    · obtain ⟨inside, whole⟩ := ih (List.mem_cons_of_mem _ tail)
      exact ⟨inside.trans (List.suffix_cons _ cs).isInfix, whole⟩

theorem lines_whole (t : Text) : ∀ l ∈ lines t, '\n' ∉ l :=
  fun _ found => (infix_of_mem_lines found).2

theorem infix_of_separated {l a b : Text} (whole : '\n' ∉ l) (inside : l <:+: a ++ '\n' :: b) :
    l <:+: a ∨ l <:+: b := by
  obtain ⟨front, back, eq⟩ := inside
  -- either `l` ends before the separator, or it starts after it: it has no line feed of its own
  rcases List.append_eq_append_iff.mp eq with ⟨rest, left, _⟩ | ⟨rest, left, right⟩
  · exact .inl ⟨front, rest, left.symm⟩
  · cases rest with
    | nil => exact .inl ⟨front, [], by simp [left]⟩
    | cons c rest =>
      cases right
      rcases List.append_eq_append_iff.mp left with ⟨more, _, same⟩ | ⟨more, _, same⟩
      · exact absurd (by rw [same]; simp) whole
      · cases more with
        | nil => exact absurd (by rw [← List.nil_append l, ← same]; simp) whole
        | cons c more =>
          cases same
          exact .inr ⟨more, back, rfl⟩

theorem infix_of_mem_unlines {l : Text} {ls : List Text} (whole : '\n' ∉ l) (filled : ls ≠ [])
    (inside : l <:+: unlines ls) : ∃ m ∈ ls, l <:+: m := by
  induction ls with
  | nil => exact absurd rfl filled
  | cons m ls ih =>
    cases ls with
    | nil => exact ⟨m, List.mem_cons_self, by simpa [unlines] using inside⟩
    | cons m' ls =>
      rw [unlines_cons_cons] at inside
      rcases infix_of_separated whole inside with here | later
      · exact ⟨m, List.mem_cons_self, here⟩
      · obtain ⟨k, member, inner⟩ := ih (by simp) later
        exact ⟨k, List.mem_cons_of_mem _ member, inner⟩

end CommentMarkup
