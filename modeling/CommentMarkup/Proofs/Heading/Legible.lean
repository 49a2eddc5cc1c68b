import CommentMarkup.Proofs.Inline.Seen

/-!
# Legible headings

The text that a heading's anchor is made of comes from a scanner of its own, which knows escapes and
tags but no code, no character references and no addresses. In a legible line it takes the same
characters for markup as inline reading, so that both show text of the same slug:
`slugify_visibleText`.
-/

namespace CommentMarkup

/-! ### Visible text -/

theorem visibleText_angle {cs : Text} (bare : tagLength? cs = none) :
    visibleText ('<' :: cs) = '<' :: visibleText cs := by
  rw [visibleText, bare]

theorem visibleText_tag {cs : Text} {n : Nat} (tag : tagLength? cs = some n) :
    visibleText ('<' :: cs) = visibleText (cs.drop n) := by
  rw [visibleText, tag]

theorem visibleText_plain {c : Char} {cs : Text} (unescaped : c = '\\' → cs = []) (other : c ≠ '<')
    (unbracketed : '[' ∉ c :: cs) : visibleText (c :: cs) = c :: visibleText cs := by
  rw [List.mem_cons, not_or] at unbracketed
  rw [visibleText]
  · rintro d ds rfl rfl
    cases unescaped rfl
  · rintro ds rfl rfl
    exact unbracketed.2 List.mem_cons_self
  · rintro rfl
    exact unbracketed.1 rfl
  · exact other

/-! ### Literal text -/

/-- The first `n` characters are visible as they are written, but for backslashes: no tag begins
there, and no escape at the end. -/
def isLiteral : Nat → Text → Bool
  | 0, _ | _, [] => true
  | 1, '\\' :: cs => !Text.startsWith isPunctuation cs
  | n + 2, '\\' :: _ :: cs => isLiteral n cs
  | n + 1, c :: cs => !(c == '<' && (tagLength? cs).isSome) && isLiteral n cs

theorem gist_backslash (t : Text) : gist ('\\' :: t) = gist t :=
  gist_cons_mute (by decide) (by decide) t

/-- What is literal has its own gist, and the text behind it is visible as if it stood alone. -/
theorem gist_literal {n : Nat} {t : Text} (literal : isLiteral n t) (unbracketed : '[' ∉ t) :
    gist (visibleText t) = gist (t.take n) ++ gist (visibleText (t.drop n)) := by
  fun_induction isLiteral n t with
  | case1 t => rfl
  | case2 n => simp [visibleText, gist]
  | case3 cs =>
    cases cs with
    | nil => simp [visibleText, gist]
    | cons c cs =>
      rw [Bool.not_eq_true', Text.startsWith] at literal
      have other {d : Char} (punctuation : isPunctuation d) : c ≠ d := by
        rintro rfl
        rw [punctuation] at literal
        cases literal
      -- the backslash is dropped, and what it escapes is no markup anyway
      have escaped : visibleText ('\\' :: c :: cs) = visibleText (c :: cs) := by
        rw [visibleText, visibleText_plain (fun same => absurd same (other (by decide)))
          (other (by decide)) (List.not_mem_of_not_mem_cons unbracketed)]
      rw [escaped, List.take_succ_cons, List.take_zero, gist_backslash]
      rfl
  | case4 n c cs ih =>
    have inner : '[' ∉ cs := fun member =>
      unbracketed (List.mem_cons_of_mem _ (List.mem_cons_of_mem _ member))
    rw [visibleText, gist_cons, ih literal inner, List.take_succ_cons, List.take_succ_cons,
      gist_backslash, gist_cons c (cs.take n), List.append_assoc]
    rfl
  | case5 n c cs lone alone ih =>
    rw [Bool.and_eq_true, Bool.not_eq_true'] at literal
    have inner := ih literal.2 (List.not_mem_of_not_mem_cons unbracketed)
    have kept : visibleText (c :: cs) = c :: visibleText cs := by
      by_cases angle : c = '<'
      · subst angle
        refine visibleText_angle ?_
        simpa using literal.1
      · refine visibleText_plain (fun same => ?_) angle unbracketed
        subst same
        -- a backslash with a character after it is one of the cases before
        cases cs with
        | nil => rfl
        | cons d cs =>
          cases n with
          | zero => exact absurd rfl (lone rfl)
          | succ n => exact absurd rfl (alone n d cs rfl rfl)
    rw [kept, gist_cons, inner, List.take_succ_cons, gist_cons c (cs.take n), List.append_assoc]
    rfl

theorem isLiteral_of_bare {n : Nat} {t : Text} (bare : ∀ c ∈ t.take n, c ≠ '\\' ∧ c ≠ '<') :
    isLiteral n t := by
  induction t generalizing n with
  | nil => cases n <;> rfl
  | cons c cs ih =>
    cases n with
    | zero => rfl
    | succ n =>
      rw [List.take_succ_cons, List.forall_mem_cons] at bare
      rw [isLiteral]
      · simp [bare.1.2, ih bare.2]
      · rintro rfl
        exact fun same => absurd same bare.1.1
      · rintro k d ds rfl same
        exact absurd same bare.1.1

/-! ### Legible text -/

/-- The lexeme is a tag or comment that is passed through, of which nothing is seen. -/
def Lexeme.isHidden : Lexeme → Bool
  | .span (.rawHtml _) _ => true
  | _ => false

/-- What starts the text is as visible in a heading as in its spans: a tag that is passed through is
a tag there, and what else is seen is literal. -/
def isLegibleHere (c : Char) (cs : Text) : Bool :=
  let first := firstLexeme c cs
  if first.isHidden then tagLength? cs == some first.more
  else isLiteral (first.more + 1) (c :: cs) &&
    gist first.shown == gist ((c :: cs).take (first.more + 1))

def isLegible : Text → Bool
  | [] => true
  | c :: cs => isLegibleHere c cs && isLegible (cs.drop (firstLexeme c cs).more)
termination_by t => t.length
decreasing_by simp only [List.length_cons, List.length_drop]; omega

theorem lexeme_hidden {mode : EmphasisMode} {prev escaped : Option Char} {held cs : Text}
    {c : Char} (hidden : (lexeme mode prev escaped held c cs).isHidden) :
    c = '<' ∧ (lexeme mode prev escaped held c cs).shown = [] := by
  have starts := lexeme_starts mode prev escaped held c cs
  generalize lexeme mode prev escaped held c cs = found at starts hidden ⊢
  cases starts with
  | autolink angle found | raw angle found =>
    refine ⟨angle, ?_⟩
    rename Inline => span
    cases span with
    | rawHtml t => rw [Lexeme.shown, Inline.plainText]
    | _ => cases hidden
  | _ => cases hidden

theorem gist_legibleHere {c : Char} {cs : Text} (legible : isLegibleHere c cs)
    (unbracketed : '[' ∉ c :: cs) :
    gist (visibleText (c :: cs)) = gist (firstLexeme c cs).shown ++
      gist (visibleText (cs.drop (firstLexeme c cs).more)) := by
  unfold isLegibleHere at legible
  dsimp only at legible
  split at legible
  · rename_i hidden
    obtain ⟨rfl, unseen⟩ := lexeme_hidden hidden
    rw [visibleText_tag (beq_iff_eq.mp legible)]
    change _ = gist (lexeme _ _ _ _ _ _).shown ++ _
    rw [unseen]
    rfl
  · rw [Bool.and_eq_true, beq_iff_eq] at legible
    rw [gist_literal legible.1 unbracketed, legible.2, List.drop_succ_cons]

/-- What is literal and no hidden markup is legible if it is seen as it is written. -/
theorem isLegibleHere_of_literal {c : Char} {cs : Text} (shown : (firstLexeme c cs).isHidden = false)
    (literal : isLiteral ((firstLexeme c cs).more + 1) (c :: cs))
    (same : gist (firstLexeme c cs).shown = gist ((c :: cs).take ((firstLexeme c cs).more + 1))) :
    isLegibleHere c cs := by
  unfold isLegibleHere
  dsimp only
  rw [if_neg (by rw [shown]; exact Bool.false_ne_true), literal, same, BEq.rfl]
  rfl

theorem isLegibleHere_of_unmarked {c : Char} {cs : Text} (unmarked : c ∉ ['&', '<', tick])
    (whole : '\n' ∉ c :: cs) : isLegibleHere c cs := by
  simp only [List.mem_cons, List.not_mem_nil, or_false, not_or] at unmarked
  obtain ⟨ampersand, angle, unquoted⟩ := unmarked
  have delimiters (delimiter : IsDelimiter c) :
      isLiteral (runLength c cs + 1) (c :: cs) := by
    refine isLiteral_of_bare fun d member => ?_
    rw [take_runLength] at member
    rw [(List.mem_replicate.mp member).2]
    rcases delimiter with rfl | rfl | rfl <;> decide
  have starts : Starts c cs (firstLexeme c cs) := lexeme_starts .classic none none [] c cs
  suffices seen : (firstLexeme c cs).isHidden = false ∧
      isLiteral ((firstLexeme c cs).more + 1) (c :: cs) ∧
      gist (firstLexeme c cs).shown = gist ((c :: cs).take ((firstLexeme c cs).more + 1)) from
    isLegibleHere_of_literal seen.1 seen.2.1 seen.2.2
  generalize firstLexeme c cs = first at starts ⊢
  cases starts with
  | backslash slash unescaped =>
    subst slash
    exact ⟨rfl, by simpa [Lexeme.more, isLiteral] using unescaped, rfl⟩
  | escape slash first =>
    obtain ⟨rest, rfl⟩ := List.head?_eq_some_iff.mp first
    subst slash
    exact ⟨rfl, by simp [Lexeme.more, isLiteral], (gist_backslash _).symm⟩
  | brokenLine _ first =>
    exact absurd (List.mem_cons_of_mem _ (List.mem_of_head? first)) whole
  | code quoted | ticks quoted => exact absurd quoted unquoted
  | charRef here => exact absurd here ampersand
  | autolink here | raw here => exact absurd here angle
  | run delimiter mark count =>
    refine ⟨rfl, delimiters delimiter, ?_⟩
    rw [Lexeme.shown, Run.wording, mark, count, Lexeme.more, take_runLength]
  | leftover delimiter =>
    refine ⟨rfl, delimiters delimiter, ?_⟩
    rw [Lexeme.shown, Lexeme.more, take_runLength]
  | lineFeed feed => exact absurd (feed ▸ List.mem_cons_self) whole
  | plain unescaped =>
    exact ⟨rfl, isLiteral_of_bare (by simp [Lexeme.more, unescaped, angle]), rfl⟩

/-- Escapes and emphasis alone are legible. -/
theorem isLegible_of_unmarked {t : Text} (unmarked : ∀ c ∈ t, c ∉ ['&', '<', tick])
    (whole : '\n' ∉ t) : isLegible t := by
  fun_induction isLegible t with
  | case1 => rfl
  | case2 c cs ih =>
    rw [isLegibleHere_of_unmarked (unmarked c List.mem_cons_self) whole, Bool.true_and]
    refine ih (fun d member => ?_) (notMem_behind whole _)
    exact unmarked d (List.mem_cons_of_mem _ (List.mem_of_mem_drop member))

theorem gist_visibleText {t : Text} (legible : isLegible t) (unbracketed : '[' ∉ t) :
    gist (visibleText t) = gist (readerText t) := by
  fun_induction isLegible t with
  | case1 => rw [visibleText, readerText]
  | case2 c cs ih =>
    rw [Bool.and_eq_true] at legible
    rw [gist_legibleHere legible.1 unbracketed, ih legible.2 (notMem_behind unbracketed _),
      readerText, gist_append]

theorem slugify_visibleText {t : Text} (legible : isLegible t) (unbracketed : '[' ∉ t) :
    slugify (visibleText t) = slugify (readerText t) :=
  slugify_eq_of_gist (gist_visibleText legible unbracketed)

end CommentMarkup
