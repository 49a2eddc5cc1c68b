import CommentMarkup.Inline.Scan
import CommentMarkup.Proofs.Text.Foreign

/-!
# What a character starts

All that a character can start, with what is then known of the text: `lexeme_starts`.
-/

namespace CommentMarkup

def IsDelimiter (c : Char) : Prop := c = '*' ∨ c = '_' ∨ c = '~'

inductive Starts (c : Char) (cs : Text) : Lexeme → Prop
  | backslash (slash : c = '\\') (unescaped : ¬ Text.startsWith isPunctuation cs) :
      Starts c cs (.text [c] 0)
  | escape (slash : c = '\\') {e : Char} (first : cs.head? = some e)
      (punctuation : isPunctuation e) : Starts c cs (.escape e)
  | brokenLine (slash : c = '\\') (first : cs.head? = some '\n') : Starts c cs (.lineBreak 1)
  | code (quoted : c = tick) {code : Text} {n : Nat}
      (found : codeSpan? (c :: cs) = some (code, n)) : Starts c cs (.span (.code code) (n - 1))
  | ticks (quoted : c = tick) :
      Starts c cs (.text (c :: cs.takeWhile (· == tick)) (runLength tick cs))
  | charRef (ampersand : c = '&') {n : Nat} (form : CharRef.length? (c :: cs) = some n) :
      Starts c cs (.span (.charRef ((c :: cs).take n)) (n - 1))
  | autolink (angle : c = '<') {span : Inline} {n : Nat}
      (found : autolink? (c :: cs) = some (span, n)) : Starts c cs (.span span (n - 1))
  | raw (angle : c = '<') {span : Inline} {n : Nat}
      (found : rawInline? (c :: cs) = some (span, n)) : Starts c cs (.span span (n - 1))
  | run (delimiter : IsDelimiter c) {run : Run} (mark : run.mark = c)
      (count : run.count = runLength c cs + 1) : Starts c cs (.run run (runLength c cs))
  | leftover (delimiter : IsDelimiter c) :
      Starts c cs (.text (List.replicate (runLength c cs + 1) c) (runLength c cs))
  | lineFeed (feed : c = '\n') : Starts c cs (.lineBreak 0)
  | plain (unescaped : c ≠ '\\') (unquoted : c ≠ tick) (undelimited : ¬ IsDelimiter c) :
      Starts c cs (.text [c] 0)

theorem delimiterRun_some {mode : EmphasisMode} {escaped prev next : Option Char} {mark : Char}
    {count : Nat} {run : Run} (h : delimiterRun? mode escaped prev mark count next = some run) :
    run.mark = mark ∧ run.count = count := by
  unfold delimiterRun? at h
  dsimp only at h
  split at h
  · cases h
  · cases h
    exact ⟨rfl, rfl⟩

theorem runLength_append_drop (c : Char) (cs : Text) :
    List.replicate (runLength c cs + 1) c ++ cs.drop (runLength c cs) = c :: cs := by
  have same : cs.takeWhile (· == c) = List.replicate (runLength c cs) c := by
    rw [List.eq_replicate_iff]
    refine ⟨rfl, fun d member => ?_⟩
    simpa using List.mem_takeWhile_imp member
  rw [List.replicate_succ, List.cons_append, ← same, runLength, drop_takeWhile_length,
    List.takeWhile_append_dropWhile]

theorem take_runLength (c : Char) (cs : Text) :
    (c :: cs).take (runLength c cs + 1) = List.replicate (runLength c cs + 1) c := by
  have parts := runLength_append_drop c cs
  rw [← parts, List.take_left' List.length_replicate]

theorem backslashLexeme_starts (cs : Text) : Starts '\\' cs (backslashLexeme cs) := by
  unfold backslashLexeme
  split
  · exact .backslash rfl (by decide)
  · split
    · rename_i feed
      rw [feed]
      exact .brokenLine rfl rfl
    · split
      · exact .escape rfl rfl ‹_›
      · exact .backslash rfl ‹_›

theorem lexeme_starts (mode : EmphasisMode) (prev escaped : Option Char) (held : Text) (c : Char)
    (cs : Text) : Starts c cs (lexeme mode prev escaped held c cs) := by
  unfold lexeme
  split
  · rename_i slash
    subst slash
    exact backslashLexeme_starts cs
  rename_i unescaped
  split
  · split
    · exact .code ‹_› ‹_›
    · exact .ticks ‹_›
  rename_i unquoted
  split
  · rename_i ampersand
    split
    · exact .charRef ampersand ‹_›
    · exact .plain unescaped unquoted (by simp [IsDelimiter, ampersand])
  split
  · rename_i angle
    split
    · rename_i span n found
      cases link : autolink? (c :: cs) with
      | some pair =>
        rw [link] at found
        cases found
        exact .autolink angle link
      | none =>
        rw [link] at found
        exact .raw angle found
    · exact .plain unescaped unquoted (by simp [IsDelimiter, angle])
  split
  · rename_i delimiter
    dsimp only
    split
    · rename_i found
      obtain ⟨mark, count⟩ := delimiterRun_some found
      exact .run delimiter mark count
    · exact .leftover delimiter
  · rename_i undelimited
    split
    · rename_i broken
      exact .lineFeed broken.1
    · exact .plain unescaped unquoted undelimited

/-- A character that is no mark is text, unless it is a line feed behind two spaces. -/
theorem lexeme_unmarked {mode : EmphasisMode} {prev escaped : Option Char} {held cs : Text}
    {c : Char} (unmarked : c ∉ ['\\', tick, '&', '<', '*', '_', '~'])
    (unbroken : c = '\n' → ¬ [' ', ' '].isPrefixOf held) :
    lexeme mode prev escaped held c cs = .text [c] 0 := by
  simp only [List.mem_cons, List.not_mem_nil, or_false, not_or] at unmarked
  obtain ⟨slash, quoted, ampersand, angle, delimiter⟩ := unmarked
  have broken : ¬ (c = '\n' ∧ [' ', ' '].isPrefixOf held) := fun both => unbroken both.1 both.2
  rw [lexeme, if_neg slash, if_neg quoted, if_neg ampersand, if_neg angle, if_neg, if_neg broken]
  simpa using delimiter

theorem opensBracket_of_notMem {escaped : Option Char} {c : Char} {cs : Text}
    (unbracketed : '[' ∉ c :: cs) : opensBracket escaped c cs = false := by
  rw [List.mem_cons, not_or] at unbracketed
  have next : cs.head? ≠ some '[' := fun first => unbracketed.2 (List.mem_of_head? first)
  simp [opensBracket, Ne.symm unbracketed.1, next]

end CommentMarkup
