import CommentMarkup.Proofs.Inline.Mentions

/-!
# Sequences of mentions

`Continues n mentions m` says that the mentions go on with a numbering: the first mention of each
new footnote carries the next number after `n`, up to `m`, and every other mention repeats a number
that has been given.
-/

namespace CommentMarkup

inductive Continues : Nat → List Mention → Nat → Prop
  | done (n : Nat) : Continues n [] n
  | first {n m : Nat} {rest : List Mention} (tail : Continues (n + 1) rest m) :
      Continues n (⟨n + 1, true⟩ :: rest) m
  | again {n m k : Nat} {rest : List Mention} (positive : 0 < k) (known : k ≤ n)
      (tail : Continues n rest m) : Continues n (⟨k, false⟩ :: rest) m

namespace Continues

theorem append {n k m : Nat} {a b : List Mention} (left : Continues n a k)
    (right : Continues k b m) : Continues n (a ++ b) m := by
  induction left with
  | done n => exact right
  | first _ ih => exact .first (ih right)
  | again positive known _ ih => exact .again positive known (ih right)

theorem le {n m : Nat} {ms : List Mention} (h : Continues n ms m) : n ≤ m := by
  induction h with
  | done n => exact Nat.le_refl n
  | first _ ih => omega
  | again _ _ _ ih => exact ih

theorem bounded {n m : Nat} {ms : List Mention} (h : Continues n ms m) {mention : Mention}
    (member : mention ∈ ms) : 0 < mention.number ∧ mention.number ≤ m := by
  induction h with
  | done => cases member
  | first tail ih =>
    rcases List.mem_cons.mp member with rfl | later
    · exact ⟨Nat.succ_pos _, tail.le⟩
    · exact ih later
  | again positive known tail ih =>
    rcases List.mem_cons.mp member with rfl | later
    · exact ⟨positive, Nat.le_trans known tail.le⟩
    · exact ih later

/-- The first mentions carry the numbers after `n` in order. -/
theorem firsts {n m : Nat} {ms : List Mention} (h : Continues n ms m) :
    (ms.filter Mention.first).map Mention.number = List.range' (n + 1) (m - n) := by
  induction h with
  | done n => simp
  | @first n m rest tail ih =>
    have bound := tail.le
    rw [List.filter_cons_of_pos rfl, List.map_cons, ih, show m - n = (m - (n + 1)) + 1 by omega,
      List.range'_succ]
  | again positive known tail ih => rw [List.filter_cons_of_neg (by simp), ih]

/-- A repeated number is an old one or has been carried by a first mention before. -/
theorem repeated {n m : Nat} {ms before after : List Mention} {mention : Mention}
    (h : Continues n ms m) (split : ms = before ++ mention :: after)
    (again : mention.first = false) :
    0 < mention.number ∧ mention.number ≤ n ∨ ⟨mention.number, true⟩ ∈ before := by
  induction h generalizing before with
  | done n => simp at split
  | @first n m rest tail ih =>
    cases before with
    | nil =>
      cases split
      cases again
    | cons head before =>
      injection split with same split
      subst same
      rcases ih split with ⟨positive, known⟩ | member
      · by_cases new : mention.number = n + 1
        · exact .inr (by rw [new]; exact List.mem_cons_self)
        · exact .inl ⟨positive, by omega⟩
      · exact .inr (List.mem_cons_of_mem _ member)
  | @again n m k rest positive known tail ih =>
    cases before with
    | nil =>
      cases split
      exact .inl ⟨positive, known⟩
    | cons head before =>
      injection split with same split
      subst same
      rcases ih split with old | member
      · exact .inl old
      · exact .inr (List.mem_cons_of_mem _ member)

end Continues
end CommentMarkup
