import CommentMarkup.Proofs.Block.Cuttings
import CommentMarkup.Proofs.Line.Definition
import CommentMarkup.Proofs.Text.Cut

/-!
# Lines inside blocks

The lines of list items and footnotes are cut out of the lines around them. A property that every
part of a line inherits, and that white space in front does not touch, holds of all of them.
-/

namespace CommentMarkup

open Text

section Taken

variable {P : Text → Prop} {l : Text} {ls : List Text} (holds : ∀ k ∈ l :: ls, P k) (n : Nat)

include holds

theorem forall_mem_taken : ∀ k ∈ l :: ls.take n, P k :=
  fun k inner => holds k (List.cons_subset_cons l (List.take_subset n ls) inner)

theorem forall_mem_behind : ∀ k ∈ ls.drop n, P k :=
  fun k inner => holds k (List.mem_cons_of_mem l (List.mem_of_mem_drop inner))

end Taken

/-- Parts of a line inherit the property, also behind spaces. -/
structure Hereditary (P : Text → Prop) : Prop where
  part {l inner : Text} : P l → inner <:+: l → P inner
  space {l : Text} : P l → P (' ' :: l)

namespace Hereditary

variable {P : Text → Prop} (hereditary : Hereditary P)

include hereditary

theorem spaces {l : Text} (holds : P l) (n : Nat) : P (List.replicate n ' ' ++ l) := by
  induction n with
  | zero => exact holds
  | succ n ih => exact hereditary.space ih

theorem remains {l part : Text} (holds : P l) (kept : Remains l part) : P part := by
  obtain ⟨n, s, rfl, strips⟩ := kept
  exact hereditary.spaces (hereditary.part holds strips.isInfix) n

theorem cuttings {ls parts : List Text} (cut : Cuttings ls parts) (holds : ∀ l ∈ ls, P l) :
    ∀ part ∈ parts, P part := by
  induction cut with
  | nil =>
    intro part member
    cases member
  | @keep l part ls parts kept _ ih =>
    intro k member
    rcases List.mem_cons.mp member with rfl | tail
    · exact hereditary.remains (holds l List.mem_cons_self) kept
    · exact ih (fun m inner => holds m (List.mem_cons_of_mem _ inner)) k tail
  | drop _ _ ih => exact ih fun m inner => holds m (List.mem_cons_of_mem _ inner)

theorem relines {ls : List Text} (holds : ∀ l ∈ ls, P l) : ∀ l ∈ lines (unlines ls), P l := by
  intro l found
  cases ls with
  | nil => cases found
  | cons m ls =>
    obtain ⟨inside, whole⟩ := infix_of_mem_lines found
    obtain ⟨k, member, inner⟩ := infix_of_mem_unlines whole (by simp) inside
    exact hereditary.part (holds k member) inner

theorem itemBody {fence : Text} {ctx : Context} {l : Text} {ls : List Text} {ordered : Bool}
    {start : Nat} {run : ListRun} (holds : ∀ k ∈ l :: ls, P k)
    (step : blockAt fence ctx l ls = .list ordered start run) :
    ∀ raw ∈ run.items, ∀ k ∈ raw.body, P k := by
  intro raw member k inner
  have each := hereditary.cuttings (cuttings_list step) (forall_mem_taken holds _)
  exact each k (List.mem_flatMap_of_mem member inner)

/-- The lines of list items inherit the property. -/
theorem list {fence : Text} {ctx : Context} {l : Text} {ls : List Text} {ordered : Bool}
    {start : Nat} {run : ListRun} (holds : ∀ k ∈ l :: ls, P k)
    (step : blockAt fence ctx l ls = .list ordered start run) :
    ∀ raw ∈ run.items, ∀ k ∈ lines (unlines raw.body), P k :=
  fun raw member => hereditary.relines (hereditary.itemBody holds step raw member)

theorem footnoteBody {fence : Text} {ctx : Context} {l label : Text} {ls body : List Text}
    {more : Nat} (holds : ∀ k ∈ l :: ls, P k)
    (step : blockAt fence ctx l ls = .footnote label body more) : ∀ k ∈ body, P k := by
  cases stepAt step with
  | @footnote d defines kind =>
    intro k member
    rcases List.mem_cons.mp member with rfl | tail
    · have inside := d.rest.trim_infix.trans (rest_suffix defines).isInfix
      exact hereditary.part (holds l List.mem_cons_self) inside
    · obtain ⟨line, inner, rfl⟩ := List.mem_map.mp tail
      have old := holds line
        (List.mem_cons_of_mem _ ((List.takeWhile_prefix _).subset inner))
      exact hereditary.part old line.trim_infix

/-- The lines of footnotes inherit the property. -/
theorem footnote {fence : Text} {ctx : Context} {l label : Text} {ls body : List Text} {more : Nat}
    (holds : ∀ k ∈ l :: ls, P k) (step : blockAt fence ctx l ls = .footnote label body more) :
    ∀ k ∈ lines (unlines body), P k :=
  hereditary.relines (hereditary.footnoteBody holds step)

end Hereditary

theorem hereditary_whole : Hereditary fun l => '\n' ∉ l where
  part whole inside feed := whole (inside.subset feed)
  space whole := by simpa using whole

end CommentMarkup
