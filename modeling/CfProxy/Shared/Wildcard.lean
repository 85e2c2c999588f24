import Mathlib.Data.List.Basic

set_option autoImplicit false

namespace Wildcard

universe u

variable {α : Type u} [BEq α]

structure Matches (hole : α) (pattern target : List α) : Prop where
  holed : hole ∈ pattern
  length : pattern.length = target.length
  agree : ∀ i, i ≠ pattern.idxOf hole → pattern[i]? = target[i]?

theorem matches_iff [LawfulBEq α] {hole : α} {front back target : List α} (first : hole ∉ front) :
    Matches hole (front ++ hole :: back) target ↔ ∃ filled, target = front ++ filled :: back := by
  have position : (front ++ hole :: back).idxOf hole = front.length := by
    rw [List.idxOf_append_of_notMem first, List.idxOf_cons_self, Nat.add_zero]
  have elsewhere (filled : α) (i : Nat) (away : i ≠ front.length) :
      (front ++ hole :: back)[i]? = (front ++ filled :: back)[i]? := by
    rcases Nat.lt_or_gt_of_ne away with before | after
    · rw [List.getElem?_append_left before, List.getElem?_append_left before]
    · obtain ⟨k, rfl⟩ := Nat.exists_eq_add_of_lt after
      simp [List.getElem?_append_right, Nat.add_assoc]
  constructor
  · intro matched
    have inside : front.length < target.length := by
      rw [← matched.length]
      simp
    refine ⟨target[front.length], List.ext_getElem? fun i => ?_⟩
    by_cases here : i = front.length
    · simp [here]
    · rw [← matched.agree i (position ▸ here), elsewhere _ i here]
  · rintro ⟨filled, rfl⟩
    exact ⟨by simp, by simp, fun i away => elsewhere filled i (position ▸ away)⟩

end Wildcard
