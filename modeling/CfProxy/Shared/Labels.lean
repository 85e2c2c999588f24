import Mathlib.Data.List.Basic

set_option autoImplicit false

namespace Labels

universe u

variable {α : Type u} [BEq α] [LawfulBEq α] {sep : α}

theorem mem_splitOn_cons {first : α} {rest part : List α} (member : part ∈ (first :: rest).splitOn sep) :
    part = [] ∨ part ∈ rest.splitOn sep ∨ first ≠ sep ∧ ∃ head ∈ rest.splitOn sep, part = first :: head := by
  by_cases same : first = sep
  · simp only [List.splitOn_cons_eq_if_modifyHead, same, beq_self_eq_true, if_true] at member
    exact (List.mem_cons.mp member).imp_right .inl
  · obtain ⟨head, tail, split⟩ := List.exists_cons_of_ne_nil (List.splitOn_ne_nil sep rest)
    simp only [List.splitOn_cons_eq_if_modifyHead, beq_iff_eq, same, if_false, split, List.modifyHead_cons] at member
    rw [split]
    rcases List.mem_cons.mp member with rfl | inside
    · exact .inr (.inr ⟨same, head, List.mem_cons_self, rfl⟩)
    · exact .inr (.inl (List.mem_cons_of_mem _ inside))

theorem mem_of_mem_splitOn {text part : List α} (member : part ∈ text.splitOn sep) : ∀ c ∈ part, c ∈ text ∧ c ≠ sep := by
  induction text generalizing part with
  | nil =>
    obtain rfl : part = [] := by simpa using member
    simp
  | cons first rest ih =>
    intro c letter
    rcases mem_splitOn_cons member with rfl | inside | ⟨other, head, inside, rfl⟩
    · simp at letter
    · exact (ih inside c letter).imp_left (List.mem_cons_of_mem _)
    · rcases List.mem_cons.mp letter with rfl | letter
      · exact ⟨List.mem_cons_self, other⟩
      · exact (ih inside c letter).imp_left (List.mem_cons_of_mem _)

theorem exists_part_of_mem {text : List α} {c : α} (member : c ∈ text) (other : c ≠ sep) :
    ∃ part ∈ text.splitOn sep, c ∈ part := by
  induction text with
  | nil => simp at member
  | cons first rest ih =>
    obtain ⟨head, tail, split⟩ := List.exists_cons_of_ne_nil (List.splitOn_ne_nil sep rest)
    by_cases same : first = sep
    · rcases List.mem_cons.mp member with rfl | later
      · exact absurd same other
      · obtain ⟨part, inside, letter⟩ := ih later
        exact ⟨part, by simp [List.splitOn_cons_eq_if_modifyHead, same, inside], letter⟩
    · have parts : (first :: rest).splitOn sep = (first :: head) :: tail := by
        simp [List.splitOn_cons_eq_if_modifyHead, same, split]
      rw [parts]
      rcases List.mem_cons.mp member with rfl | later
      · exact ⟨c :: head, by simp, by simp⟩
      · obtain ⟨part, inside, letter⟩ := ih later
        rw [split] at inside
        rcases List.mem_cons.mp inside with rfl | inside
        · exact ⟨first :: part, by simp, by simp [letter]⟩
        · exact ⟨part, by simp [inside], letter⟩

omit [BEq α] [LawfulBEq α] in
theorem joined_append {front back : List (List α)} (nonempty : front ≠ []) (present : back ≠ []) :
    [sep].intercalate (front ++ back) = [sep].intercalate front ++ sep :: [sep].intercalate back := by
  induction front with
  | nil => exact absurd rfl nonempty
  | cons first rest ih =>
    cases rest with
    | nil => simp [List.intercalate_cons_of_ne_nil present]
    | cons second rest =>
      have later := ih (List.cons_ne_nil second rest)
      rw [List.cons_append] at later
      simp [List.intercalate_cons_cons, later]

theorem suffix_iff {text ending : List α} :
    sep :: ending <:+ text ↔ ∃ front, front ≠ [] ∧ text.splitOn sep = front ++ ending.splitOn sep := by
  constructor
  · rintro ⟨front, rfl⟩
    exact ⟨front.splitOn sep, List.splitOn_ne_nil sep front, List.splitOn_append_cons_self front ending⟩
  · rintro ⟨front, nonempty, split⟩
    have joined : [sep].intercalate (text.splitOn sep) = text := List.intercalate_splitOn sep
    rw [split, joined_append nonempty (List.splitOn_ne_nil sep ending), List.intercalate_splitOn] at joined
    exact ⟨_, joined⟩

theorem splitOn_three {text first second third : List α} (split : text.splitOn sep = [first, second, third]) :
    text = first ++ sep :: (second ++ sep :: third) ∧ sep ∉ first := by
  have member : first ∈ text.splitOn sep := by simp [split]
  have joined : [sep].intercalate (text.splitOn sep) = text := List.intercalate_splitOn sep
  rw [split] at joined
  exact ⟨by simpa [List.intercalate_cons_cons] using joined.symm, fun inside => (mem_of_mem_splitOn member sep inside).2 rfl⟩

end Labels
