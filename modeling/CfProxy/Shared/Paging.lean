import Mathlib.Order.Bounds.Defs
import Mathlib.Tactic.Ring
import CfProxy.Shared.Python

set_option autoImplicit false

namespace Paging

variable {α : Type}

def page (size : Nat) (items : List α) (index : Nat) : List α := (items.drop (index * size)).take size

theorem page_length_le (size : Nat) (items : List α) (index : Nat) : (page size items index).length ≤ size := by
  simp [page]

theorem pages_take (size : Nat) (items : List α) (count : Nat) :
    (List.range count).flatMap (page size items) = items.take (count * size) := by
  induction count with
  | zero => simp
  | succ count ih =>
    have split : items.take (count * size + size) = items.take (count * size) ++ page size items count :=
      List.take_add
    rw [List.range_succ, List.flatMap_append, ih, Nat.succ_mul, split]
    simp

theorem pages_whole {size count : Nat} {items : List α} (enough : items.length ≤ count * size) :
    (List.range count).flatMap (page size items) = items := by
  rw [pages_take, List.take_of_length_le enough]

theorem slice_page (size : Nat) (items : List α) (index : Nat) :
    slice items ((index + 1 - 1 : Int) * size) ((index + 1 - 1 : Int) * size + size) = page size items index := by
  have start : ((index + 1 - 1 : Int) * size) = ((index * size : Nat) : Int) := by
    push_cast
    ring
  have cut : ((index * size : Nat) : Int) + size = ((index * size + size : Nat) : Int) := by
    push_cast
    rfl
  rw [start, cut]
  unfold slice sliceIndex page
  rw [if_neg (by omega), if_neg (by omega), Int.toNat_natCast, Int.toNat_natCast]
  rcases Nat.le_total (index * size) items.length with inside | beyond
  · rw [Nat.min_eq_left inside, List.drop_take]
    rcases Nat.le_total (index * size + size) items.length with whole | last
    · rw [Nat.min_eq_left whole, Nat.add_sub_cancel_left]
    · rw [Nat.min_eq_right last, List.take_of_length_le (by simp), List.take_of_length_le (by simp; omega)]
  · rw [Nat.min_eq_right beyond, List.drop_eq_nil_of_le (by simp), List.drop_eq_nil_of_le beyond, List.take_nil]

theorem sliceIndex_le (length : Nat) (index : Int) : sliceIndex length index ≤ length := by
  unfold sliceIndex
  split <;> omega

@[simp] theorem slice_length (items : List α) (start stop : Int) :
    (slice items start stop).length = sliceIndex items.length stop - sliceIndex items.length start := by
  simp [slice, Nat.min_eq_left (sliceIndex_le items.length stop)]

theorem slice_eq_nil {items : List α} {start stop : Int} :
    slice items start stop = [] ↔ sliceIndex items.length stop ≤ sliceIndex items.length start := by
  rw [List.eq_nil_iff_length_eq_zero, slice_length, Nat.sub_eq_zero_iff_le]

-- A slice is only ever longer than its bounds are apart if these have different signs.
theorem slice_length_le (items : List α) (start : Int) (size : Nat) : (slice items start (start + size)).length ≤ size := by
  rw [slice_length]
  unfold sliceIndex
  split <;> split <;> omega

theorem slice_eq_nil_of_le {items : List α} {start stop : Int} (backwards : stop ≤ start)
    (sameSide : 0 ≤ stop ∨ start < 0) : slice items start stop = [] := by
  rw [slice_eq_nil]
  unfold sliceIndex
  split <;> split <;> omega

theorem slice_before {items : List α} {start stop : Int} (forwards : start < stop) (early : stop ≤ 0) :
    slice items start stop = [] ↔ stop + items.length ≤ 0 ∨ stop = 0 := by
  rw [slice_eq_nil]
  unfold sliceIndex
  split <;> split <;> omega

theorem ceiling_enough (total : Nat) {size : Nat} (positive : 0 < size) :
    ∃ count : Nat, -((-(total : Int)).fdiv size) = count ∧ total ≤ count * size := by
  have below : (size : Int) * (-(total : Int)).fdiv size ≤ -total := Int.mul_fdiv_self_le (by omega)
  generalize (-(total : Int)).fdiv size = quotient at below ⊢
  have negative : quotient ≤ 0 := by
    by_contra above
    have product : 0 < (size : Int) * quotient := Int.mul_pos (by omega) (by omega)
    omega
  obtain ⟨count, rfl⟩ := Int.exists_eq_neg_ofNat negative
  refine ⟨count, Int.neg_neg _, ?_⟩
  rw [Int.mul_neg] at below
  rw [Nat.mul_comm]
  exact_mod_cast Int.neg_le_neg_iff.mp below

theorem ceiling_least (total : Nat) {size : Nat} (positive : 0 < size) :
    ∃ count : Nat, -((-(total : Int)).fdiv size) = count ∧ IsLeast {pages : Nat | total ≤ pages * size} count := by
  have below : ∀ pages : Int, -pages ≤ (-(total : Int)).fdiv size ↔ (total : Int) ≤ pages * size := by
    intro pages
    rw [Int.fdiv_eq_ediv_of_nonneg _ (by omega), Int.le_ediv_iff_mul_le (by omega), Int.neg_mul]
    omega
  obtain ⟨count, rounded, enough⟩ := ceiling_enough total positive
  refine ⟨count, rounded, enough, fun pages holds => ?_⟩
  have least := (below pages).mpr (by exact_mod_cast holds)
  omega

end Paging
