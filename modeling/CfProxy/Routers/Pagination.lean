import Mathlib.Tactic.Linarith
import CfProxy.Routers.ProxyDns
import CfProxy.Shared.Paging

set_option autoImplicit false

namespace CfProxy.ListFilter

open ProxyDns

structure SoundPage (records : List Json) (page perPage : Int) (result : List Json × Json) : Prop where
  bounded : (result.1.length : Int) ≤ max perPage 0
  counted : result.2.item "count".toList = .ok (.num result.1.length)
  paged : 0 < perPage → ∃ totalPages : Nat, result.2.item "total_pages".toList = .ok (.num totalPages) ∧
    IsLeast {pages : Nat | records.length ≤ pages * perPage.toNat} totalPages ∧
    (1 ≤ page ∧ page ≤ totalPages → result.1 = Paging.page perPage.toNat records (page - 1).toNat) ∧
    (¬(1 ≤ page ∧ page ≤ totalPages) → result.1 = [])

inductive CountsFromEnd (total page perPage : Int) : Prop
  | before (positive : 0 < perPage) (early : page < 0) (inside : 0 < total + page * perPage)
  | backwards (negative : perPage < 0) (first : page = 1) (inside : 0 < total + perPage)

theorem paginate_records (records : List Json) (page perPage : Int) :
    (paginateAndResultInfo records page perPage).1 = slice records (page * perPage - perPage) (page * perPage) := by
  have start : (page - 1) * perPage = page * perPage - perPage := by ring
  simp [paginateAndResultInfo, start]

theorem paginate_count (records : List Json) (page perPage : Int) :
    (paginateAndResultInfo records page perPage).2.item "count".toList =
      .ok (.num (paginateAndResultInfo records page perPage).1.length) := rfl

theorem paginate_total (records : List Json) (page : Int) {perPage : Int} (positive : 0 < perPage) :
    ∃ totalPages : Nat,
      (paginateAndResultInfo records page perPage).2.item "total_pages".toList = .ok (.num totalPages) ∧
      IsLeast {pages : Nat | records.length ≤ pages * perPage.toNat} totalPages := by
  obtain ⟨size, rfl⟩ := Int.eq_ofNat_of_zero_le positive.le
  have sized : 0 < size := by omega
  obtain ⟨totalPages, rounded, least⟩ := Paging.ceiling_least records.length sized
  refine ⟨totalPages, ?_, by simpa using least⟩
  have total : (paginateAndResultInfo records page size).2.item "total_pages".toList =
      .ok (.num ((if 0 < (size : Int) then -((-(records.length : Int)).fdiv size) else 0 : Int) : Rat)) := rfl
  rw [total, if_pos positive, rounded]
  rfl

theorem paginate_empty {records : List Json} {page perPage : Int} (negative : perPage ≤ 0)
    (forwards : ¬CountsFromEnd records.length page perPage) :
    (paginateAndResultInfo records page perPage).1 = [] := by
  rw [paginate_records]
  rcases negative.eq_or_lt with rfl | negative
  · exact Paging.slice_eq_nil_of_le (by omega) (.inl (by omega))
  rcases lt_trichotomy page 1 with early | rfl | late
  · exact Paging.slice_eq_nil_of_le (by omega) (.inl (by nlinarith))
  · have short : (records.length : Int) + perPage ≤ 0 := by
      by_contra inside
      exact forwards (.backwards negative rfl (by omega))
    rw [Paging.slice_eq_nil]
    unfold sliceIndex
    split <;> split <;> omega
  · exact Paging.slice_eq_nil_of_le (by omega) (.inr (by nlinarith))

theorem paginate_early {records : List Json} {page perPage : Int} (positive : 0 < perPage) (early : page ≤ 0) :
    (paginateAndResultInfo records page perPage).1 = [] ↔ ¬CountsFromEnd records.length page perPage := by
  have nonpositive : page * perPage ≤ 0 := by nlinarith
  have counts : CountsFromEnd records.length page perPage ↔
      page * perPage ≠ 0 ∧ 0 < records.length + page * perPage := by
    constructor
    · rintro (⟨-, before, inside⟩ | ⟨negative, -, -⟩)
      · exact ⟨by nlinarith, inside⟩
      · omega
    · rintro ⟨nonzero, inside⟩
      have before : page ≠ 0 := by
        rintro rfl
        simp at nonzero
      exact .before positive (by omega) inside
  rw [paginate_records, Paging.slice_before (by omega) nonpositive, counts]
  omega

theorem paginate_late {records : List Json} {page perPage : Int} {totalPages : Nat} (positive : 0 < perPage)
    (late : totalPages < page) (enough : records.length ≤ totalPages * perPage.toNat) :
    (paginateAndResultInfo records page perPage).1 = [] := by
  have held : (records.length : Int) ≤ totalPages * perPage := by
    have cast : ((perPage.toNat : Nat) : Int) = perPage := Int.toNat_of_nonneg positive.le
    rw [← cast]
    exact_mod_cast enough
  have beyond : (totalPages : Int) * perPage ≤ page * perPage - perPage := by nlinarith
  rw [paginate_records, Paging.slice_eq_nil]
  unfold sliceIndex
  split <;> split <;> omega

theorem paginate_inside {records : List Json} {page perPage : Int} (positive : 0 < perPage) (inside : 1 ≤ page) :
    (paginateAndResultInfo records page perPage).1 = Paging.page perPage.toNat records (page - 1).toNat := by
  obtain ⟨size, rfl⟩ := Int.eq_ofNat_of_zero_le positive.le
  obtain ⟨index, rfl⟩ : ∃ index : Nat, page = index + 1 := ⟨(page - 1).toNat, by omega⟩
  simpa [paginateAndResultInfo] using Paging.slice_page size records index

theorem paginate_sound_iff (records : List Json) (page perPage : Int) :
    SoundPage records page perPage (paginateAndResultInfo records page perPage) ↔
      ¬CountsFromEnd records.length page perPage := by
  constructor
  · intro sound counts
    rcases counts with ⟨positive, early, inside⟩ | ⟨negative, first, inside⟩
    · obtain ⟨totalPages, -, -, -, outside⟩ := sound.paged positive
      exact (paginate_early positive early.le).mp (outside (by omega)) (.before positive early inside)
    · have short := sound.bounded
      rw [max_eq_right negative.le, paginate_records, Paging.slice_length] at short
      subst first
      unfold sliceIndex at short
      split at short <;> split at short <;> omega
  · intro forwards
    refine ⟨?_, paginate_count records page perPage, ?_⟩
    · rcases le_or_gt perPage 0 with negative | positive
      · simp [paginate_empty negative forwards]
      · have within := Paging.slice_length_le records (page * perPage - perPage) perPage.toNat
        rw [Int.toNat_of_nonneg positive.le, Int.sub_add_cancel, ← paginate_records] at within
        omega
    · intro positive
      obtain ⟨totalPages, told, least⟩ := paginate_total records page positive
      refine ⟨totalPages, told, least, fun within => paginate_inside positive within.1, fun outside => ?_⟩
      rcases le_or_gt page 0 with early | started
      · exact (paginate_early positive early).mpr forwards
      · exact paginate_late positive (by omega) least.1

-- `?page=-1&per_page=1`.
def lastPageQuery : List (Str × Str) := [("page".toList, "-1".toList), ("per_page".toList, "1".toList)]

theorem paginate_unsound :
    popPagination .asciiOnly lastPageQuery = .ok (-1, 1, []) ∧
      ¬SoundPage [.num 1, .num 2] (-1) 1 (paginateAndResultInfo [.num 1, .num 2] (-1) 1) := by
  refine ⟨rfl, fun sound => ?_⟩
  obtain ⟨totalPages, -, -, -, outside⟩ := sound.paged (by decide)
  have shown : (paginateAndResultInfo [.num 1, .num 2] (-1) 1).1 = [.num 1] := rfl
  simp [shown] at outside

end CfProxy.ListFilter
