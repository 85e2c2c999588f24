import Mathlib.Data.List.Sort
import Mathlib.Logic.Equiv.Basic
import CfProxy.Shared.Paging

set_option autoImplicit false

namespace Paging

variable {α κ : Type} [LinearOrder κ]

structure Ordered (key : α → κ) (items order : List α) : Prop where
  perm : order.Perm items
  sorted : order.Pairwise fun first second => key second ≤ key first

def sortedKeys (key : α → κ) (items : List α) : List κ := (items.map key).mergeSort fun first second => second ≤ first

-- One key stands on both sides of a cut.
def TieAcross (keys : List κ) (cut : Nat) : Prop := ∃ tied ∈ keys.take cut, tied ∈ keys.drop cut

-- The first `count` pages, each of them cut from an order of its own.
def collected (size : Nat) (orders : Nat → List α) (count : Nat) : List α :=
  (List.range count).flatMap fun index => page size (orders index) index

theorem collected_succ (size : Nat) (orders : Nat → List α) (count : Nat) :
    collected size orders (count + 1) = collected size orders count ++ page size (orders count) count := by
  simp [collected, List.range_succ]

variable {key : α → κ} {items : List α}

theorem untied_of_nodup (distinct : (items.map key).Nodup) (cut : Nat) : ¬TieAcross (sortedKeys key items) cut := by
  rintro ⟨tied, early, late⟩
  have sorted : (sortedKeys key items).Nodup := (List.mergeSort_perm _ _).nodup_iff.mpr distinct
  exact List.disjoint_take_drop sorted le_rfl early late

theorem Ordered.keys {order : List α} (ordered : Ordered key items order) : order.map key = sortedKeys key items := by
  have sorted : (order.map key).Pairwise (· ≥ ·) := List.pairwise_map.mpr ordered.sorted
  have merged : (sortedKeys key items).Pairwise (· ≥ ·) := List.pairwise_mergeSort' (· ≥ ·) (items.map key)
  exact ((ordered.perm.map key).trans (List.mergeSort_perm _ _).symm).eq_of_pairwise' sorted merged

-- Without a tie across the cut, the keys say which items stand before it.
theorem Ordered.take_eq_filter {order : List α} (ordered : Ordered key items order) {cut : Nat}
    (untied : ¬TieAcross (sortedKeys key items) cut) :
    order.take cut = order.filter fun item => (sortedKeys key items).take cut |>.contains (key item) := by
  have front : ∀ item ∈ order.take cut, key item ∈ (sortedKeys key items).take cut := by
    intro item member
    rw [← ordered.keys, ← List.map_take]
    exact List.mem_map_of_mem member
  have back : ∀ item ∈ order.drop cut, key item ∉ (sortedKeys key items).take cut := by
    intro item member before
    refine untied ⟨key item, before, ?_⟩
    rw [← ordered.keys, ← List.map_drop]
    exact List.mem_map_of_mem member
  conv_rhs => rw [← List.take_append_drop cut order, List.filter_append]
  rw [List.filter_eq_self.mpr (by simpa using front), List.filter_eq_nil_iff.mpr (by simpa using back), List.append_nil]

theorem Ordered.take_perm {first second : List α} (ordered : Ordered key items first)
    (other : Ordered key items second) {cut : Nat} (untied : ¬TieAcross (sortedKeys key items) cut) :
    (first.take cut).Perm (second.take cut) := by
  rw [ordered.take_eq_filter untied, other.take_eq_filter untied]
  exact (ordered.perm.trans other.perm.symm).filter _

section Collected

variable {size : Nat} {orders : Nat → List α} (ordered : ∀ index, Ordered key items (orders index))

include ordered

theorem collected_keys (count : Nat) :
    (collected size orders count).map key = (sortedKeys key items).take (count * size) := by
  have each : ∀ index, (page size (orders index) index).map key = page size (sortedKeys key items) index := by
    intro index
    rw [page, List.map_take, List.map_drop, (ordered index).keys, page]
  rw [← pages_take, collected, List.map_flatMap]
  exact List.flatMap_congr fun index _ => each index

theorem collected_sorted (count : Nat) :
    (collected size orders count).Pairwise fun first second => key second ≤ key first := by
  have merged : (sortedKeys key items).Pairwise (· ≥ ·) := List.pairwise_mergeSort' (· ≥ ·) (items.map key)
  have taken := merged.sublist (List.take_sublist (count * size) _)
  rw [← collected_keys ordered count, List.pairwise_map] at taken
  exact taken

theorem collected_perm_take (untied : ∀ index, ¬TieAcross (sortedKeys key items) (index * size)) (count : Nat)
    {order : List α} (other : Ordered key items order) :
    (collected size orders count).Perm (order.take (count * size)) := by
  induction count generalizing order with
  | zero => simp [collected]
  | succ count ih =>
    have grown : (collected size orders (count + 1)).Perm ((orders count).take ((count + 1) * size)) := by
      rw [collected_succ, Nat.succ_mul, List.take_add]
      exact (ih (ordered count)).append_right _
    exact grown.trans ((ordered count).take_perm other (untied (count + 1)))

theorem collected_perm (untied : ∀ index, ¬TieAcross (sortedKeys key items) (index * size)) {count : Nat}
    (enough : items.length ≤ count * size) : (collected size orders count).Perm items := by
  have whole := collected_perm_take ordered untied count (ordered 0)
  rw [List.take_of_length_le ((ordered 0).perm.length_eq.trans_le enough)] at whole
  exact whole.trans (ordered 0).perm

end Collected

-- Exchanging two items with one key gives another order.
theorem Ordered.swapped [DecidableEq α] {order : List α} (ordered : Ordered key items order) (distinct : items.Nodup)
    {first second : α} (firstMember : first ∈ order) (secondMember : second ∈ order) (tied : key first = key second) :
    Ordered key items (order.map (Equiv.swap first second)) := by
  have cases (item : α) : Equiv.swap first second item = second ∧ item = first ∨
      Equiv.swap first second item = first ∧ item = second ∨ Equiv.swap first second item = item := by
    by_cases here : item = first
    · exact .inl ⟨by rw [here, Equiv.swap_apply_left], here⟩
    · by_cases there : item = second
      · exact .inr (.inl ⟨by rw [there, Equiv.swap_apply_right], there⟩)
      · exact .inr (.inr (Equiv.swap_apply_of_ne_of_ne here there))
  have keeps (item : α) : key (Equiv.swap first second item) = key item := by
    obtain ⟨moved, rfl⟩ | ⟨moved, rfl⟩ | moved := cases item <;> rw [moved]
    · exact tied.symm
    · exact tied
  have stays (item : α) (member : item ∈ order) : Equiv.swap first second item ∈ order := by
    obtain ⟨moved, -⟩ | ⟨moved, -⟩ | moved := cases item <;> rw [moved]
    · exact secondMember
    · exact firstMember
    · exact member
  have nodup : order.Nodup := ordered.perm.nodup_iff.mpr distinct
  have same : (order.map (Equiv.swap first second)).Perm order := by
    rw [List.perm_ext_iff_of_nodup (nodup.map (Equiv.swap first second).injective) nodup]
    intro item
    rw [List.mem_map]
    constructor
    · rintro ⟨before, member, rfl⟩
      exact stays before member
    · intro member
      exact ⟨_, stays item member, by simp⟩
  exact ⟨same.trans ordered.perm, by simpa [List.pairwise_map, keeps] using ordered.sorted⟩

theorem collected_switched {size : Nat} (before after : List α) (cut count : Nat) :
    collected size (fun index => if index < cut then before else after) (cut + count) =
      before.take (cut * size) ++ (after.drop (cut * size)).take (count * size) := by
  induction count with
  | zero =>
    have early : collected size (fun index => if index < cut then before else after) cut =
        (List.range cut).flatMap (page size before) := by
      refine List.flatMap_congr fun index member => ?_
      have inside : index < cut := List.mem_range.mp member
      simp [inside]
    simp [early, pages_take]
  | succ count ih =>
    rw [← Nat.add_assoc, collected_succ, ih, if_neg (by omega), List.append_assoc, page, Nat.succ_mul, List.take_add,
      List.drop_drop, Nat.add_mul]

theorem ordered_mergeSort (key : α → κ) (items : List α) :
    Ordered key items (items.mergeSort fun first second => key second ≤ key first) where
  perm := List.mergeSort_perm _ _
  sorted := by
    refine (List.pairwise_mergeSort (fun _ _ _ => ?_) (fun _ _ => ?_) items).imp fun sorted => by simpa using sorted
    · simpa using fun first second => second.trans first
    · simpa using le_total _ _

theorem collected_perm_iff (distinct : items.Nodup) {size count : Nat} (enough : items.length ≤ count * size) :
    (∀ orders : Nat → List α, (∀ index, Ordered key items (orders index)) →
      (collected size orders count).Perm items) ↔ ∀ index, ¬TieAcross (sortedKeys key items) (index * size) := by
  classical
  constructor
  · rintro complete cut ⟨tied, early, late⟩
    have ordered := ordered_mergeSort key items
    generalize items.mergeSort (fun first second => key second ≤ key first) = order at ordered
    rw [← ordered.keys, ← List.map_take] at early
    rw [← ordered.keys, ← List.map_drop] at late
    obtain ⟨first, before, rfl⟩ := List.mem_map.mp early
    obtain ⟨second, after, same⟩ := List.mem_map.mp late
    have other := ordered.swapped distinct (List.mem_of_mem_take before) (List.mem_of_mem_drop after) same.symm
    have inside : cut * size < count * size := by
      have nonempty := List.length_pos_of_mem after
      rw [List.length_drop, ordered.perm.length_eq] at nonempty
      omega
    obtain ⟨rest, rfl⟩ := Nat.exists_eq_add_of_lt (Nat.lt_of_mul_lt_mul_right inside)
    -- The pages up to the cut come from one order, the later ones from the one with the tie exchanged.
    have whole := complete
      (fun index => if index < cut then order else order.map (Equiv.swap first second))
      (fun index => by split <;> assumption)
    have short : ((order.map (Equiv.swap first second)).drop (cut * size)).length ≤ (rest + 1) * size := by
      rw [Nat.add_assoc, Nat.add_mul] at enough
      rw [List.length_drop, List.length_map, ordered.perm.length_eq]
      omega
    rw [Nat.add_assoc, collected_switched, List.take_of_length_le short] at whole
    have nodup := whole.nodup_iff.mpr distinct
    refine (List.nodup_append.mp nodup).2.2 first before first ?_ rfl
    rw [← List.map_drop, List.mem_map]
    exact ⟨second, after, Equiv.swap_apply_right first second⟩
  · exact fun untied orders ordered => collected_perm ordered untied enough

end Paging
