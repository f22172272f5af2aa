import Cyclops.Layout.Share

/-!
# Restoring a saved layout

A saved row has the part of each pane as a ratio of four decimals, and applying it shares the cells
of the row out over the ratios.
-/

namespace Cyclops.Layout

open List

/-- The part of a pane, to four places. A half is rounded up. -/
def ratio (cells total : Nat) : ℚ :=
  if total = 0 then 0 else round ((cells : ℚ) / total * 10000) / 10000

def ratios (row : List Nat) : List ℚ :=
  row.map (ratio · row.sum)

theorem abs_ratio_sub {total : Nat} (h : 0 < total) (cells : Nat) :
    |ratio cells total - cells / total| ≤ 1 / 20000 := by
  have rounded := abs_sub_round ((cells : ℚ) / total * 10000)
  rw [ratio, if_neg h.ne', abs_le]
  rw [abs_le] at rounded
  constructor <;> linarith

theorem abs_sum_ratio_sub {total : Nat} (h : 0 < total) (row : List Nat) :
    |(row.map (ratio · total)).sum - row.sum / total| ≤ row.length / 20000 := by
  induction row with
  | nil => simp
  | cons cells row ih =>
    have first := abs_ratio_sub h cells
    rw [abs_le] at first ih ⊢
    simp only [map_cons, sum_cons, length_cons, Nat.cast_add, add_div]
    constructor <;> linarith

theorem forall₂_of_getD_le {l m : List Nat} (length : l.length = m.length)
    (le : ∀ i < l.length, l.getD i 0 ≤ m.getD i 0) : Forall₂ (· ≤ ·) l m :=
  forall₂_iff_get.mpr ⟨length, fun i hl hm => by simpa [hl, hm] using le i hl⟩

theorem eq_of_forall₂_le {l m : List Nat} (le : Forall₂ (· ≤ ·) l m) (sum : l.sum = m.sum) :
    l = m := by
  induction le with
  | nil => rfl
  | cons first rest ih =>
    have tails := rest.sum_le_sum
    rw [sum_cons, sum_cons] at sum
    rw [ih (by omega), show _ = _ from first.antisymm (by omega)]

section Row

variable {row : List Nat} (filled : row ≠ []) (cells : ∀ w ∈ row, 1 ≤ w) (panes : row.length ≤ 10)
  (total : row.sum ≤ 500)

include filled cells

theorem length_le_sum : 0 < row.length ∧ row.length ≤ row.sum :=
  ⟨length_pos_iff.mpr filled, by simpa using length_le_sum_of_one_le row cells⟩

include panes in
theorem abs_sum_ratios_sub : |(ratios row).sum - 1| ≤ 1 / 2000 := by
  obtain ⟨some_pane, le⟩ := length_le_sum filled cells
  have all := abs_sum_ratio_sub (some_pane.trans_le le) row
  rw [div_self (by exact_mod_cast (some_pane.trans_le le).ne')] at all
  have few : (row.length : ℚ) ≤ 10 := by exact_mod_cast panes
  exact all.trans (by linarith)

include panes total in
/-- The four decimals move no part by half a cell. -/
theorem abs_sub_exact_lt {i : Nat} (hi : i < row.length) :
    |(row.getD i 0 : ℚ) - (exactShares (ratios row) row.sum).getD i 0| < 1 / 2 := by
  have sums := abs_sum_ratios_sub filled cells panes
  have le : row.getD i 0 ≤ row.sum := by
    rw [getD_eq_getElem _ _ hi]
    exact le_sum_of_mem (getElem_mem hi)
  have pos : 0 < row.sum := by
    obtain ⟨some_pane, le⟩ := length_le_sum filled cells
    exact some_pane.trans_le le
  have one := abs_ratio_sub pos (row.getD i 0)
  have here : (ratios row).getD i 0 = ratio (row.getD i 0) row.sum := by simp [ratios, hi]
  rw [getD_exact rfl, here]
  have small : (row.sum : ℚ) ≤ 500 := by exact_mod_cast total
  have le : (row.getD i 0 : ℚ) ≤ row.sum := by exact_mod_cast le
  generalize row.getD i 0 = w at *
  generalize ratio w row.sum = r at *
  generalize (ratios row).sum = S at *
  obtain ⟨low, high⟩ := abs_le.mp sums
  have positive : 0 < S := by linarith
  have split : w - r / S * row.sum = (w * (S - 1) - (r - w / row.sum) * row.sum) / S := by
    field_simp
    ring
  have first : |w * (S - 1)| ≤ 500 * (1 / 2000) := by
    rw [abs_mul, Nat.abs_cast]
    exact mul_le_mul (le.trans small) sums (abs_nonneg _) (by norm_num)
  have second : |(r - w / row.sum) * row.sum| ≤ 1 / 20000 * 500 := by
    rw [abs_mul, Nat.abs_cast]
    exact mul_le_mul one small (Nat.cast_nonneg _) (by norm_num)
  rw [split, abs_div, abs_of_pos positive, div_lt_iff₀ positive]
  calc |w * (S - 1) - (r - w / row.sum) * row.sum|
      ≤ |w * (S - 1)| + |(r - w / row.sum) * row.sum| := abs_sub _ _
    _ < 1 / 2 * S := by linarith

include total in
theorem ratios_pos : ∀ r ∈ ratios row, 0 < r := by
  simp only [ratios, mem_map, forall_exists_index, and_imp]
  rintro _ w mem rfl
  obtain ⟨some_pane, le⟩ := length_le_sum filled cells
  have pos : (0 : ℚ) < row.sum := by exact_mod_cast some_pane.trans_le le
  have small : (row.sum : ℚ) ≤ 500 := by exact_mod_cast total
  have one : (1 : ℚ) ≤ w := by exact_mod_cast cells w mem
  have part : 1 / 500 ≤ (w : ℚ) / row.sum := by
    gcongr
  have near := (abs_le.mp (abs_ratio_sub (some_pane.trans_le le) w)).1
  linarith

include panes total

/-- The first cells of a pane are no more than it had. -/
theorem firstCells_le {i : Nat} (hi : i < row.length) :
    max ⌊(exactShares (ratios row) row.sum).getD i 0⌋.toNat 1 ≤ row.getD i 0 := by
  have near := (abs_lt.mp (abs_sub_exact_lt filled cells panes total hi)).1
  have one : 1 ≤ row.getD i 0 := by
    rw [getD_eq_getElem _ _ hi]
    exact cells _ (getElem_mem hi)
  have floor : ⌊(exactShares (ratios row) row.sum).getD i 0⌋ < row.getD i 0 + 1 := by
    rw [Int.floor_lt]
    push_cast
    linarith
  omega

theorem exists_share : ∃ counts, share (ratios row) row.sum = some counts := by
  obtain ⟨some_pane, le⟩ := length_le_sum filled cells
  have length : (ratios row).length = row.length := by simp [ratios]
  have spent : (firstCells (exactShares (ratios row) row.sum)).sum ≤ row.sum := by
    have cells_length : (firstCells (exactShares (ratios row) row.sum)).length = row.length := by
      simp [firstCells, exactShares, ratios]
    refine (forall₂_of_getD_le cells_length fun i hi => ?_).sum_le_sum
    have first := firstCells_le filled cells panes total (cells_length ▸ hi)
    have inside : i < (exactShares (ratios row) row.sum).length := by simpa [firstCells] using hi
    simpa [firstCells, inside] using first
  have positive : 0 < (ratios row).sum := by
    linarith [(abs_le.mp (abs_sum_ratios_sub filled cells panes)).1]
  unfold share
  rw [if_neg (by omega), if_neg (by simpa [usable] using positive), if_neg (by omega)]
  exact ⟨_, rfl⟩

/-- A row comes back exactly when no part below one cell is given a cell left over. -/
theorem row_restored_iff : share (ratios row) row.sum = some row ↔
    ∀ i ∈ served (exactShares (ratios row) row.sum) row.sum,
      1 ≤ (exactShares (ratios row) row.sum).getD i 0 := by
  have length : (ratios row).length = row.length := by simp [ratios]
  obtain ⟨counts, shared⟩ := exists_share filled cells panes total
  have near := fun i hi => abs_lt.mp (@abs_sub_exact_lt row filled cells panes total i hi)
  have first := fun i hi => @firstCells_le row filled cells panes total i hi
  have fair := fair_iff (ratios_pos filled cells total) shared
  generalize shares : exactShares (ratios row) row.sum = exact at *
  have count := fun i hi => @counts_getD _ _ _ _ shares shared i (length ▸ hi)
  constructor
  · intro restored i mem
    have hi : i < row.length := by
      rw [← length, ← length_exact shares]
      exact lt_of_mem_served mem
    have two : 2 ≤ row.getD i 0 := by
      rw [Option.some.inj (shared.symm.trans restored)] at count
      have := count i hi
      rw [if_pos mem] at this
      omega
    have two : (2 : ℚ) ≤ row.getD i 0 := by exact_mod_cast two
    linarith [(near i hi).2]
  · intro whole
    have same := fair.mpr whole
    have lengths : counts.length = row.length := same.length.trans length
    rw [shared, Option.some.injEq]
    by_cases more : ∃ i < row.length, row.getD i 0 < counts.getD i 0
    · -- A pane that gained a cell has a part of less than half a cell, so that none that lacks a
      -- cell, with a part of more than half, was passed over for it.
      obtain ⟨i, hi, gained⟩ := more
      refine (eq_of_forall₂_le (forall₂_of_getD_le lengths.symm fun j hj => ?_)
        same.sum.symm).symm
      by_contra lacks
      have low : row.getD j 0 - 1 ≤ ⌊exact.getD j 0⌋ := Int.le_floor.mpr (by
        push_cast
        linarith [(near j hj).2])
      have gain := count i hi
      have lack := count j hj
      have most := first i hi
      split_ifs at gain lack with servedI servedJ
      · omega
      · have one : 1 ≤ ⌊exact.getD i 0⌋ := Int.le_floor.mpr (by simpa using whole i servedI)
        have parts := fraction_le_of_notMem servedI (by rwa [length_exact shares, length]) servedJ
        have wholeI := Int.floor_add_fract (exact.getD i 0)
        have wholeJ := Int.floor_add_fract (exact.getD j 0)
        have full : (⌊exact.getD i 0⌋ : ℚ) = row.getD i 0 := by
          exact_mod_cast (by omega : ⌊exact.getD i 0⌋ = row.getD i 0)
        have short : (⌊exact.getD j 0⌋ : ℚ) = row.getD j 0 - 1 := by
          exact_mod_cast (by omega : ⌊exact.getD j 0⌋ = row.getD j 0 - 1)
        unfold fraction at parts
        linarith [(near i hi).1, (near j hj).2]
      · omega
      · omega
    · refine eq_of_forall₂_le (forall₂_of_getD_le lengths fun i hi => ?_) same.sum
      exact not_lt.mp fun less => more ⟨i, lengths ▸ hi, less⟩

end Row

theorem two_panes_restored : share (ratios [40, 20]) 60 = some [40, 20] := by
  refine (@row_restored_iff [40, 20] (by simp) (by simp) (by simp) (by simp)).mpr ?_
  decide +kernel

/-- The part of the first pane is 0.9999 of a cell. -/
theorem narrow_pane_widened : share (ratios [1, 3, 5]) 9 = some [2, 2, 5] := by
  decide +kernel

end Cyclops.Layout
