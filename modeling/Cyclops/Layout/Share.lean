import Cyclops.Workspace.Fit
import Mathlib.Algebra.BigOperators.Ring.List
import Mathlib.Algebra.Order.BigOperators.Group.List
import Mathlib.Data.List.GetD
import Mathlib.Data.Rat.Floor

/-!
# Sharing the cells of a saved layout

The panes of a saved row get the whole cells of their shares, at least one each, and the cells left
over go by the largest fractional parts.

Results: `fair_iff`, `small_share_doubled`.
-/

namespace Cyclops.Layout

open List Fit

def usable (ratio : ℚ) : Bool :=
  0 < ratio

def exactShares (ratios : List ℚ) (total : Nat) : List ℚ :=
  ratios.map fun r => r / ratios.sum * total

def firstCells (exact : List ℚ) : List Nat :=
  exact.map fun e => max ⌊e⌋.toNat 1

def fraction (exact : List ℚ) (i : Nat) : ℚ :=
  Int.fract (exact.getD i 0)

/-- The panes by the fractional parts of their shares, the largest first. -/
def order (exact : List ℚ) : List Nat :=
  (range exact.length).insertionSort fun a b => fraction exact b ≤ fraction exact a

def share (ratios : List ℚ) (total : Nat) : Option (List Nat) :=
  if total < ratios.length ∨ ratios.length = 0 then none
  else if !usable ratios.sum then none
  else
    let exact := exactShares ratios total
    let cells := firstCells exact
    let order := order exact
    if cells.sum > total then none
    else some ((range (total - cells.sum)).foldl
      (fun cells i => cells.modify (order.getD (i % order.length) 0) (· + 1)) cells)

/-- What `share` is to return: all the cells, no pane without one, none with fewer than one of a
smaller ratio, and every share rounded down or up, to exactly one where it is below one. -/
structure Fair (ratios : List ℚ) (total : Nat) (counts : List Nat) : Prop where
  length : counts.length = ratios.length
  sum : counts.sum = total
  one_le : ∀ c ∈ counts, 1 ≤ c
  monotone : ∀ i j, ratios.getD j 0 < ratios.getD i 0 → counts.getD j 0 ≤ counts.getD i 0
  rounded : ∀ i < ratios.length,
    if (exactShares ratios total).getD i 0 < 1 then counts.getD i 0 = 1
    else (counts.getD i 0 : ℤ) = ⌊(exactShares ratios total).getD i 0⌋ ∨
      (counts.getD i 0 : ℤ) = ⌈(exactShares ratios total).getD i 0⌉

/-- The panes that are given one of the cells left over. -/
def served (exact : List ℚ) (total : Nat) : List Nat :=
  (order exact).take (total - (firstCells exact).sum)

section Served

variable {exact : List ℚ} {total : Nat}

theorem order_perm (exact : List ℚ) : order exact ~ range exact.length :=
  perm_insertionSort _ _

theorem lt_of_mem_served {i : Nat} (hi : i ∈ served exact total) : i < exact.length :=
  mem_range.mp ((order_perm _).mem_iff.mp (mem_of_mem_take hi))

theorem fraction_le {i j : Nat} (hi : i ∈ served exact total)
    (hj : j ∈ (order exact).drop (total - (firstCells exact).sum)) :
    fraction exact j ≤ fraction exact i := by
  have sorted : (order exact).Pairwise fun a b => fraction exact b ≤ fraction exact a :=
    pairwise_insertionSort _ _
  rw [← take_append_drop (total - (firstCells exact).sum) (order exact)] at sorted
  exact (pairwise_append.mp sorted).2.2 i hi j hj

theorem fraction_le_of_notMem {i j : Nat} (hi : i ∈ served exact total) (hj : j < exact.length)
    (out : j ∉ served exact total) : fraction exact j ≤ fraction exact i := by
  have mem : j ∈ order exact := (order_perm _).mem_iff.mpr (mem_range.mpr hj)
  rw [← take_append_drop (total - (firstCells exact).sum) (order exact)] at mem
  exact fraction_le hi ((mem_append.mp mem).resolve_left out)

theorem sum_fraction (exact : List ℚ) :
    ((order exact).map (fraction exact)).sum = (exact.map Int.fract).sum := by
  rw [((order_perm exact).map _).sum_eq]
  congr 1
  refine ext_getElem (by simp) fun i _ inside => ?_
  simp at inside
  simp [fraction, inside]

theorem sum_le_firstCells (exact : List ℚ) :
    exact.sum ≤ (firstCells exact).sum + (exact.map Int.fract).sum := by
  induction exact with
  | nil => simp [firstCells]
  | cons e exact ih =>
    have whole : (⌊e⌋ : ℚ) ≤ (max ⌊e⌋.toNat 1 : ℕ) := by
      have : ⌊e⌋ ≤ (max ⌊e⌋.toNat 1 : ℕ) := by omega
      exact_mod_cast this
    have parts := Int.floor_add_fract e
    simp only [firstCells, map_cons, sum_cons, Nat.cast_add] at ih ⊢
    linarith

theorem sum_fraction_lt {l : List Nat} (h : l ≠ []) : (l.map (fraction exact)).sum < l.length := by
  have lt := sum_lt_sum_of_ne_nil h (fraction exact) (fun _ => 1) fun i _ => Int.fract_lt_one _
  simpa using lt

variable (all : exact.sum = total)

include all

theorem leftover_le : ((total - (firstCells exact).sum : ℕ) : ℚ) ≤
    ((order exact).map (fraction exact)).sum := by
  have le := sum_le_firstCells exact
  rw [all, ← sum_fraction] at le
  rcases le_total total (firstCells exact).sum with more | less
  · rw [Nat.sub_eq_zero_of_le more, Nat.cast_zero]
    exact sum_nonneg (by simp [fraction])
  · rw [Nat.cast_sub less]
    linarith

theorem length_served (filled : exact ≠ []) :
    (served exact total).length = total - (firstCells exact).sum := by
  have nonempty : order exact ≠ [] := fun none => filled (by simpa [none] using order_perm exact)
  have few := (leftover_le all).trans_lt (sum_fraction_lt nonempty)
  rw [served, length_take, min_eq_left]
  exact_mod_cast few.le

/-- A pane served without a part would leave none to the panes after it, and the parts of the
panes served do not make up the cells left over. -/
theorem fraction_pos {i : Nat} (hi : i ∈ served exact total) : 0 < fraction exact i := by
  by_contra none
  have after : (((order exact).drop (total - (firstCells exact).sum)).map (fraction exact)).sum ≤ 0 :=
    (sum_le_sum fun j hj => (fraction_le hi hj).trans (not_lt.mp none)).trans_eq (by simp)
  have before : ((served exact total).map (fraction exact)).sum < (served exact total).length :=
    sum_fraction_lt (ne_nil_of_mem hi)
  have few : ((served exact total).length : ℚ) ≤ (total - (firstCells exact).sum : ℕ) := by
    exact_mod_cast length_take_le ..
  have split := leftover_le all
  rw [← take_append_drop (total - (firstCells exact).sum) (order exact), map_append,
    sum_append] at split
  exact (split.trans_lt (add_lt_of_lt_of_nonpos (before.trans_le few) after)).false

end Served

theorem take_eq_map {l : List Nat} {k : Nat} (h : k ≤ l.length) :
    l.take k = (range k).map fun i => l.getD (i % l.length) 0 := by
  refine ext_getElem (by simpa using h) fun i before _ => ?_
  have inside : i < l.length := by
    simp only [length_take] at before
    omega
  simp [Nat.mod_eq_of_lt inside, inside]

theorem sum_exactShares {ratios : List ℚ} (positive : 0 < ratios.sum) (total : Nat) :
    (exactShares ratios total).sum = total := by
  simp only [exactShares, div_mul_eq_mul_div, mul_div_assoc]
  rw [sum_map_mul_right, map_id', mul_div_cancel₀ _ positive.ne']

/-- A share of one cell or more is rounded down, or up where it is served; a smaller one is
served what it should not be. -/
theorem rounded_iff {e : ℚ} {p : Prop} [Decidable p] (pos : 0 < e) (part : p → 0 < Int.fract e) :
    (if e < 1 then max ⌊e⌋.toNat 1 + (if p then 1 else 0) = 1
      else ((max ⌊e⌋.toNat 1 + (if p then 1 else 0) : ℕ) : ℤ) = ⌊e⌋ ∨
        ((max ⌊e⌋.toNat 1 + (if p then 1 else 0) : ℕ) : ℤ) = ⌈e⌉) ↔ (p → 1 ≤ e) := by
  split_ifs with small extra extra
  · have whole : ⌊e⌋ = 0 := Int.floor_eq_zero_iff.mpr ⟨pos.le, small⟩
    simp [small, extra]
  · have whole : ⌊e⌋ = 0 := Int.floor_eq_zero_iff.mpr ⟨pos.le, small⟩
    simp [whole, extra]
  · have one : 1 ≤ ⌊e⌋ := Int.le_floor.mpr (by simpa using small)
    have up : ⌈e⌉ = ⌊e⌋ + 1 := by
      have := part extra
      have := Int.floor_add_fract e
      refine Int.ceil_eq_iff.mpr ⟨?_, ?_⟩ <;> push_cast
      · linarith
      · exact (Int.lt_floor_add_one e).le
    exact iff_of_true (.inr (by omega)) fun _ => not_lt.mp small
  · have one : 1 ≤ ⌊e⌋ := Int.le_floor.mpr (by simpa using small)
    exact iff_of_true (.inl (by omega)) fun _ => not_lt.mp small

section Share

variable {ratios : List ℚ} {total : Nat} {counts : List Nat} {exact : List ℚ}
  (shares : exactShares ratios total = exact) (shared : share ratios total = some counts)

include shares

theorem getD_exact (i : Nat) : exact.getD i 0 = ratios.getD i 0 / ratios.sum * total := by
  cases found : ratios[i]? <;> simp [← shares, exactShares, found]

theorem length_exact : exact.length = ratios.length := by
  rw [← shares, exactShares, length_map]

include shared

theorem share_cases : 0 < ratios.sum ∧ 0 < ratios.length ∧ ratios.length ≤ total ∧
    (firstCells exact).sum ≤ total ∧ exact.sum = total ∧
    (served exact total).length = total - (firstCells exact).sum ∧
    counts = addLeftovers (firstCells exact) (served exact total) := by
  unfold share at shared
  dsimp only at shared
  rw [shares] at shared
  split_ifs at shared with few unusable excess
  have positive : 0 < ratios.sum := by simpa [usable] using unusable
  obtain ⟨enough, filled⟩ := not_or.mp few
  have all : exact.sum = total := shares ▸ sum_exactShares positive total
  have once := length_served all (ne_nil_of_length_pos (by
    rw [length_exact shares]
    exact Nat.pos_of_ne_zero filled))
  refine ⟨positive, Nat.pos_of_ne_zero filled, not_lt.mp enough, not_lt.mp excess, all, once, ?_⟩
  -- The loop goes round the order at most once.
  rw [served, length_take, min_eq_left_iff] at once
  rw [addLeftovers, served, take_eq_map once, foldl_map]
  exact (Option.some.inj shared).symm

theorem counts_getD {i : Nat} (inside : i < ratios.length) :
    counts.getD i 0 = max ⌊exact.getD i 0⌋.toNat 1 + if i ∈ served exact total then 1 else 0 := by
  obtain ⟨-, -, -, -, -, -, rfl⟩ := share_cases shares shared
  have nodup : (served exact total).Nodup :=
    ((order_perm _).nodup_iff.mpr nodup_range).sublist (take_sublist _ _)
  rw [← length_exact shares] at inside
  rw [getD_eq_getElem?_getD, getElem?_addLeftovers, nodup.count]
  simp [firstCells, inside]

theorem length_counts : counts.length = ratios.length := by
  obtain ⟨-, -, -, -, -, -, rfl⟩ := share_cases shares shared
  rw [length_addLeftovers, firstCells, length_map, length_exact shares]

variable (positive : ∀ r ∈ ratios, 0 < r)

include positive

theorem exact_pos {i : Nat} (hi : i < ratios.length) : 0 < exact.getD i 0 := by
  obtain ⟨sum, filled, enough, -⟩ := share_cases shares shared
  have cells : (0 : ℚ) < total := by exact_mod_cast filled.trans_le enough
  have ratio : 0 < ratios.getD i 0 := by simpa [hi] using positive _ (getElem_mem hi)
  rw [getD_exact shares]
  positivity

/-- A pane is served before those of smaller parts, so that where it is not the larger share has
the larger floor. -/
theorem counts_monotone (whole : ∀ i ∈ served exact total, 1 ≤ exact.getD i 0) {i j : Nat}
    (smaller : ratios.getD j 0 < ratios.getD i 0) : counts.getD j 0 ≤ counts.getD i 0 := by
  rcases lt_or_ge j ratios.length with hj | out
  · obtain ⟨sum, filled, enough, -⟩ := share_cases shares shared
    have cells : (0 : ℚ) < total := by exact_mod_cast filled.trans_le enough
    have less : exact.getD j 0 < exact.getD i 0 := by
      rw [getD_exact shares, getD_exact shares]
      gcongr
    have hi : i < ratios.length := by
      by_contra out
      rw [← length_exact shares, not_lt] at out
      rw [getD_eq_default _ _ out] at less
      exact (exact_pos shares shared positive hj).not_gt less
    have floors := Int.floor_mono less.le
    rw [counts_getD shares shared hi, counts_getD shares shared hj]
    split_ifs with servedJ servedI servedI
    · omega
    · have one : 1 ≤ ⌊exact.getD j 0⌋ := Int.le_floor.mpr (by simpa using whole j servedJ)
      have parts := fraction_le_of_notMem servedJ (length_exact shares ▸ hi) servedI
      have wholeI := Int.floor_add_fract (exact.getD i 0)
      have wholeJ := Int.floor_add_fract (exact.getD j 0)
      have lt : (⌊exact.getD j 0⌋ : ℚ) < ⌊exact.getD i 0⌋ := by
        unfold fraction at parts
        linarith
      have lt : ⌊exact.getD j 0⌋ < ⌊exact.getD i 0⌋ := by exact_mod_cast lt
      omega
    · omega
    · omega
  · rw [← length_counts shares shared] at out
    rw [getD_eq_default _ _ out]
    exact Nat.zero_le _

end Share

/-- The counts are fair exactly when no share below one cell is given a cell left over. -/
theorem fair_iff {ratios : List ℚ} {total : Nat} {counts : List Nat}
    (positive : ∀ r ∈ ratios, 0 < r) (shared : share ratios total = some counts) :
    Fair ratios total counts ↔
      ∀ i ∈ served (exactShares ratios total) total, 1 ≤ (exactShares ratios total).getD i 0 := by
  generalize shares : exactShares ratios total = exact
  obtain ⟨-, -, -, spent, all, once, counted⟩ := share_cases shares shared
  have inside : ∀ i ∈ served exact total, i < ratios.length := fun i hi =>
    length_exact shares ▸ lt_of_mem_served hi
  have rounded : ∀ i < ratios.length, _ ↔ (i ∈ served exact total → 1 ≤ exact.getD i 0) :=
    fun i hi => rounded_iff (exact_pos shares shared positive hi) (fraction_pos all)
  constructor
  · intro fair i hi
    have here := fair.rounded i (inside i hi)
    rw [counts_getD shares shared (inside i hi), shares] at here
    exact (rounded i (inside i hi)).mp here hi
  · intro whole
    refine ⟨length_counts shares shared, ?_, fun c hc => ?_,
      fun i j => counts_monotone shares shared positive whole, fun i hi => ?_⟩
    · rw [counted, sum_addLeftovers, once]
      · omega
      · intro i hi
        rw [firstCells, length_map, length_exact shares]
        exact inside i hi
    · obtain ⟨i, hi, rfl⟩ := getElem_of_mem hc
      have here := counts_getD shares shared (length_counts shares shared ▸ hi)
      rw [getD_eq_getElem _ _ hi] at here
      omega
    · rw [counts_getD shares shared hi, shares]
      exact (rounded i hi).mpr (whole i)

/-- Shares of 1.5 and 2.5 cells. -/
theorem halves_shared : Fair [3, 5] 4 [2, 2] := by
  have evaluated : share [3, 5] 4 = some [2, 2] ∧
      ∀ i ∈ served (exactShares [3, 5] 4) 4, 1 ≤ (exactShares [3, 5] 4).getD i 0 := by
    decide +kernel
  exact (fair_iff (by simp) evaluated.1).mpr evaluated.2

/-- The exact shares are 0.9, 1.2 and 1.9. -/
theorem small_share_doubled : share [9, 12, 19] 4 = some [2, 1, 1] ∧
    ¬ Fair [9, 12, 19] 4 [2, 1, 1] := by
  refine ⟨by decide +kernel, fun fair => ?_⟩
  exact absurd (fair.monotone 1 0 (by norm_num)) (by decide)

end Cyclops.Layout
