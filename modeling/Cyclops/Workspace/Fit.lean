import Mathlib.Algebra.BigOperators.Group.List.Basic
import Mathlib.Algebra.GroupWithZero.Nat
import Mathlib.Data.List.Sort

/-!
# Lengths of the siblings of a split

Siblings that do not fit get a cell each and share the rest in proportion to what they want.

Result: `no_cell_wasted_iff`.
-/

namespace Cyclops.Fit

open List Nat

/-- The floor loop from `index` on. -/
def grantFloor (focused : Option Nat) : Nat → Nat → List Nat → List Nat
  | _, 0, fitted => fitted
  | _, _, [] => []
  | index, left + 1, length :: rest =>
    if some index = focused then length :: grantFloor focused (index + 1) (left + 1) rest
    else 1 :: grantFloor focused (index + 1) left rest

/-- The siblings that get one of the cells the shares leave. -/
def leftovers (wanted : List Nat) (remaining : Nat) : List Nat :=
  let distributed := (wanted.map (remaining * · / wanted.sum)).sum
  let remainders := wanted.zipIdx.map fun (w, index) => (remaining * w % wanted.sum, index)
  ((remainders.insertionSort fun a b => b.1 < a.1 ∨ b.1 = a.1 ∧ b.2 ≤ a.2).take
    (remaining - distributed)).map Prod.snd

def addLeftovers (fitted indices : List Nat) : List Nat :=
  indices.foldl (fun fitted index => fitted.modify index (· + 1)) fitted

/-- A cell for each sibling, for the focused one first. -/
def floorCells (count content : Nat) (focused : Option Nat) : List Nat :=
  match focused.filter (· < count) with
  | some index => grantFloor focused 0 (min content count - 1) ((replicate count 0).set index 1)
  | none => grantFloor focused 0 (min content count) (replicate count 0)

def apportion (wanted : List Nat) (content : Nat) (focused : Option Nat) : List Nat :=
  let floor := floorCells wanted.length content focused
  let remaining := content - floor.sum
  if remaining = 0 ∨ wanted.sum = 0 then floor
  else addLeftovers (zipWith (fun length w => length + remaining * w / wanted.sum) floor wanted)
    (leftovers wanted remaining)

def fittingGap (count available wantedGap : Nat) : Nat :=
  if count - 1 = 0 then 0 else min wantedGap ((available - count) / (count - 1))

/-- The lengths and the gap. With 16 bits for the wanted total nothing saturates. -/
def fitSplitLengths (wanted : List Nat) (available wantedGap : Nat) (focused : Option Nat) :
    List Nat × Nat :=
  let count := wanted.length
  if wanted = [] then ([], 0)
  else if available < count + (count - 1) then
    ((replicate count 0).set ((focused.filter (· < count)).getD 0) available, 0)
  else
    let gap := fittingGap count available wantedGap
    let content := available - gap * (count - 1)
    if wanted.sum ≤ content then (wanted, gap) else (apportion wanted content focused, gap)

structure Fitted (wanted : List Nat) (available : Nat) (fit : List Nat × Nat) : Prop where
  length : fit.1.length = wanted.length
  uses : fit.1.sum + fit.2 * (wanted.length - 1) = available
  within : ∀ p ∈ fit.1.zip wanted, 1 ≤ p.1 ∧ p.1 ≤ p.2
  fair : ∀ p ∈ fit.1.zip wanted, ∀ q ∈ fit.1.zip wanted, p.2 ≤ q.2 → p.1 ≤ q.1 + 1

/-- The narrowed gaps leave no cell over, and no leftover goes to a full sibling. -/
def Spared (wanted : List Nat) (available wantedGap : Nat) : Prop :=
  let count := wanted.length
  let content := available - fittingGap count available wantedGap * (count - 1)
  content ≤ wanted.sum ∧ (content < wanted.sum → ∀ index ∈ leftovers wanted (content - count),
    ∀ w, wanted[index]? = some w → 1 + (content - count) * w / wanted.sum < w)

/-! ## The floor -/

theorem grantFloor_eq {focused : Option Nat} {index left : Nat} {fitted : List Nat}
    (hset : ∀ k < fitted.length, focused = some (index + k) → fitted[k]? = some 1)
    (hleft : fitted.length ≤ left ∨
      fitted.length ≤ left + 1 ∧ ∃ k < fitted.length, focused = some (index + k)) :
    grantFloor focused index left fitted = replicate fitted.length 1 := by
  induction fitted generalizing index left with
  | nil => cases left <;> rfl
  | cons length rest ih =>
    have hrest : ∀ k < rest.length, focused = some (index + 1 + k) → rest[k]? = some 1 :=
      fun k hk hf => hset (k + 1) (succ_lt_succ hk) (by rw [hf, add_right_comm, add_assoc])
    rw [length_cons] at hleft ⊢
    rw [replicate_succ]
    by_cases hf : focused = some index
    · obtain rfl : length = 1 := Option.some.inj (hset 0 (succ_pos _) hf)
      cases left with
      | zero =>
        obtain rfl : rest = [] := length_eq_zero_iff.mp (by omega)
        rfl
      | succ left => rw [grantFloor, if_pos hf.symm, ih hrest (.inl (by omega))]
    · have hlater : (∃ k < rest.length + 1, focused = some (index + k)) →
          ∃ k < rest.length, focused = some (index + 1 + k) := by
        rintro ⟨_ | k, hk, hfk⟩
        · exact absurd hfk hf
        · exact ⟨k, lt_of_succ_lt_succ hk, by rw [hfk, add_right_comm, add_assoc]⟩
      cases left with
      | zero =>
        obtain ⟨k, hk, -⟩ := hlater (hleft.resolve_left (by omega)).2
        omega
      | succ left =>
        rw [grantFloor, if_neg (Ne.symm hf), ih hrest]
        exact hleft.imp le_of_succ_le_succ (And.imp le_of_succ_le_succ hlater)

theorem floorCells_eq {count content : Nat} (focused : Option Nat) (hc : count ≤ content) :
    floorCells count content focused = replicate count 1 := by
  unfold floorCells
  rw [min_eq_right hc]
  split
  · next index hi =>
    obtain ⟨rfl, hlt⟩ := Option.filter_eq_some_iff.mp hi
    have hlt : index < count := of_decide_eq_true hlt
    rw [grantFloor_eq, length_set, length_replicate]
    · rintro k - hk
      obtain rfl : index = k := by simpa using hk
      simp [hlt]
    · exact .inr ⟨by simp; omega, index, by simpa using hlt, by simp⟩
  · next hn =>
    rw [grantFloor_eq, length_replicate]
    · intro k hk hf
      rw [length_replicate] at hk
      simp [hf] at hn
      omega
    · exact .inl (by simp)

variable {wanted : List Nat} {content remaining : Nat}

theorem apportion_eq (focused : Option Nat) (hc : wanted.length ≤ content)
    (ht : content < wanted.sum) : apportion wanted content focused =
      addLeftovers (wanted.map fun w => 1 + (content - wanted.length) * w / wanted.sum)
        (leftovers wanted (content - wanted.length)) := by
  simp only [apportion, floorCells_eq focused hc, sum_replicate_nat, mul_one]
  split_ifs with h
  · have h0 : content - wanted.length = 0 := h.resolve_right (by omega)
    simp [h0, leftovers, addLeftovers]
  · rw [← map_const', zipWith_map_left, zipWith_self]

/-! ## The leftover cells -/

theorem getElem?_addLeftovers {fitted indices : List Nat} (k : Nat) :
    (addLeftovers fitted indices)[k]? = fitted[k]?.map (· + indices.count k) := by
  induction indices generalizing fitted with
  | nil => simp [addLeftovers]
  | cons index indices ih =>
    rw [addLeftovers, foldl_cons, ← addLeftovers, ih, getElem?_modify, count_cons]
    by_cases hk : index = k
    · simp [hk, Function.comp_def, add_assoc, add_comm 1]
    · simp [hk]

@[simp] theorem length_addLeftovers {fitted indices : List Nat} :
    (addLeftovers fitted indices).length = fitted.length := by
  induction indices generalizing fitted with
  | nil => rfl
  | cons index indices ih => exact ih.trans (length_modify ..)

theorem sum_modify_succ {fitted : List Nat} {index : Nat} (h : index < fitted.length) :
    (fitted.modify index (· + 1)).sum = fitted.sum + 1 := by
  induction fitted generalizing index with
  | nil => cases h
  | cons length rest ih =>
    cases index with
    | zero => simp [add_right_comm]
    | succ index => simp [ih (lt_of_succ_lt_succ h), add_assoc]

theorem sum_addLeftovers {fitted indices : List Nat} (h : ∀ index ∈ indices, index < fitted.length) :
    (addLeftovers fitted indices).sum = fitted.sum + indices.length := by
  induction indices generalizing fitted with
  | nil => rfl
  | cons index indices ih =>
    obtain ⟨hi, hr⟩ := forall_mem_cons.mp h
    rw [addLeftovers, foldl_cons, ← addLeftovers, ih (by simpa using hr), sum_modify_succ hi,
      length_cons]
    omega

theorem leftovers_sublist :
    ∃ order, leftovers wanted remaining <+ order ∧ order ~ range wanted.length := by
  refine ⟨_, (take_sublist _ _).map _, ((perm_insertionSort _ _).map _).trans (.of_eq ?_)⟩
  rw [map_map, range_eq_range']
  exact zipIdx_map_snd 0 wanted

theorem shares_bounds {total : Nat} (hpos : 0 < total) (pool : Nat) (ws : List Nat) :
    total * (ws.map (pool * · / total)).sum ≤ pool * ws.sum ∧
      pool * ws.sum ≤ total * ((ws.map (pool * · / total)).sum + ws.length) := by
  induction ws with
  | nil => simp
  | cons w ws ih =>
    have hdiv := div_add_mod (pool * w) total
    have hmod := mod_lt (pool * w) hpos
    simp only [map_cons, sum_cons, length_cons, Nat.mul_add] at ih ⊢
    omega

theorem shares_add_leftovers (hpos : 0 < wanted.sum) :
    (wanted.map (remaining * · / wanted.sum)).sum + (leftovers wanted remaining).length =
      remaining := by
  obtain ⟨hle, hge⟩ := shares_bounds hpos remaining wanted
  rw [mul_comm remaining] at hle hge
  have hle := Nat.le_of_mul_le_mul_left hle hpos
  have hge := Nat.le_of_mul_le_mul_left hge hpos
  simp only [leftovers, length_map, length_take, length_insertionSort, length_zipIdx]
  omega

theorem mem_zip_addLeftovers {g : Nat → Nat} {indices : List Nat} {got w : Nat} :
    (got, w) ∈ (addLeftovers (wanted.map g) indices).zip wanted ↔
      ∃ index, wanted[index]? = some w ∧ got = g w + indices.count index := by
  simp only [mem_iff_getElem?, getElem?_zip_eq_some, getElem?_addLeftovers, getElem?_map]
  refine exists_congr fun index => ?_
  constructor
  · rintro ⟨hp, hw⟩
    simp only [hw, Option.map_some, Option.some.injEq] at hp
    exact ⟨hw, hp.symm⟩
  · rintro ⟨hw, rfl⟩
    simp [hw]

/-! ## Fitting -/

theorem apportion_fitted_iff {available gap : Nat} {focused : Option Nat}
    (hw : ∀ w ∈ wanted, 1 ≤ w) (hc : wanted.length ≤ content) (ht : content < wanted.sum)
    (ha : content + gap * (wanted.length - 1) = available) :
    Fitted wanted available (apportion wanted content focused, gap) ↔
      ∀ index ∈ leftovers wanted (content - wanted.length),
        ∀ w, wanted[index]? = some w → 1 + (content - wanted.length) * w / wanted.sum < w := by
  rw [apportion_eq focused hc ht]
  obtain ⟨order, hsub, hperm⟩ := @leftovers_sublist wanted (content - wanted.length)
  have hsum := @shares_add_leftovers wanted (content - wanted.length) (by omega)
  generalize leftovers wanted (content - wanted.length) = chosen at hsub hsum ⊢
  have hnodup : chosen.Nodup := (hperm.nodup_iff.mpr nodup_range).sublist hsub
  constructor
  · intro h index hi w hget
    have hle := (h.within (_, w) (mem_zip_addLeftovers.mpr ⟨index, hget, rfl⟩)).2
    rw [count_eq_one_of_mem hnodup hi] at hle
    exact hle
  · intro h
    refine ⟨by simp, ?_, ?_, ?_⟩
    · have hin : ∀ index ∈ chosen, index < wanted.length := fun index hi =>
        mem_range.mp (hperm.mem_iff.mp (hsub.subset hi))
      have hone : (wanted.map fun _ => 1).sum = wanted.length := by simp
      rw [sum_addLeftovers (by simpa using hin), sum_map_add, hone]
      change _ + gap * _ = _
      omega
    · rintro ⟨got, w⟩ hp
      obtain ⟨index, hget, rfl⟩ := mem_zip_addLeftovers.mp hp
      refine ⟨le_add_right_of_le (le_add_right 1 _), ?_⟩
      by_cases hi : index ∈ chosen
      · rw [count_eq_one_of_mem hnodup hi]
        exact h index hi w hget
      · -- the shares are of less than the wanted total
        have hpos := hw w (mem_of_getElem? hget)
        have hlt : (content - wanted.length) * w < wanted.sum * w :=
          Nat.mul_lt_mul_of_pos_right (by omega) hpos
        rw [count_eq_zero_of_not_mem hi, add_zero, add_comm]
        exact Nat.div_lt_of_lt_mul hlt
    · rintro ⟨got, w⟩ hp ⟨got', w'⟩ hp' hle
      obtain ⟨index, -, rfl⟩ := mem_zip_addLeftovers.mp hp
      obtain ⟨index', -, rfl⟩ := mem_zip_addLeftovers.mp hp'
      have hone := nodup_iff_count_le_one.mp hnodup index
      have hshare := @Nat.div_le_div_right _ _ wanted.sum
        (mul_le_mul_left (content - wanted.length) hle)
      dsimp only at hshare ⊢
      omega

theorem wanted_fitted_iff {available gap : Nat} (hw : ∀ w ∈ wanted, 1 ≤ w) :
    Fitted wanted available (wanted, gap) ↔ wanted.sum + gap * (wanted.length - 1) = available := by
  have hself {p : Nat × Nat} (hp : p ∈ wanted.zip wanted) : p.1 ∈ wanted ∧ p.1 = p.2 := by
    simp only [zip, zipWith_self, mem_map] at hp
    obtain ⟨w, hm, rfl⟩ := hp
    exact ⟨hm, rfl⟩
  refine ⟨Fitted.uses, fun h => ⟨rfl, h, fun p hp => ?_, fun p hp q hq hle => ?_⟩⟩
  · exact ⟨hw _ (hself hp).1, (hself hp).2.le⟩
  · have := (hself hp).2
    have := (hself hq).2
    omega

/-- Siblings that do not fit use exactly the available cells, none more than it wants, and nearly in
order, exactly when nothing is left over and no leftover goes to a full sibling. -/
theorem no_cell_wasted_iff (wanted : List Nat) (available gap : Nat) (focused : Option Nat)
    (positive : ∀ w ∈ wanted, 1 ≤ w)
    (crowded : available < wanted.sum + gap * (wanted.length - 1))
    (floor : wanted.length + (wanted.length - 1) ≤ available) :
    Fitted wanted available (fitSplitLengths wanted available gap focused) ↔
      Spared wanted available gap := by
  have hne : wanted ≠ [] := by
    rintro rfl
    simp at crowded
  have hgap : fittingGap wanted.length available gap * (wanted.length - 1) ≤
      available - wanted.length := by
    unfold fittingGap
    split_ifs with h
    · simp
    · exact (mul_le_mul_right _ (min_le_right _ _)).trans (div_mul_le_self _ _)
  unfold fitSplitLengths Spared
  rw [if_neg hne, if_neg (by omega)]
  dsimp only
  split_ifs with ht
  · rw [wanted_fitted_iff positive]
    omega
  · rw [apportion_fitted_iff positive (by omega) (by omega) (by omega)]
    exact ⟨fun h => ⟨by omega, fun _ => h⟩, fun h => h.2 (by omega)⟩

theorem two_siblings_fitted : Fitted [5, 3] 6 (fitSplitLengths [5, 3] 6 1 none) :=
  (no_cell_wasted_iff [5, 3] 6 1 none (by decide) (by decide) (by decide)).mpr
    ⟨by decide, fun _ => by decide⟩

/-- The cell that is left goes to the sibling that wants one cell and has it. -/
theorem full_sibling_overfilled : ¬ Fitted [1, 5, 5] 12 (fitSplitLengths [1, 5, 5] 12 1 none) :=
  fun h => absurd h.within (by decide)

end Cyclops.Fit
