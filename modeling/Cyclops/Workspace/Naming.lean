import Cyclops.Proto.MessageId
import Mathlib.Algebra.Order.BigOperators.Group.Finset
import Mathlib.Data.List.DropRight

/-!
# Workspaces that follow their folders

A workspace is named after its folder.

Result: `following_settles`.
-/

namespace Cyclops.Workspace

open List Function Texts Nat

/-- The last component of a path. Empty components and `.` do not count, and a path that
ends in `..` has none. -/
def fileName (path : List Char) : Option (List Char) :=
  ((path.splitOn '/').filter fun part => part ≠ [] && part ≠ ['.']).getLast?.filter (· ≠ ['.', '.'])

def sessionNameFromFolder (folder : List Char) : String :=
  let name := (trim ((fileName folder).getD [])).map fun c =>
    if c = '.' || c = ':' || isControl c then '-' else c
  let trimmed := (name.dropWhile (· = '-')).rdropWhile (· = '-')
  if trimmed = [] then "workspace" else String.ofList trimmed

/-- The names a workspace may have: `base`, `base-2`, `base-3`, ... -/
def candidate (base : String) : Nat → String
  | 0 => base
  | n + 1 => base ++ ("-" ++ toString (n + 2))

theorem candidate_injective (base : String) : (candidate base).Injective := by
  intro m n h
  cases m with
  | zero =>
    cases n with
    | zero => rfl
    | succ n =>
      have hl := congrArg String.length h
      simp [candidate] at hl
  | succ m =>
    cases n with
    | zero =>
      have hl := congrArg String.length h
      simp [candidate] at hl
    | succ n =>
      simp only [candidate, String.append_right_inj] at h
      have hdi := congrArg (fun s => ofDigitChars 10 s.toList 0) h
      simpa using hdi

variable {base : String} {t : List String}

theorem le_length_of_taken {k : Nat} (h : ∀ j < k, candidate base j ∈ t) : k ≤ t.length := by
  have hs : (range k).map (candidate base) ⊆ t := fun name hn => by
    obtain ⟨j, hj, rfl⟩ := mem_map.mp hn
    exact h j (mem_range.mp hj)
  simpa using ((nodup_range.map (candidate_injective base)).subperm hs).length_le

theorem exists_free (base : String) (t : List String) : ∃ k, candidate base k ∉ t := by
  by_contra ha
  push Not at ha
  exact absurd (le_length_of_taken fun j (_ : j < t.length + 1) => ha j) (not_succ_le_self _)

/-- `base`, or the first `base-N` (N from 2) not in `taken`. -/
def uniqueSessionName (base : String) (taken : List String) : String :=
  candidate base (Nat.find (exists_free base taken))

def folderRename (current cwd : String) (taken : List String) : Option String :=
  let cwd := trim cwd.toList
  if cwd = [] then none
  else
    let next := uniqueSessionName (sessionNameFromFolder cwd) taken
    if next ≠ current then some next else none

theorem uniqueSessionName_spec (base : String) (t : List String) :
    ∃ k, uniqueSessionName base t = candidate base k ∧ candidate base k ∉ t ∧
      ∀ j < k, candidate base j ∈ t :=
  ⟨_, rfl, Nat.find_spec (exists_free base t),
    fun _ hj => not_not.mp (Nat.find_min (exists_free base t) hj)⟩

/-! ## Runs -/

variable {n : Nat} (folders : Fin n → String)

def othersNames (names : Fin n → String) (i : Fin n) : List String :=
  ((finRange n).filter (· ≠ i)).map names

def wanted (names : Fin n → String) (i : Fin n) : Option String :=
  folderRename (names i) (folders i) (othersNames names i)

def follow (names : Fin n → String) (i : Fin n) : Fin n → String :=
  match wanted folders names i with
  | none => names
  | some next => Function.update names i next

def renamesOf : (Fin n → String) → List (Fin n) → Nat
  | _, [] => 0
  | names, i :: picks =>
    (wanted folders names i).isSome.toNat + renamesOf (follow folders names i) picks

def baseOf (i : Fin n) : String :=
  sessionNameFromFolder (trim (folders i).toList)

open Classical in
/-- Where a workspace's name stands in its sequence; beyond all others if it is not in it. -/
noncomputable def position (names : Fin n → String) (i : Fin n) : Nat :=
  if h : ∃ k, names i = candidate (baseOf folders i) k then Nat.find h else n

variable {folders} {names : Fin n → String} {i : Fin n} {next : String}

theorem mem_othersNames {name : String} : name ∈ othersNames names i ↔ ∃ j ≠ i, names j = name := by
  simp [othersNames]

theorem wanted_eq_some (h : wanted folders names i = some next) :
    next ≠ names i ∧ ∃ k, next = candidate (baseOf folders i) k ∧
      next ∉ othersNames names i ∧ ∀ j < k, candidate (baseOf folders i) j ∈ othersNames names i := by
  unfold wanted folderRename at h
  dsimp only at h
  split at h
  · cases h
  split at h
  · next hne =>
    cases h
    obtain ⟨k, hk, hf, hm⟩ := uniqueSessionName_spec (baseOf folders i) (othersNames names i)
    exact ⟨hne, k, hk, hk ▸ hf, hm⟩
  · cases h

theorem follow_injective (hd : names.Injective) (i : Fin n) :
    (follow folders names i).Injective := by
  unfold follow
  split
  · exact hd
  · next next hn =>
    obtain ⟨-, k, -, hf, -⟩ := wanted_eq_some hn
    have ho : ∀ j ≠ i, names j ≠ next := fun j hj heq => hf (mem_othersNames.mpr ⟨j, hj, heq⟩)
    intro a b hab
    by_cases ha : a = i <;> by_cases hb : b = i
    · rw [ha, hb]
    · rw [ha, update_self, update_of_ne hb] at hab
      exact absurd hab.symm (ho b hb)
    · rw [hb, update_self, update_of_ne ha] at hab
      exact absurd hab (ho a ha)
    · rw [update_of_ne ha, update_of_ne hb] at hab
      exact hd hab

theorem position_eq {k : Nat} (h : names i = candidate (baseOf folders i) k) :
    position folders names i = k := by
  have hin : ∃ k, names i = candidate (baseOf folders i) k := ⟨k, h⟩
  rw [position, dif_pos hin]
  exact candidate_injective _ ((Nat.find_spec hin).symm.trans h)

theorem position_update_lt (hd : names.Injective) (h : wanted folders names i = some next) :
    position folders (update names i next) i < position folders names i := by
  obtain ⟨hne, k, rfl, hf, hmi⟩ := wanted_eq_some h
  rw [position_eq (update_self ..)]
  by_cases hin : ∃ m, names i = candidate (baseOf folders i) m
  · obtain ⟨m, hm⟩ := hin
    rw [position_eq hm]
    -- its own name is free for it
    have hle : k ≤ m := by
      by_contra hlt
      obtain ⟨j, hj, heq⟩ := mem_othersNames.mp (hmi m (Nat.lt_of_not_le hlt))
      exact hj (hd (heq.trans hm.symm))
    exact lt_of_le_of_ne hle fun heq => hne (heq ▸ hm.symm)
  · rw [position, dif_neg hin]
    refine (le_length_of_taken hmi).trans_lt ?_
    have hlt : ((finRange n).filter (· ≠ i)).length < (finRange n).length :=
      length_filter_lt_length_iff_exists.mpr ⟨i, mem_finRange i, by simp⟩
    rwa [length_finRange, ← length_map names] at hlt

theorem sum_position_follow (hd : names.Injective) (i : Fin n) :
    (wanted folders names i).isSome.toNat + ∑ j, position folders (follow folders names i) j ≤
      ∑ j, position folders names j := by
  unfold follow
  split
  · next hno => simp [hno]
  · next next hn =>
    have hlt : ∑ j, position folders (update names i next) j < ∑ j, position folders names j := by
      refine Finset.sum_lt_sum (fun j _ => ?_) ⟨i, Finset.mem_univ i, position_update_lt hd hn⟩
      by_cases hj : j = i
      · exact hj ▸ (position_update_lt hd hn).le
      · rw [position, position, update_of_ne hj]
    rw [hn, Option.isSome_some, Bool.toNat_true]
    omega

theorem renamesOf_le (hd : names.Injective) (p : List (Fin n)) :
    renamesOf folders names p ≤ ∑ i, position folders names i := by
  induction p generalizing names with
  | nil => exact zero_le _
  | cons i p ih =>
    have hr := ih (@follow_injective _ folders _ hd i)
    have hs := @sum_position_follow _ folders _ hd i
    rw [renamesOf]
    omega

/-- Names stay distinct, renames end, and each workspace then has the first free name of its
sequence. -/
theorem following_settles {n : Nat} (folders : Fin n → String) :
    (∀ (names : Fin n → String) (picks : List (Fin n)), names.Injective →
      (picks.foldl (follow folders) names).Injective) ∧
    (∀ names : Fin n → String, names.Injective →
      ∃ bound, ∀ picks, renamesOf folders names picks ≤ bound) ∧
    ∀ (names : Fin n → String) i, names.Injective → wanted folders names i = none →
      trim (folders i).toList ≠ [] →
      ∃ k, names i = candidate (baseOf folders i) k ∧ (∀ j ≠ i, names j ≠ names i) ∧
        ∀ m < k, ∃ j ≠ i, names j = candidate (baseOf folders i) m := by
  refine ⟨fun names picks hd => ?_, fun names hd => ⟨_, renamesOf_le hd⟩,
    fun names i hd hs hf => ?_⟩
  · induction picks generalizing names with
    | nil => exact hd
    | cons i picks ih => exact ih _ (follow_injective hd i)
  · obtain ⟨k, hk, -, hmi⟩ := uniqueSessionName_spec (baseOf folders i) (othersNames names i)
    have hsa : names i = uniqueSessionName (baseOf folders i) (othersNames names i) := by
      by_contra hne
      rw [wanted, folderRename, if_neg hf] at hs
      exact absurd (hs.symm.trans (if_pos (.symm hne))) nofun
    exact ⟨k, hsa.trans hk, fun j hj heq => hj (hd heq), fun m hm => mem_othersNames.mp (hmi m hm)⟩

/-- Two workspaces of one folder. -/
theorem numbered_name_settled :
    let folders : Fin 2 → String := fun _ => "/work/api"
    let names : Fin 2 → String := fun i => if i = 0 then "api" else "api-2"
    wanted folders names 1 = none ∧ ∃ k, names 1 = candidate (baseOf folders 1) k ∧
      (∀ j ≠ 1, names j ≠ names 1) ∧ ∀ m < k, ∃ j ≠ 1, names j = candidate (baseOf folders 1) m := by
  intro folders names
  have hn : wanted folders names 1 = none := by
    rw [Option.eq_none_iff_forall_ne_some]
    intro next hw
    obtain ⟨hne, k, hk, hfree, hbelow⟩ := wanted_eq_some hw
    rcases k with _ | _ | k
    · exact hfree (hk ▸ by decide +kernel)
    · exact hne (hk.trans (by decide +kernel))
    · exact absurd (hbelow 1 (by omega)) (by decide +kernel)
  exact ⟨hn, (following_settles folders).2.2 names 1 (by decide) hn (by decide +kernel)⟩

end Cyclops.Workspace
