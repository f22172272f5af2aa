import Mathlib.Data.List.AList
import Mathlib.Data.List.Sort

/-!
# Finite maps

Finite maps are association lists without duplicate keys. The order of the list is one of the
orders in which a hash map may be walked; `ordered` is the walk of a map sorted by key.
-/

namespace FiniteMap

open List Option AList

/-- A finite map from `K` to `V`. -/
abbrev Map (K V : Type) := AList (fun _ : K => V)

section Unordered

variable {K V : Type} [DecidableEq K]

def values (m : Map K V) : List V :=
  m.entries.map Sigma.snd

def retain (keep : K → V → Bool) (m : Map K V) : Map K V :=
  ⟨m.entries.filter fun e => keep e.1 e.2, m.nodupKeys.sublist filter_sublist⟩

def mapValues (f : V → V) (m : Map K V) : Map K V where
  entries := m.entries.map fun e => ⟨e.1, f e.2⟩
  nodupKeys := by
    have keys : (m.entries.map fun e => (⟨e.1, f e.2⟩ : Σ _ : K, V)).keys = m.entries.keys := by
      simp [List.keys]
    rw [List.NodupKeys, keys]
    exact m.nodupKeys

variable {m : Map K V} {k : K} {v : V}

@[simp] theorem lookup_insert_ite {k' : K} :
    (m.insert k v).lookup k' = if k' = k then some v else m.lookup k' := by
  split
  · next h => rw [h, lookup_insert]
  · next h => rw [lookup_insert_ne h]

@[simp] theorem lookup_erase_ite {k' : K} :
    (m.erase k).lookup k' = if k' = k then none else m.lookup k' := by
  split
  · next h => rw [h, lookup_erase]
  · next h => rw [lookup_erase_ne h]

theorem mem_iff_lookup : k ∈ m ↔ ∃ v, m.lookup k = some v := by
  rw [← lookup_isSome, isSome_iff_exists]

theorem not_mem_iff_lookup : k ∉ m ↔ m.lookup k = none :=
  lookup_eq_none.symm

theorem mem_values : v ∈ values m ↔ ∃ k, m.lookup k = some v := by
  constructor
  · intro h
    obtain ⟨e, he, rfl⟩ := mem_map.mp h
    exact ⟨e.1, mem_lookup_iff.mpr he⟩
  · rintro ⟨k, h⟩
    exact mem_map.mpr ⟨⟨k, v⟩, mem_lookup_iff.mp h, rfl⟩

theorem pairwise_values {R : V → V → Prop}
    (h : ∀ k v k' v', m.lookup k = some v → m.lookup k' = some v' → k ≠ k' → R v v') :
    (values m).Pairwise R := by
  have hk : m.entries.Pairwise fun a b => a.1 ≠ b.1 :=
    nodupKeys_iff_pairwise.mp m.nodupKeys
  refine pairwise_map.mpr (hk.imp_of_mem fun {a b} ha hb hne => ?_)
  exact h a.1 a.2 b.1 b.2 (mem_lookup_iff.mpr ha) (mem_lookup_iff.mpr hb) hne

theorem length_filter_le_one {l : List V} {c : V → Bool}
    (h : l.Pairwise fun a b => ¬ (c a = true ∧ c b = true)) : (l.filter c).length ≤ 1 := by
  match hl : l.filter c with
  | [] => exact Nat.zero_le 1
  | [_] => exact le_rfl
  | a :: b :: rest =>
    have hp := h.filter c
    rw [hl] at hp
    have hm : ∀ x ∈ a :: b :: rest, c x = true := fun x hx => (mem_filter.mp (hl ▸ hx)).2
    exact absurd ⟨hm a (by simp), hm b (by simp)⟩ ((pairwise_cons.mp hp).1 b (by simp))

theorem lookup_retain {keep : K → V → Bool} :
    (retain keep m).lookup k = some v ↔ m.lookup k = some v ∧ keep k v = true := by
  have h := @mem_lookup_iff K (fun _ => V) _ k v (retain keep m)
  have h' := @mem_lookup_iff K (fun _ => V) _ k v m
  rw [mem_def] at h h'
  rw [h, h']
  exact mem_filter

theorem lookup_retain_eq {keep : K → V → Bool} :
    (retain keep m).lookup k = (m.lookup k).filter (keep k) := by
  ext v
  rw [lookup_retain, filter_eq_some_iff]

theorem lookup_mapValues {f : V → V} : (mapValues f m).lookup k = (m.lookup k).map f := by
  obtain ⟨es, hn⟩ := m
  change (es.map fun e => (⟨e.1, f e.2⟩ : Σ _ : K, V)).dlookup k = (es.dlookup k).map f
  induction es with
  | nil => rfl
  | cons e rest ih =>
    obtain ⟨key, value⟩ := e
    by_cases hk : k = key
    · subst hk
      rw [map_cons, dlookup_cons_eq, dlookup_cons_eq, map_some]
    · have hne : k ≠ (⟨key, value⟩ : Σ _ : K, V).1 := hk
      have hn' : k ≠ (⟨key, f value⟩ : Σ _ : K, V).1 := hk
      rw [map_cons, dlookup_cons_ne _ _ hn', dlookup_cons_ne _ _ hne]
      exact ih (nodupKeys_cons.mp hn).2

theorem lookup_foldl_insert {u : Map K V} {l : Map K V} :
    (u.entries.foldl (fun m e => m.insert e.1 e.2) l).lookup k = (u.lookup k).or (l.lookup k) := by
  obtain ⟨es, hn⟩ := u
  change _ = (es.dlookup k).or _
  induction es generalizing l with
  | nil => rfl
  | cons e rest ih =>
    obtain ⟨hf, hr⟩ := nodupKeys_cons.mp hn
    rw [foldl_cons, ih hr]
    by_cases hk : k = e.1
    · subst hk
      rw [dlookup_eq_none.mpr hf, lookup_insert, dlookup_cons_eq]
      rfl
    · rw [lookup_insert_ne hk, dlookup_cons_ne _ _ hk]

theorem countP_congr {a b : Map K V} (h : ∀ k, a.lookup k = b.lookup k)
    (test : (Σ _ : K, V) → Bool) : a.entries.countP test = b.entries.countP test := by
  refine (lookup_ext a.nodupKeys b.nodupKeys fun k v => ?_).countP_eq test
  exact iff_of_eq (congrArg (v ∈ ·) (h k))

/-- What one entry adds to a count. -/
theorem countP_erase (m : Map K V) (k : K) (test : (Σ _ : K, V) → Bool) :
    m.entries.countP test = (m.erase k).entries.countP test +
      if (m.lookup k).any (fun v => test ⟨k, v⟩) then 1 else 0 := by
  cases hk : m.lookup k with
  | none =>
    have hn : k ∉ m.entries.keys := dlookup_eq_none.mp hk
    change _ = (m.entries.kerase k).countP test + _
    rw [kerase_of_notMem_keys hn]
    rfl
  | some v =>
    have hin : k ∈ m.entries.keys := dlookup_isSome.mp (by
      rw [show m.entries.dlookup k = some v from hk]
      rfl)
    obtain ⟨v', before, after, hb, he, her⟩ := exists_of_kerase hin
    have hv : v' = v := by
      have hm : (⟨k, v'⟩ : Σ _ : K, V) ∈ m.entries := by
        rw [he]
        simp
      exact some.inj ((mem_lookup_iff.mpr hm).symm.trans hk)
    subst hv
    change _ = (m.entries.kerase k).countP test + _
    rw [her, he, countP_append, countP_append, countP_cons]
    simp only [any_some]
    omega

theorem countP_insert (m : Map K V) (k : K) (v : V) (test : (Σ _ : K, V) → Bool) :
    (m.insert k v).entries.countP test = (m.erase k).entries.countP test +
      if test ⟨k, v⟩ then 1 else 0 := by
  rw [entries_insert, countP_cons]
  rfl

theorem countP_insert_add (m : Map K V) (k : K) (v : V) (test : (Σ _ : K, V) → Bool) :
    (m.insert k v).entries.countP test + ((m.lookup k).any fun v => test ⟨k, v⟩).toNat =
      m.entries.countP test + (test ⟨k, v⟩).toNat := by
  have hb (b : Bool) : b.toNat = if b then 1 else 0 := by cases b <;> rfl
  rw [countP_insert, countP_erase m k test, hb, hb]
  omega

end Unordered

/-! ## The walk of a map sorted by key -/

section Ordered

variable {K V : Type} [LinearOrder K]

def ordered (m : Map K V) : List (Σ _ : K, V) :=
  m.entries.insertionSort fun a b => a.1 ≤ b.1

variable {m : Map K V} {k : K} {v : V}

theorem mem_ordered : (⟨k, v⟩ : Σ _ : K, V) ∈ ordered m ↔ m.lookup k = some v := by
  rw [ordered, (perm_insertionSort _ _).mem_iff, ← mem_def, mem_lookup_iff]

theorem pairwise_lt_insertionSort {α : Type} {f : α → K} {l : List α}
    (h : l.Pairwise fun a b => f a ≠ f b) :
    (l.insertionSort fun a b => f a ≤ f b).Pairwise fun a b => f a < f b := by
  have hle := pairwise_insertionSort (fun a b => f a ≤ f b) l
  have hne := (perm_insertionSort (fun a b => f a ≤ f b) l).pairwise_iff
    (fun hab => .symm hab) |>.mpr h
  exact (hle.and hne).imp fun ⟨hab, ha'⟩ => lt_of_le_of_ne hab ha'

theorem ordered_pairwise (m : Map K V) : (ordered m).Pairwise fun a b => a.1 < b.1 :=
  pairwise_lt_insertionSort (nodupKeys_iff_pairwise.mp m.nodupKeys)

theorem ordered_eq {l : List (Σ _ : K, V)}
    (hm : ∀ k v, (⟨k, v⟩ : Σ _ : K, V) ∈ l ↔ m.lookup k = some v)
    (hs : l.Pairwise fun a b => a.1 < b.1) : ordered m = l :=
  (ordered_pairwise m).eq_of_mem_iff hs fun e => mem_ordered.trans (hm e.1 e.2).symm

/-- Inserting above every key appends to the sorted walk. -/
theorem ordered_insert_of_lt (h : ∀ a ∈ m, a < k) :
    ordered (m.insert k v) = ordered m ++ [⟨k, v⟩] := by
  refine ordered_eq (fun a b => ?_) ?_
  · rw [mem_append, mem_ordered, mem_singleton]
    by_cases ha : a = k
    · subst ha
      have hk : m.lookup a = none := lookup_eq_none.mpr fun hk => lt_irrefl a (h a hk)
      simp [hk, eq_comm]
    · simp [ha]
  · refine pairwise_append.mpr ⟨ordered_pairwise m, pairwise_singleton _ _, ?_⟩
    intro a ha b hb
    rw [mem_singleton.mp hb]
    exact h a.1 (lookup_isSome.mp (by rw [mem_ordered.mp ha]; rfl))

/-- Overwriting a key changes that entry of the sorted walk and no other. -/
theorem ordered_insert_of_mem (h : k ∈ m) :
    ordered (m.insert k v) = (ordered m).map fun e => if e.1 = k then ⟨k, v⟩ else e := by
  have hk : ∀ e : (Σ _ : K, V), (if e.1 = k then (⟨k, v⟩ : Σ _ : K, V) else e).1 = e.1 := by
    intro e
    split
    · next he => exact he.symm
    · rfl
  refine ordered_eq (fun a b => ?_) ?_
  · rw [List.mem_map]
    by_cases ha : a = k
    · subst ha
      rw [lookup_insert, some_inj]
      obtain ⟨old, hold⟩ := isSome_iff_exists.mp (lookup_isSome.mpr h)
      constructor
      · rintro ⟨e, _, heq⟩
        have hea : e.1 = a := by rw [← hk e, heq]
        rw [if_pos hea] at heq
        cases heq
        rfl
      · rintro rfl
        exact ⟨⟨a, old⟩, mem_ordered.mpr hold, if_pos rfl⟩
    · rw [lookup_insert_ne ha]
      constructor
      · rintro ⟨e, he, heq⟩
        have hea : e.1 = a := by rw [← hk e, heq]
        rw [if_neg (hea ▸ ha)] at heq
        exact mem_ordered.mp (heq ▸ he)
      · intro hl
        exact ⟨⟨a, b⟩, mem_ordered.mpr hl, if_neg ha⟩
  · refine pairwise_map.mpr ((ordered_pairwise m).imp fun {a b} hab => ?_)
    rw [hk, hk]
    exact hab

end Ordered

end FiniteMap
