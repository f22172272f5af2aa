import Cyclops.Identity.Origin

/-!
# The agent a process works for

The first vendor at or above a process, below the root of its pane.

Result: `vendor_ancestor_spec`.
-/

namespace Cyclops.Identity

open Trails ProcessTable List

/-- The answer of the two walks. -/
inductive VendorAncestor (T : Type) where
  | vendor (found : T)
  | notVendor
  | unprovable

section Walks

variable {T : Type} (parent : ProcId → Option ProcId)

def reachesWalk (target root : ProcId) : Nat → ProcId → List ProcId → Bool → Bool
  | 0, _, _, _ => false
  | hops + 1, current, seen, sawTarget =>
    if current.pid ≤ 0 ∨ current ∈ seen then false
    else
      let sawTarget := sawTarget || current = target
      if current = root then sawTarget
      else
        match parent current with
        | some next => reachesWalk target root hops next (seen ++ [current]) sawTarget
        | none => false

/-- Is `target` on the chain from `start` up to `root`, with `root` still at the top? -/
def reaches (start target root : ProcId) : Bool :=
  reachesWalk parent target root maxAncestryDepth start [] false

def vendorWalk (start root : ProcId) (classify : ProcId → Option T) :
    Nat → ProcId → List ProcId → Option T
  | 0, _, _ => none
  | hops + 1, current, seen =>
    if current.pid ≤ 0 ∨ current ∈ seen then none
    else
      match classify current with
      | some found => if reaches parent start current root then some found else none
      | none =>
        if current = root then none
        else
          match parent current with
          | some next => vendorWalk start root classify hops next (seen ++ [current])
          | none => none

def vendorAncestorWith (start root : ProcId) (classify : ProcId → Option T) : Option T :=
  vendorWalk parent start root classify maxAncestryDepth start []

def observedWalk (start root : ProcId) (classify : ProcId → VendorAncestor T) :
    Nat → ProcId → List ProcId → VendorAncestor T
  | 0, _, _ => .unprovable
  | hops + 1, current, seen =>
    if current.pid ≤ 0 ∨ current ∈ seen then .unprovable
    else
      match classify current with
      | .vendor found => if reaches parent start current root then .vendor found else .unprovable
      | .unprovable => .unprovable
      | .notVendor =>
        if current = root then if reaches parent start root root then .notVendor else .unprovable
        else
          match parent current with
          | none => .unprovable
          | some next => observedWalk start root classify hops next (seen ++ [current])

def vendorAncestorObservedWith (start root : ProcId) (classify : ProcId → VendorAncestor T) :
    VendorAncestor T :=
  observedWalk parent start root classify maxAncestryDepth start []

end Walks

section Table

variable {T : Type} (table : ProcessTable)

def ProcessTable.parentIdent (child : ProcId) : Option ProcId :=
  if table.procId child.pid ≠ some child then none
  else (table.parentOf child.pid).bind table.procId

def vendorAncestor (pid root : Int) (classify : Int → Option T) : Option T :=
  match table.procId pid, table.procId root with
  | some start, some root => vendorAncestorWith table.parentIdent start root fun p => classify p.pid
  | _, _ => none

def vendorAncestorObserved (pid root : Int) (classify : Int → VendorAncestor T) :
    VendorAncestor T :=
  match table.procId pid, table.procId root with
  | some start, some root =>
    vendorAncestorObservedWith table.parentIdent start root fun p => classify p.pid
  | _, _ => .unprovable

end Table

/-! ## The chain to the root -/

variable {parent : ProcId → Option ProcId} {start root t c : ProcId} {hops : Nat}
  {seen path : List ProcId} {T : Type}

/-- One step up, not beyond the root. -/
def below (parent : ProcId → Option ProcId) (root process : ProcId) : Option ProcId :=
  if process = root then none else parent process

structure ToRoot (parent : ProcId → Option ProcId) (start root : ProcId) (path : List ProcId) :
    Prop where
  trail : Trail (below parent root) start path
  short : path.length ≤ maxAncestryDepth
  top : root ∈ path

theorem toRoot_iff : ToRoot parent start root path ↔
    walk (below parent root) maxAncestryDepth start [] = some path ∧ root ∈ path := by
  rw [walk_eq_some]
  exact ⟨fun h => ⟨⟨h.trail, h.short, fun _ _ => not_mem_nil⟩, h.top⟩,
    fun ⟨⟨ht, hs, _⟩, hto⟩ => ⟨ht, hs, hto⟩⟩

section

variable (hpos : ∀ child next, parent child = some next → 0 < next.pid)

include hpos

theorem reachesWalk_eq {saw : Bool} (hc : 0 < c.pid) : reachesWalk parent t root hops c seen saw =
      (walk (below parent root) hops c seen).any fun path =>
        root ∈ path ∧ (saw = true ∨ t ∈ path) := by
  induction hops generalizing c seen saw with
  | zero => rfl
  | succ hops ih =>
    rw [reachesWalk, walk]
    by_cases hs : c ∈ seen
    · simp [hs]
    rw [if_neg (by simp [hs, hc]), if_neg hs, below]
    by_cases hr : c = root
    · simp [hr, @eq_comm _ t]
    rw [if_neg hr, if_neg hr]
    cases hp : parent c with
    | none => simp [Ne.symm hr]
    | some next =>
      dsimp only
      rw [ih (hpos _ _ hp), Option.any_map]
      simp [Ne.symm hr, or_assoc, @eq_comm _ t]

variable (hstart : 0 < start.pid)

include hstart

theorem reaches_iff : reaches parent start t root = true ↔
    ∃ path, ToRoot parent start root path ∧ t ∈ path := by
  rw [reaches, reachesWalk_eq hpos hstart, Option.any_eq_true]
  simp [toRoot_iff, and_assoc]

omit hstart

/-- The first process that is not known to be no vendor decides. -/
def scan (classify : ProcId → VendorAncestor T) : List ProcId → VendorAncestor T
  | [] => .notVendor
  | first :: rest =>
    match classify first with
    | .notVendor => scan classify rest
    | answer => answer

variable {classify : ProcId → VendorAncestor T} {f : T}

theorem observedWalk_eq_scan (hc : 0 < c.pid)
    (hw : walk (below parent root) hops c seen = some path) (ht : root ∈ path)
    (hr : ∀ process ∈ path, reaches parent start process root = true) :
    observedWalk parent start root classify hops c seen = scan classify path := by
  induction hops generalizing c seen path with
  | zero => cases hw
  | succ hops ih =>
    rw [walk, below] at hw
    split at hw
    · cases hw
    · next hs =>
      rw [observedWalk, if_neg (by simp [hs, hc])]
      by_cases hro : c = root
      · subst hro
        rw [if_pos rfl] at hw
        cases hw
        rw [scan]
        simp only [hr c mem_cons_self]
        cases classify c <;> rfl
      rw [if_neg hro] at hw
      cases hpa : parent c with
      | none =>
        rw [hpa] at hw
        cases hw
        exact absurd (mem_singleton.mp ht).symm hro
      | some next =>
        rw [hpa] at hw
        obtain ⟨rest, hre, rfl⟩ := Option.map_eq_some_iff.mp hw
        rw [scan, ← ih (hpos _ _ hpa) hre ((mem_cons.mp ht).resolve_left (Ne.symm hro))
          fun p hp => hr p (mem_cons_of_mem _ hp)]
        simp only [hr c mem_cons_self, if_neg hro]
        cases classify c <;> rfl

omit hpos

theorem observedWalk_unprovable (hr : ∀ t, reaches parent start t root = false) :
    observedWalk parent start root classify hops c seen = .unprovable := by
  induction hops generalizing c seen with
  | zero => rfl
  | succ hops ih =>
    unfold observedWalk
    simp only [hr, ih]
    split
    · rfl
    split
    · rfl
    · rfl
    split
    · rfl
    split <;> rfl

theorem vendorWalk_eq_some {classify : ProcId → Option T}
    (h : vendorWalk parent start root classify hops c seen = some f) :
    ∃ p, classify p = some f ∧ reaches parent start p root = true := by
  induction hops generalizing c seen with
  | zero => cases h
  | succ hops ih =>
    unfold vendorWalk at h
    split at h
    · cases h
    split at h
    · next f' hf =>
      split at h
      · next hr =>
        cases h
        exact ⟨c, hf, hr⟩
      · cases h
    split at h
    · cases h
    split at h
    · exact ih h
    · cases h

theorem scan_eq_vendor : scan classify path = .vendor f ↔
    ∃ b process above, path = b ++ process :: above ∧
      (∀ p ∈ b, classify p = .notVendor) ∧ classify process = .vendor f := by
  induction path with
  | nil => simp [scan]
  | cons first rest ih =>
    rw [scan]
    constructor
    · intro h
      cases hf : classify first with
      | vendor => exact ⟨[], first, rest, rfl, by simp, by simpa [hf] using h⟩
      | notVendor =>
        rw [hf] at h
        obtain ⟨b, process, above, rfl, hb, hfo⟩ := ih.mp h
        exact ⟨first :: b, process, above, rfl, forall_mem_cons.mpr ⟨hf, hb⟩, hfo⟩
      | unprovable => simp [hf] at h
    · rintro ⟨_ | ⟨_, b⟩, process, above, heq, hb, hfo⟩
      · cases heq
        rw [hfo]
      · cases heq
        rw [hb _ mem_cons_self]
        exact ih.mpr ⟨b, process, above, rfl, (forall_mem_cons.mp hb).2, hfo⟩

theorem scan_eq_notVendor :
    scan classify path = .notVendor ↔ ∀ p ∈ path, classify p = .notVendor := by
  induction path with
  | nil => simp [scan]
  | cons first rest ih =>
    rw [scan]
    cases hf : classify first <;> simp [hf, ih]

include hpos hstart in
theorem vendorAncestorObservedWith_eq_iff {ans : VendorAncestor T} (ha : ans ≠ .unprovable) :
    vendorAncestorObservedWith parent start root classify = ans ↔
      ∃ path, ToRoot parent start root path ∧ scan classify path = ans := by
  unfold vendorAncestorObservedWith
  by_cases hc : ∃ path, ToRoot parent start root path
  · obtain ⟨path, hpa⟩ := hc
    obtain ⟨hw, ht⟩ := toRoot_iff.mp hpa
    rw [observedWalk_eq_scan hpos hstart hw ht fun p hp =>
      (reaches_iff hpos hstart).mpr ⟨path, hpa, hp⟩]
    refine ⟨fun h => ⟨path, hpa, h⟩, fun ⟨path', hp', h⟩ => ?_⟩
    rwa [hpa.trail.unique hp'.trail]
  · rw [observedWalk_unprovable fun t => Bool.eq_false_iff.mpr fun h => ?_]
    · exact iff_of_false ha.symm fun ⟨path, hpa, _⟩ => hc ⟨path, hpa⟩
    · obtain ⟨path, hpa, -⟩ := (reaches_iff hpos hstart).mp h
      exact hc ⟨path, hpa⟩

end

/-! ## Two processes of a table -/

def ProcessTable.ChainTo (table : ProcessTable) (pid rootPid : Int) (path : List ProcId) : Prop :=
  ∃ start root, table.procId pid = some start ∧ table.procId rootPid = some root ∧
    ToRoot table.parentIdent start root path

theorem parentIdent_pos {table : ProcessTable} (child next : ProcId)
    (h : table.parentIdent child = some next) : 0 < next.pid := by
  unfold ProcessTable.parentIdent at h
  split at h
  · cases h
  · obtain ⟨ppid, -, hn⟩ := Option.bind_eq_some_iff.mp h
    obtain ⟨hp, hpos, -⟩ := procId_eq_some hn
    exact hp ▸ hpos

/-- The first vendor above a process is found exactly when the processes before it were read as
none; none is answered exactly when the whole chain has none. -/
theorem vendor_ancestor_spec {T : Type} (table : ProcessTable) (pid rootPid : Int) :
    (∀ (classify : Int → VendorAncestor T) found,
      vendorAncestorObserved table pid rootPid classify = .vendor found ↔
        ∃ path, table.ChainTo pid rootPid path ∧ ∃ before process above,
          path = before ++ process :: above ∧ (∀ p ∈ before, classify p.pid = .notVendor) ∧
            classify process.pid = .vendor found) ∧
    (∀ classify : Int → VendorAncestor T,
      vendorAncestorObserved table pid rootPid classify = .notVendor ↔
        ∃ path, table.ChainTo pid rootPid path ∧ ∀ p ∈ path, classify p.pid = .notVendor) ∧
    ∀ (classify : Int → Option T) found, vendorAncestor table pid rootPid classify = some found →
      ∃ path, table.ChainTo pid rootPid path ∧ ∃ process ∈ path, classify process.pid = some found := by
  unfold vendorAncestorObserved vendorAncestor ProcessTable.ChainTo
  cases hstart : table.procId pid with
  | none => simp
  | some start =>
    cases hro : table.procId rootPid with
    | none => simp
    | some root =>
      obtain ⟨hpi, hpos, -⟩ := procId_eq_some hstart
      have hs' : 0 < start.pid := hpi ▸ hpos
      simp only [Option.some.injEq, exists_and_left, exists_eq_left']
      refine ⟨fun classify found => ?_, fun classify => ?_, fun classify found h => ?_⟩
      · exact (vendorAncestorObservedWith_eq_iff parentIdent_pos hs' (by nofun)).trans
          (exists_congr fun path => and_congr_right fun _ => scan_eq_vendor)
      · exact (vendorAncestorObservedWith_eq_iff parentIdent_pos hs' (by nofun)).trans
          (exists_congr fun path => and_congr_right fun _ => scan_eq_notVendor)
      · obtain ⟨process, hf, hr⟩ := vendorWalk_eq_some h
        obtain ⟨path, hp, hm⟩ := (reaches_iff parentIdent_pos hs').mp hr
        exact ⟨path, hp, process, hm, hf⟩

end Cyclops.Identity
