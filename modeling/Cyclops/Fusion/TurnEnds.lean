import Cyclops.Identity.Ancestry

/-!
# The store of turn ends

The authenticated turn ends of one pane, with the turn an active hold is waiting on.
-/

namespace Cyclops.Fusion

open Cyclops.Identity (ProcId)

/-- The values a manifest's declared fields carry for one turn, in declared order. -/
structure TurnKey where
  fields : List String
deriving DecidableEq

/-- Authenticated turn ends for one pane, plus the turn an active hold is waiting on. -/
structure PaneEnds where
  agent : ProcId
  manifest : String
  /-- The turn an active hold is waiting on. Never evicted. -/
  pinned : Option TurnKey := none
  /-- The pinned turn whose missing end has already raised its one diagnostic. -/
  diagnosedMissingEnd : Option TurnKey := none
  seen : List TurnKey := []
  /-- Has this store ever discarded an end to stay bounded? -/
  lost : Bool := false

def endsCap : Nat := 16

abbrev Ends := Option PaneEnds

namespace PaneEnds

def boundTo (e : PaneEnds) (agent : ProcId) (manifest : String) : Bool :=
  e.agent = agent && e.manifest = manifest

def evictOne (e : PaneEnds) : Option PaneEnds :=
  (e.seen.findIdx? fun k => some k ≠ e.pinned).map fun pos =>
    { e with seen := e.seen.eraseIdx pos, lost := true }

def evict : Nat → PaneEnds → PaneEnds
  | 0, e => e
  | fuel + 1, e =>
    if e.seen.length > endsCap then
      match e.evictOne with
      | some e' => evict fuel e'
      | none => e
    else e

end PaneEnds

namespace Ends

def bound (ends : Ends) (agent : ProcId) (manifest : String) : PaneEnds :=
  match ends with
  | some e => if e.boundTo agent manifest then e else { agent, manifest }
  | none => { agent, manifest }

def record (ends : Ends) (agent : ProcId) (manifest : String) (turn : TurnKey) : Ends :=
  let entry := ends.bound agent manifest
  let entry :=
    if entry.seen.contains turn then entry else { entry with seen := entry.seen ++ [turn] }
  some (entry.evict entry.seen.length)

/-- Name the turn an active hold is waiting on; refused when another turn holds the
pin. -/
def pin (ends : Ends) (agent : ProcId) (manifest : String) (turn : TurnKey) : Bool × Ends :=
  let entry := ends.bound agent manifest
  match entry.pinned with
  | some held => (held = turn, some entry)
  | none => (true, some { entry with pinned := some turn, diagnosedMissingEnd := none })

/-- Reserve the one missing-end diagnostic for this exact pinned turn. -/
def reserveMissingEndDiagnostic (ends : Ends) (agent : ProcId) (manifest : String)
    (turn : TurnKey) : Bool × Ends :=
  match ends with
  | none => (false, ends)
  | some e =>
    if e.boundTo agent manifest && e.pinned = some turn && e.diagnosedMissingEnd ≠ some turn then
      (true, some { e with diagnosedMissingEnd := some turn })
    else (false, ends)

def holds (ends : Ends) (agent : ProcId) (manifest : String) (turn : TurnKey) : Bool :=
  ends.any fun e => e.boundTo agent manifest && e.seen.contains turn

def take (ends : Ends) (agent : ProcId) (manifest : String) (turn : TurnKey) : Bool × Ends :=
  match ends with
  | none => (false, ends)
  | some e =>
    if e.boundTo agent manifest && e.pinned = some turn && e.seen.contains turn then
      (true, some { e with seen := e.seen.erase turn, pinned := none, diagnosedMissingEnd := none })
    else (false, ends)

def evidenceLost (ends : Ends) (agent : ProcId) (manifest : String) : Bool :=
  ends.any fun e => e.boundTo agent manifest && e.lost

/-- Stop waiting on a turn whose end is not what released the hold. -/
def retire (ends : Ends) (agent : ProcId) (manifest : String) (turn : TurnKey) : Bool × Ends :=
  match ends with
  | none => (false, ends)
  | some e =>
    if e.boundTo agent manifest && e.pinned = some turn then
      (true, some { e with pinned := none, diagnosedMissingEnd := none, seen := e.seen.erase turn })
    else (false, ends)

def pinnedFor (ends : Ends) (agent : ProcId) (manifest : String) : Option TurnKey :=
  ends.bind fun e => if e.boundTo agent manifest then e.pinned else none

end Ends

/-! ## What moves a pin -/

theorem PaneEnds.evict_keeps (fuel : Nat) (e : PaneEnds) :
    (e.evict fuel).pinned = e.pinned ∧ (e.evict fuel).agent = e.agent ∧
      (e.evict fuel).manifest = e.manifest := by
  induction fuel generalizing e with
  | zero => exact ⟨rfl, rfl, rfl⟩
  | succ fuel ih =>
    unfold evict
    split
    · split
      next e' evicted =>
        simp only [evictOne, Option.map_eq_some_iff] at evicted
        obtain ⟨pos, -, rfl⟩ := evicted
        exact ih _
      next => exact ⟨rfl, rfl, rfl⟩
    · exact ⟨rfl, rfl, rfl⟩

namespace Ends

variable {ends : Ends} {ag : ProcId} {mf : String} {turn : TurnKey}

theorem pinnedFor_some (e : PaneEnds) :
    pinnedFor (some e) ag mf = if e.boundTo ag mf then e.pinned else none :=
  rfl

theorem bound_boundTo : (ends.bound ag mf).boundTo ag mf = true := by
  unfold bound
  split
  · split
    · assumption
    · simp [PaneEnds.boundTo]
  · simp [PaneEnds.boundTo]

theorem bound_pinned : (ends.bound ag mf).pinned = ends.pinnedFor ag mf := by
  cases ends with
  | none => rfl
  | some =>
    simp only [bound, pinnedFor_some]
    split <;> rfl

theorem pinnedFor_of_bound {e : PaneEnds} (hi : e.boundTo ag mf) :
    pinnedFor (some e) ag mf = e.pinned := by
  simp [pinnedFor_some, hi]

@[simp] theorem pinnedFor_record : (ends.record ag mf turn).pinnedFor ag mf =
      ends.pinnedFor ag mf := by
  have hi : (ends.bound ag mf).boundTo ag mf := bound_boundTo
  rw [← @bound_pinned ends]
  generalize bounded : ends.bound ag mf = entry at hi ⊢
  have ha : ∀ e : PaneEnds, e.pinned = entry.pinned → e.agent = entry.agent →
      e.manifest = entry.manifest →
      pinnedFor (some (e.evict e.seen.length)) ag mf = entry.pinned := by
    intro e hsa sameAgent hs
    obtain ⟨pinned, agent', manifest'⟩ := e.evict_keeps e.seen.length
    rw [pinnedFor_of_bound, pinned, hsa]
    simpa [PaneEnds.boundTo, agent', manifest', sameAgent, hs] using hi
  simp only [record, bounded]
  split
  · exact ha entry rfl rfl rfl
  · exact ha _ rfl rfl rfl

theorem pin_eq : ((ends.pin ag mf turn).1 = true ↔
        ∀ held, ends.pinnedFor ag mf = some held → held = turn) ∧
      (ends.pin ag mf turn).2.pinnedFor ag mf = some ((ends.pinnedFor ag mf).getD turn) := by
  have hi : (ends.bound ag mf).boundTo ag mf := bound_boundTo
  rw [← bound_pinned]
  unfold pin
  generalize ends.bound ag mf = e at hi ⊢
  cases hp : e.pinned with
  | some => simp [hp, pinnedFor_of_bound hi]
  | none =>
    simp only [hp]
    refine ⟨by simp, ?_⟩
    rw [pinnedFor_of_bound (by simpa [PaneEnds.boundTo] using hi)]
    rfl

theorem pinnedFor_take (pinned : ends.pinnedFor ag mf = some turn) (ended : ends.holds ag mf turn) :
    (ends.take ag mf turn).2.pinnedFor ag mf = none := by
  cases ends with
  | none => cases pinned
  | some =>
    simp only [holds, Option.any_some, Bool.and_eq_true, List.contains_iff_mem] at ended
    rw [pinnedFor_of_bound ended.1] at pinned
    simp [take, ended, pinned, pinnedFor_some]

theorem pinnedFor_retire (pinned : ends.pinnedFor ag mf = some turn) :
    (ends.retire ag mf turn).2.pinnedFor ag mf = none := by
  cases ends with
  | none => cases pinned
  | some e =>
    have inBinding : e.boundTo ag mf := by
      by_contra ho
      simp [pinnedFor_some, ho] at pinned
    rw [pinnedFor_of_bound inBinding] at pinned
    simp [retire, inBinding, pinned, pinnedFor_some]

theorem unpinned (hf : ends.pinnedFor ag mf = none) :
    (ends.take ag mf turn).2 = ends ∧ (ends.retire ag mf turn).2 = ends := by
  cases ends with
  | none => exact ⟨rfl, rfl⟩
  | some e =>
    by_cases hi : e.boundTo ag mf
    · rw [pinnedFor_of_bound hi] at hf
      simp [take, retire, hf]
    · simp [take, retire, hi]

@[simp] theorem pinnedFor_reserve :
    (ends.reserveMissingEndDiagnostic ag mf turn).2.pinnedFor ag mf = ends.pinnedFor ag mf := by
  cases ends with
  | none => rfl
  | some =>
    simp only [reserveMissingEndDiagnostic]
    split
    · simp [pinnedFor_some, PaneEnds.boundTo]
    · rfl

end Ends

end Cyclops.Fusion
