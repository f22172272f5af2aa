import Cyclops.Lib.FiniteMap
import Cyclops.Lib.Runs
import Cyclops.Session.Slots

/-!
# The record of session identities

A live session gets a durable id once.
-/

namespace Cyclops.SessionStore

open List FiniteMap Session

/-- A binding that contradicts another one. -/
inductive BindError where
  | keyTaken (id : SessionInstanceId)
  | idTaken (key : String)

/-- An id that was there, or a new one. -/
inductive Resolved where
  | existing (id : SessionInstanceId)
  | minted (id : SessionInstanceId)

structure SessionIdentityRegistry where
  byKey : Map String SessionInstanceId := ∅
  byId : Map SessionInstanceId String := ∅

namespace SessionIdentityRegistry

variable (reg : SessionIdentityRegistry)

def assign (key : String) (id : SessionInstanceId) : SessionIdentityRegistry :=
  ⟨reg.byKey.insert key id, reg.byId.insert id key⟩

/-- `mint` is the id that is minted if the key has none. -/
def resolve (key : String) (mint : SessionInstanceId) :
    Except BindError (Resolved × SessionIdentityRegistry) :=
  match reg.byKey.lookup key with
  | some id => .ok (.existing id, reg)
  | none =>
    match reg.byId.lookup mint with
    | some bound => .error (.idTaken bound)
    | none => .ok (.minted mint, reg.assign key mint)

def bind (binding : SessionIdentityBinding) : Except BindError SessionIdentityRegistry :=
  let key := binding.liveSessionKey
  let id := binding.sessionInstanceId
  match (reg.byKey.lookup key).filter (· ≠ id), (reg.byId.lookup id).filter (· ≠ key) with
  | some bound, _ => .error (.keyTaken bound)
  | none, some bound => .error (.idTaken bound)
  | none, none => .ok (reg.assign key id)

def bindings : List SessionIdentityBinding :=
  (reg.byId.entries.map fun entry => ⟨entry.2, entry.1⟩).mergeSort
    fun a b => a.sessionInstanceId.id.uuid ≤ b.sessionInstanceId.id.uuid

end SessionIdentityRegistry

/-- A line of the record is a binding; there may be no record yet. -/
def openRecord (record : Option (List SessionIdentityBinding)) :
    Except BindError SessionIdentityRegistry :=
  (record.getD []).foldlM SessionIdentityRegistry.bind {}

/-- `live` is `none` in a daemon that refused its record. `returned` are the answers of all
daemons so far. -/
structure SessionIdentities where
  record : Option (List SessionIdentityBinding) := none
  live : Option SessionIdentityRegistry := some {}
  returned : List SessionIdentityBinding := []

/-- A write that fails may have become visible. -/
inductive Save where
  | done
  | failed (visible : Bool)

/-- A lookup, or a new start. -/
inductive IdentityEvent where
  | resolve (key : String) (mint : SessionInstanceId) (save : Save)
  | restart

namespace SessionIdentities

def step (s : SessionIdentities) : IdentityEvent → SessionIdentities
  | .restart => { s with live := (openRecord s.record).toOption }
  | .resolve key mint save =>
    match s.live with
    | none => s
    | some live =>
      match live.resolve key mint, save with
      | .error _, _ => s
      | .ok (.existing id, _), _ => { s with returned := ⟨key, id⟩ :: s.returned }
      | .ok (.minted id, candidate), .done =>
        ⟨some candidate.bindings, some candidate, ⟨key, id⟩ :: s.returned⟩
      | .ok (.minted _, candidate), .failed visible =>
        { s with record := if visible then some candidate.bindings else s.record }

end SessionIdentities

namespace SessionIdentityRegistry

def Assigns (reg : SessionIdentityRegistry) (key : String) (id : SessionInstanceId) : Prop :=
  reg.byKey.lookup key = some id

def Bijective (reg : SessionIdentityRegistry) : Prop :=
  ∀ key id, reg.Assigns key id ↔ reg.byId.lookup id = some key

variable {reg r : SessionIdentityRegistry} {k k' : String} {i i' : SessionInstanceId}

theorem Bijective.eq_iff (h : reg.Bijective) (hk : reg.Assigns k i) (hk' : reg.Assigns k' i') :
    k = k' ↔ i = i' := by
  constructor
  · rintro rfl
    exact Option.some_inj.mp (hk.symm.trans hk')
  · rintro rfl
    exact Option.some_inj.mp (((h k i).mp hk).symm.trans ((h k' i).mp hk'))

section Assign

variable (h : reg.Bijective) (ha : ∀ k' i', reg.Assigns k' i' → (k' = k ↔ i' = i))
include ha

theorem assigns_assign : (reg.assign k i).Assigns k' i' ↔ reg.Assigns k' i' ∨ k' = k ∧ i' = i := by
  rw [Assigns, assign, lookup_insert_ite]
  split <;> grind [Assigns]

include h

theorem Bijective.assign : (reg.assign k i).Bijective := by
  intro k' i'
  rw [assigns_assign ha, SessionIdentityRegistry.assign, lookup_insert_ite]
  split <;> grind [Bijective]

theorem bind_eq : reg.bind ⟨k, i⟩ = .ok (reg.assign k i) := by
  have hk : (reg.byKey.lookup k).filter (· ≠ i) = none := by
    simpa using fun j (hj : reg.byKey.lookup k = some j) => (ha k j hj).mp rfl
  have hi : (reg.byId.lookup i).filter (· ≠ k) = none := by
    simpa using fun l hl => (ha l i ((h l i).mpr hl)).mpr rfl
  simp only [bind, hk, hi]

end Assign

theorem mem_bindings (h : reg.Bijective) : ⟨k, i⟩ ∈ reg.bindings ↔ reg.Assigns k i := by
  rw [bindings, mem_mergeSort, mem_map, h k i, ← Option.mem_def, AList.mem_lookup_iff]
  constructor
  · rintro ⟨e, he, ⟨⟩⟩
    exact he
  · exact fun he => ⟨_, he, rfl⟩

theorem bind_run (h : reg.Bijective) {bs : List SessionIdentityBinding}
    (hbs : ∀ k i, ⟨k, i⟩ ∈ bs → reg.Assigns k i) (hr : r.Bijective)
    (hle : ∀ k i, r.Assigns k i → reg.Assigns k i) : ∃ r', bs.foldlM bind r = .ok r' ∧
      r'.Bijective ∧ ∀ k i, r'.Assigns k i ↔ r.Assigns k i ∨ ⟨k, i⟩ ∈ bs := by
  induction bs generalizing r with
  | nil => exact ⟨r, rfl, hr, by simp⟩
  | cons b bs ih =>
    have hb := hbs _ _ mem_cons_self
    have ha k i (hk : r.Assigns k i) := h.eq_iff (hle k i hk) hb
    obtain ⟨r', hr', hbij, hiff⟩ := ih (fun k i hm => hbs k i (mem_cons_of_mem b hm))
      (hr.assign ha) fun k i hk => ((assigns_assign ha).mp hk).elim (hle k i)
        (by rintro ⟨rfl, rfl⟩; exact hb)
    refine ⟨r', ?_, hbij, fun k i => ?_⟩
    · rw [foldlM_cons, bind_eq hr ha]
      exact hr'
    · rw [hiff, assigns_assign ha, mem_cons, or_assoc, ← SessionIdentityBinding.mk.injEq]

end SessionIdentityRegistry

open SessionIdentityRegistry

theorem bijective_empty : Bijective {} :=
  fun _ _ => ⟨nofun, nofun⟩

theorem openRecord_bindings {reg : SessionIdentityRegistry} (h : reg.Bijective) :
    ∃ stored, openRecord (some reg.bindings) = .ok stored ∧ stored.Bijective ∧
      ∀ k i, stored.Assigns k i ↔ reg.Assigns k i := by
  obtain ⟨r, hr, hbij, hiff⟩ :=
    bind_run h (fun _ _ => (mem_bindings h).mp) bijective_empty (fun _ _ => nofun)
  refine ⟨r, hr, hbij, fun k i => ?_⟩
  rw [hiff, mem_bindings h]
  exact or_iff_right nofun

/-- The record is accepted and has every assignment of the memory, and the memory every answer. -/
def Durable (s : SessionIdentities) : Prop :=
  ∃ live stored, s.live = some live ∧ openRecord s.record = .ok stored ∧ live.Bijective ∧
    stored.Bijective ∧ (∀ k i, live.Assigns k i → stored.Assigns k i) ∧
    ∀ b ∈ s.returned, live.Assigns b.liveSessionKey b.sessionInstanceId

theorem Durable.step {s : SessionIdentities} (h : Durable s) (event : IdentityEvent) :
    Durable (s.step event) := by
  obtain ⟨live, stored, hl, ho, hbij, hbij', hle, hret⟩ := h
  cases event with
  | restart =>
    refine ⟨stored, stored, ?_, ho, hbij', hbij', fun _ _ => id, fun b hb => hle _ _ (hret b hb)⟩
    rw [SessionIdentities.step, ho]
    rfl
  | resolve key mint save =>
    simp only [SessionIdentities.step, hl, resolve]
    cases hk : live.byKey.lookup key with
    | some id => exact ⟨live, stored, rfl, ho, hbij, hbij', hle, List.forall_mem_cons.mpr ⟨hk, hret⟩⟩
    | none =>
      cases hi : live.byId.lookup mint with
      | some bound => exact ⟨live, stored, hl, ho, hbij, hbij', hle, hret⟩
      | none =>
        have ha k i (hc : live.Assigns k i) : k = key ↔ i = mint := by
          constructor
          · rintro rfl
            exact absurd (hk.symm.trans hc) nofun
          · rintro rfl
            exact absurd (hi.symm.trans ((hbij k i).mp hc)) nofun
        obtain ⟨stored', ho', hbij'', hiff⟩ := openRecord_bindings (hbij.assign ha)
        have grows k i (hc : live.Assigns k i) : (live.assign key mint).Assigns k i :=
          (assigns_assign ha).mpr (.inl hc)
        cases save with
        | done =>
          exact ⟨_, stored', rfl, ho', hbij.assign ha, hbij'', fun k i => (hiff k i).mpr,
            List.forall_mem_cons.mpr ⟨(assigns_assign ha).mpr (.inr ⟨rfl, rfl⟩),
              fun c hc => grows _ _ (hret c hc)⟩⟩
        | failed visible =>
          cases visible with
          | false => exact ⟨live, stored, rfl, ho, hbij, hbij', hle, hret⟩
          | true => exact ⟨live, stored', rfl, ho', hbij, hbij'',
              fun k i hc => (hiff k i).mpr (grows k i hc), hret⟩

/-- A key is answered with one id only, an id for one key only, and the next start accepts the
record. -/
theorem identities_durable (events : List IdentityEvent) :
    let s := events.foldl SessionIdentities.step {}
    (∀ b ∈ s.returned, ∀ c ∈ s.returned, b.liveSessionKey = c.liveSessionKey ↔
      b.sessionInstanceId = c.sessionInstanceId) ∧ ∃ reg, openRecord s.record = .ok reg := by
  have start : Durable {} :=
    ⟨{}, {}, rfl, rfl, bijective_empty, bijective_empty, fun _ _ => id, nofun⟩
  obtain ⟨live, stored, -, ho, hbij, -, -, hret⟩ :=
    Runs.foldl_invariant Durable (fun _ event h => h.step event) start
  exact ⟨fun b hb c hc => hbij.eq_iff (hret b hb) (hret c hc), stored, ho⟩

end Cyclops.SessionStore
