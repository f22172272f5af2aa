import Cyclops.Fusion.Observe
import Cyclops.Lib.Runs

/-!
# The barrier of a pane

A pane's barrier is the hold on its composer, the delivery that owns it and the turn it waits on.
-/

namespace Cyclops.Fusion

open Option DetEntry

open Cyclops.Identity (ProcId)

structure EntryKey where
  agent : Option ProcId
  manifest : Option String
deriving DecidableEq

structure Barrier where
  hold : ComposerHold := .clear
  owner : Option String := none
  turn : Option TurnKey := none
deriving DecidableEq

namespace DetEntry

def key (e : DetEntry) : EntryKey :=
  ⟨e.agent, e.manifest⟩

def barrier (e : DetEntry) : Barrier :=
  ⟨e.hold, e.holdOwner, e.turn⟩

def Tidy (e : DetEntry) : Prop :=
  e.hold = .clear → e.barrier = {}

theorem Tidy.of_barrier {e e' : DetEntry} (ht : e.Tidy) (hs : e'.barrier = e.barrier) : e'.Tidy :=
  fun clear => hs.trans (ht ((congrArg Barrier.hold hs).symm.trans clear))

end DetEntry

/-! ## Events -/

/-- What a delivery does to the hold it owns; `latch_turn_started` latches a started turn. -/
inductive HoldChange where
  | turnStarted (sinceMs : Nat)
  | same

def HoldChange.apply : HoldChange → ComposerHold → Option ComposerHold
  | .turnStarted since, hold => if hold.isWaiting then some (.turnStarted since) else none
  | .same, hold => some hold

/-- What moves a pane's barrier. -/
inductive HoldEvent where
  | observe (o : Observation)
  | missing
  | claimHold (owner : String) (agent : Option ProcId) (manifest : Option String)
  | setHoldOwned (owner : String) (change : HoldChange)
  | bindTurn (owner : String) (turn : TurnKey) (sinceMs : Nat)
  | releaseUnwrittenHold (owner : String) (agent : ProcId) (manifest : String)
  | clearHoldOwner (owner : String)
  | recordEnd (agent : ProcId) (manifest : String) (turn : TurnKey)

def PaneState.step (s : PaneState) : HoldEvent → PaneState
  | .observe o => o.observe s
  | .missing => s.observeMissing
  | .claimHold owner agent manifest => (s.claimHold owner agent manifest).2
  | .setHoldOwned owner change => (s.setHoldOwned owner change.apply).2
  | .bindTurn owner turn since => (s.bindTurn owner turn since).2
  | .releaseUnwrittenHold owner agent manifest => (s.releaseUnwrittenHold owner agent manifest).2
  | .clearHoldOwner owner => (s.clearHoldOwner owner).2
  | .recordEnd agent manifest turn => s.recordEnd agent manifest turn

/-! ## Observations -/

namespace Observation

variable (o : Observation)

def key : EntryKey :=
  ⟨o.admitted, o.manifestId⟩

def livingInMode : Bool :=
  !o.row.dead && o.row.inMode

def carriedBarrier (prior : Option DetEntry) : Barrier :=
  ((o.carried prior).map barrier).getD {}

variable {o} {s : PaneState}

theorem admitted_of_unobservable (hu : o.unobservable = true) : o.admitted = none := by
  have unprovable : o.binding = .unprovable := of_decide_eq_true hu
  simp [admitted, unprovable, BindingObservation.binding?]

structure Settles (o : Observation) (s s' : PaneState) (e' : DetEntry) : Prop where
  entry : s'.entry = some e'
  unfrozen : o.frozen s.entry = none
  key : e'.key = o.key
  hold : e'.hold = (settleTurn s.ends o.admitted o.manifestId (o.carriedBarrier s.entry).turn
    (o.baseHold s.entry) o.verdict).hold
  turn : e'.turn = if e'.hold.isTurnStarted then (o.carriedBarrier s.entry).turn else none
  owner : e'.holdOwner = if e'.hold = .clear then none else (o.carriedBarrier s.entry).owner
  ends : s'.ends = (settleTurn s.ends o.admitted o.manifestId (o.carriedBarrier s.entry).turn
    (o.baseHold s.entry) o.verdict).ends

theorem carriedBarrier_turn (p : Option DetEntry) :
    (o.carriedBarrier p).turn = (o.carried p).bind turn := by
  unfold carriedBarrier
  cases o.carried p <;> rfl

theorem carriedBarrier_owner (p : Option DetEntry) :
    (o.carriedBarrier p).owner = (o.carried p).bind holdOwner := by
  unfold carriedBarrier
  cases o.carried p <;> rfl

def Kept (s s' : PaneState) (e e' : DetEntry) : Prop :=
  s.entry = some e ∧ s'.entry = some e' ∧ e'.key = e.key ∧ e'.barrier = e.barrier ∧
    s'.ends = s.ends

theorem settle_cases (o : Observation) (s : PaneState) :
    (∃ e e', o.frozen s.entry = some e ∧ Kept s (o.settle s) e e') ∨
      ∃ e', Settles o s (o.settle s) e' := by
  cases frozen : o.frozen s.entry with
  | some e =>
    left
    have prior : s.entry = some e := by
      unfold Observation.frozen at frozen
      split_ifs at frozen
      exact frozen
    refine ⟨e, { e with
      detection := (o.verdict.stamped o.row.inMode e.hold).occupantUnprovable
      inMode := o.row.inMode }, rfl, prior, ?_, rfl, rfl, ?_⟩ <;> simp only [settle, frozen]
  | none =>
    right
    refine ⟨_, by simp only [settle, frozen]; rfl, frozen, rfl, ?_, ?_, ?_, ?_⟩
    · simp only [carriedBarrier_turn]
    · simp only [carriedBarrier_turn]
    · simp only [carriedBarrier_owner]
    · simp only [settle, frozen, carriedBarrier_turn]

/-- What an observation can do to a pane. -/
theorem observe_cases (o : Observation) (s : PaneState) : (∃ e e', Kept s (o.observe s) e e') ∨
    (∃ e e', o.livingInMode = true ∧ o.unobservable = false ∧ s.entry = some e ∧
      (o.observe s).entry = some e' ∧ e'.key = o.key ∧ e'.barrier = e.barrier ∧
      (o.observe s).ends = s.ends) ∨
    (∃ e', o.livingInMode = true ∧ s.entry = none ∧ (o.observe s).entry = some e' ∧
      e'.key = o.key ∧ e'.barrier = {} ∧ (o.observe s).ends = s.ends) ∨
    (o.livingInMode = false ∧ ∃ e', Settles o s (o.observe s) e') := by
  have hs : (∃ e e', Kept s (o.settle s) e e') ∨ ∃ e', Settles o s (o.settle s) e' :=
    (settle_cases o s).imp_left fun ⟨e, e', _, hk⟩ => ⟨e, e', hk⟩
  by_cases inMode : o.livingInMode = true
  · have hm : o.observe s = { s with entry := some (o.observeInMode s.entry) } := by
      simp only [livingInMode] at inMode
      simp [observe, inMode]
    rw [hm]
    cases prior : s.entry with
    | none => exact .inr (.inr (.inl ⟨_, inMode, rfl, rfl, rfl, rfl, rfl⟩))
    | some e =>
      cases hu : o.unobservable with
      | true =>
        refine .inl ⟨e, _, prior, rfl, ?_, ?_, rfl⟩ <;> simp [observeInMode, hu] <;> rfl
      | false =>
        refine .inr (.inl ⟨e, _, inMode, rfl, rfl, rfl, ?_, ?_, rfl⟩) <;>
          simp [observeInMode, hu] <;> rfl
  · have outOfMode : o.livingInMode = false := by simpa using inMode
    have cases : (∃ e e', Kept s (o.observe s) e e') ∨ ∃ e', Settles o s (o.observe s) e' := by
      simp only [livingInMode] at outOfMode
      cases failed : !o.row.dead && o.captureFailed with
      | false =>
        rw [show o.observe s = o.settle s by simp [observe, outOfMode, failed]]
        exact hs
      | true =>
        cases hr : o.retainStale s.entry with
        | none =>
          rw [show o.observe s = o.settle s by simp [observe, outOfMode, hr]]
          exact hs
        | some e' =>
          rw [show o.observe s = { s with entry := some e' } by
            simp [observe, outOfMode, failed, hr]]
          simp only [retainStale, map_eq_some_iff, filter_eq_some_iff] at hr
          obtain ⟨e, ⟨prior, -⟩, rfl⟩ := hr
          exact .inl ⟨e, _, prior, rfl, rfl, rfl, rfl⟩
    rcases cases with hk | hse
    · exact .inl hk
    · exact .inr (.inr (.inr ⟨outOfMode, hse⟩))

theorem Settles.tidy {s' : PaneState} {e' : DetEntry} (hs : Settles o s s' e') : e'.Tidy := by
  intro clear
  have turn := hs.turn
  have owner := hs.owner
  simp only [barrier, clear, turn, owner]
  rfl

/-! ### The carried entry -/

theorem carried_of_admitted {ag : ProcId} (ha : o.admitted = some ag) (p : Option DetEntry) :
    o.carried p = p.filter fun e => decide (e.key = o.key) := by
  simp only [carried, composerHoldCarriedEntry]
  congr 1
  funext e
  simp [DetEntry.key, key, ha]

theorem carried_of_unadmitted (nobody : o.admitted = none) {p : Option DetEntry}
    (hu : o.frozen p = none) : o.carried p = none := by
  cases p with
  | none => rfl
  | some e =>
    simp only [carried, composerHoldCarriedEntry, nobody, filter_eq_none_iff]
    intro e' hs held
    obtain rfl : e = e' := by simpa using hs
    simp only [isSome_none, Bool.false_and,
      Bool.false_or, Bool.and_eq_true] at held
    simp [frozen, identityUnproven, nobody, held] at hu

end Observation

/-! ## Operations -/

namespace PaneState

variable {s : PaneState}

theorem claimHold_cases (owner : String) (ag : Option ProcId) (mf : Option String) :
    (s.claimHold owner ag mf).2 = s ∨
      ∃ e, s.entry = some e ∧ (e.holdOwner = none ∨ e.holdOwner = some owner) ∧
        (s.claimHold owner ag mf).2 =
          { s with entry := some (restamp { e with holdOwner := some owner, hold := .staged }) } := by
  unfold claimHold
  cases hp : s.entry with
  | none => exact .inl rfl
  | some e =>
    dsimp only
    split_ifs with free
    · refine .inr ⟨e, rfl, ?_, rfl⟩
      cases ho : e.holdOwner with
      | none => exact .inl rfl
      | some =>
        cases holding : e.hold <;> simp_all
    · exact .inl rfl

theorem setHoldOwned_cases (owner : String) (change : HoldChange) :
    (s.setHoldOwned owner change.apply).2 = s ∨
      ∃ e since, s.entry = some e ∧ e.holdOwner = some owner ∧
        (s.setHoldOwned owner change.apply).2 =
          { s with entry := some (restamp { e with hold := .turnStarted since }) } := by
  unfold setHoldOwned
  cases hp : s.entry with
  | none => exact .inl rfl
  | some e =>
    cases change with
    | same => left; simp only [HoldChange.apply]; split_ifs <;> rfl
    | turnStarted since =>
      by_cases own : e.holdOwner = some owner
      · by_cases waiting : e.hold.isWaiting = true
        · have hm : ComposerHold.turnStarted since ≠ e.hold := by
            intro same
            rw [← same] at waiting
            cases waiting
          exact .inr ⟨e, since, rfl, own, by simp [HoldChange.apply, own, waiting, hm]⟩
        · exact .inl (by simp [HoldChange.apply, own, waiting])
      · exact .inl (by simp [own])

/-- A turn is bound by the owner of a hold that waits on no other turn, once the pin is
taken. -/
theorem bindTurn_cases (owner : String) (turn : TurnKey) (since : Nat) :
    ((s.bindTurn owner turn since).2 = s ∧ (s.bindTurn owner turn since).1 = none) ∨
      ∃ e agent manifest, s.entry = some e ∧ e.agent = some agent ∧
        e.manifest = some manifest ∧ e.holdOwner = some owner ∧
        (e.turn = none ∨ e.turn = some turn) ∧
        (((s.bindTurn owner turn since).1 = none ∧ (s.ends.pin agent manifest turn).1 = false ∧
          (s.bindTurn owner turn since).2 = { s with ends := (s.ends.pin agent manifest turn).2 }) ∨
        ((s.bindTurn owner turn since).1.isSome ∧ (s.ends.pin agent manifest turn).1 = true ∧
          (s.bindTurn owner turn since).2 =
            { entry := some (restamp { e with
                turn := some turn
                hold := if e.hold.isWaiting then .turnStarted since else e.hold })
              ends := (s.ends.pin agent manifest turn).2 })) := by
  unfold bindTurn
  cases hpr : s.entry with
  | none => exact .inl ⟨rfl, rfl⟩
  | some e =>
    cases agent : e.agent with
    | none => simp [agent]
    | some agent' =>
      cases manifest : e.manifest with
      | none => simp [manifest]
      | some manifest' =>
        by_cases other : (e.holdOwner ≠ some owner || e.turn.any (· ≠ turn)) = true
        · simp only [agent, manifest, other, if_true]
          exact .inl ⟨trivial, trivial⟩
        · simp only [agent, manifest, other]
          simp only [Bool.or_eq_true, decide_eq_true_eq, not_or, not_not,
            any_eq_true] at other
          refine .inr ⟨e, agent', manifest', rfl, agent, manifest, other.1, ?_, ?_⟩
          · cases bound : e.turn with
            | none => exact .inl rfl
            | some t =>
              right
              by_contra hd
              exact other.2 ⟨t, bound, by simpa using hd⟩
          · cases hp : s.ends.pin agent' manifest' turn with
            | mk taken => cases taken <;> simp [agent, manifest]

theorem releaseUnwrittenHold_cases (owner : String) (ag : ProcId) (mf : String) :
    (s.releaseUnwrittenHold owner ag mf).2 = s ∨ ∃ e, s.entry = some e ∧ e.holdOwner = some owner ∧
        (s.releaseUnwrittenHold owner ag mf).2 =
          { s with entry := some (restamp { e with hold := .clear, holdOwner := none }) } := by
  unfold releaseUnwrittenHold
  cases hp : s.entry with
  | none => exact .inl rfl
  | some e =>
    dsimp only
    split_ifs with ho
    · simp only [Bool.and_eq_true, decide_eq_true_eq] at ho
      exact .inr ⟨e, rfl, ho.1.1.2, rfl⟩
    · exact .inl rfl

theorem clearHoldOwner_cases (owner : String) : (s.clearHoldOwner owner).2 = s ∨
      ∃ e, s.entry = some e ∧ e.holdOwner = some owner ∧ (s.clearHoldOwner owner).2 = { s with
          entry := some (restamp { e with hold := .clear, holdOwner := none, turn := none }) } := by
  unfold clearHoldOwner
  cases hp : s.entry with
  | none => exact .inl rfl
  | some e =>
    dsimp only
    split_ifs with ho
    · exact .inl rfl
    · exact .inr ⟨e, rfl, not_not.mp ho, rfl⟩

end PaneState

end Cyclops.Fusion
