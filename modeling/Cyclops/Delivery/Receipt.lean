import Cyclops.Proto.State
import Cyclops.Lib.Progress

/-!
# The receipt wait

After the submit key the delivery task waits in `await_ack` for a receipt: the vendor's hook inside
the tier-1 window, then screen evidence at a ladder of checkpoints, until the give-up deadline.
-/

namespace Cyclops.Receipt

open List

/-! ## Steps of one pass -/

/-- What a look at the pane shows. -/
inductive Evidence where
  | confirmed
  | absent
  | unobservable
  | rebound
deriving DecidableEq

/-- What a checkpoint does with the evidence. -/
inductive CheckpointStep where
  | deliver | rebound | freeze | expire | wait

def checkpointStep (evidence : Evidence) (expired : Bool) : CheckpointStep :=
  match evidence with
  | .confirmed => .deliver
  | .rebound => .rebound
  | .unobservable => .freeze
  | .absent => if expired then .expire else .wait

/-- What a pass does after it has refreshed the pane. -/
inductive ReceiptRefresh where
  | observe | resolved | freeze | rebound

/-- Classify the stable fusion refresh that precedes every receipt check. -/
def receiptRefreshStep (watcherLive : Bool) (detection : Option Detection) (resolved : Bool) :
    ReceiptRefresh :=
  if resolved then .resolved
  else if !watcherLive then .freeze
  else match detection with
    | none => .rebound
    | some d =>
      if d.state = .dead then .rebound
      else if d.stale || d.writeBlock = some "pane_in_mode"
          || d.writeBlock = some "occupant_unprovable" then .freeze
      else .observe

/-- What a pass comes to. -/
inductive ReceiptStep where
  | resolved | deliver | rebound | freeze | expire | wait

/-- A receive on the pane stream that gave no event. -/
inductive RecvError where
  | closed
  | lagged

/-- Events of the pane stream. -/
inductive PaneEvent where
  | paneRemoved (id : String)
  | paneChanged (id : String) (dead : Bool)
  | outputActivity (id : String)
  | disconnected
  | other

/-- What an event of the pane stream asks for. -/
inductive ReceiptPaneStep where
  | ignore | recheck | rebound | freeze

def receiptPaneStep (event : Except RecvError PaneEvent) (paneId : String) (frozen : Bool) :
    ReceiptPaneStep :=
  match event with
  | .ok (.paneRemoved id) => if id = paneId then .rebound else .ignore
  | .ok (.paneChanged id dead) =>
    if id = paneId then (if dead then .rebound else .recheck) else .ignore
  | .ok (.outputActivity id) => if id = paneId ∧ frozen then .recheck else .ignore
  | .ok .disconnected | .error .closed => .freeze
  | .ok .other | .error .lagged => .ignore

/-! ## The clock -/

/-- Offsets of the tier-2 checkpoints from the submit key, in milliseconds. -/
def ackCheckpointsMs : List Nat :=
  [250, 750, 1500, 3000, 5000]

def screenAckDeadline : Nat :=
  5000

structure AckClock where
  /-- End of the tier-1 hook phase, until that phase ended. -/
  hookDeadline : Option Nat
  checkpoints : List Nat
  next : Nat
  deadline : Nat
  frozenAt : Option Nat

namespace AckClock

def new (submitAt : Nat) (hookWindow : Option Nat) : AckClock where
  hookDeadline := hookWindow.map (submitAt + ·)
  checkpoints := ackCheckpointsMs.map (submitAt + ·)
  next := 0
  deadline := submitAt + screenAckDeadline
  frozenAt := none

def frozen (clock : AckClock) : Bool :=
  clock.frozenAt.isSome

def freeze (clock : AckClock) (now : Nat) : AckClock :=
  match clock.frozenAt with
  | none => { clock with frozenAt := some now }
  | some _ => clock

/-- Shift every remaining instant by the time lost. -/
def unfreeze (clock : AckClock) (now : Nat) : Option AckClock :=
  match clock.frozenAt with
  | none => some clock
  | some since =>
    let lost := now - since
    if clock.next ≤ clock.checkpoints.length then
      some { clock with
          hookDeadline := clock.hookDeadline.map (· + lost)
          checkpoints := clock.checkpoints.take clock.next
            ++ (clock.checkpoints.drop clock.next).map (· + lost)
          deadline := clock.deadline + lost
          frozenAt := none }
    else none

def nextTarget (clock : AckClock) : Option (Nat × Bool) :=
  if clock.frozen then none
  else match clock.hookDeadline with
    | some h => some (h, true)
    | none => some ((clock.checkpoints[clock.next]?).getD clock.deadline, false)

def passedCheckpoints (clock : AckClock) (now : Nat) : Nat :=
  ((clock.checkpoints.drop clock.next).takeWhile (· ≤ now)).length

/-- The tier-1 phase ended: one pass now, then the checkpoints it did not cover. -/
def endHookPhase (clock : AckClock) (now : Nat) : AckClock :=
  let next := clock.next + clock.passedCheckpoints now
  { clock with
    hookDeadline := none
    checkpoints := clock.checkpoints.insertIdx next now
    next }

def advanceCheckpoint (clock : AckClock) : AckClock :=
  { clock with next := clock.next + 1 }

def expired (clock : AckClock) (now : Nat) : Bool :=
  !clock.frozen && decide (clock.deadline ≤ now)

variable {c : AckClock} {now : Nat}

@[simp] theorem freeze_next : (c.freeze now).next = c.next := by
  unfold freeze
  cases h : c.frozenAt <;> simp

@[simp] theorem freeze_checkpoints : (c.freeze now).checkpoints = c.checkpoints := by
  unfold freeze
  cases h : c.frozenAt <;> simp

theorem unfreeze_of_running (hr : c.frozen = false) : c.unfreeze now = some c := by
  have hn : c.frozenAt = none := by simpa [frozen] using hr
  simp [unfreeze, hn]

theorem unfreeze_of_frozen {s : Nat} (hf : c.frozenAt = some s)
    (hb : c.next ≤ c.checkpoints.length) :
    c.unfreeze now = some { c with
        hookDeadline := c.hookDeadline.map (· + (now - s))
        checkpoints := c.checkpoints.take c.next ++ (c.checkpoints.drop c.next).map (· + (now - s))
        deadline := c.deadline + (now - s)
        frozenAt := none } := by
  simp only [unfreeze, hf]
  exact if_pos hb

theorem unfreeze_eq (hb : c.next ≤ c.checkpoints.length) :
    ∃ t, c.unfreeze now = some t ∧ t.frozen = false ∧
      t.next = c.next ∧ t.checkpoints.length = c.checkpoints.length := by
  cases h : c.frozenAt with
  | none =>
    have running : c.frozen = false := by simp [frozen, h]
    exact ⟨c, unfreeze_of_running running, running, rfl, rfl⟩
  | some =>
    refine ⟨_, unfreeze_of_frozen h hb, rfl, rfl, ?_⟩
    simp only [length_append, length_take, length_map, length_drop]
    omega

theorem passedCheckpoints_le : c.passedCheckpoints now ≤ c.checkpoints.length - c.next := by
  have hs : c.passedCheckpoints now ≤ (c.checkpoints.drop c.next).length :=
    (takeWhile_sublist _).length_le
  simpa using hs

theorem endHookPhase_length (hb : c.next ≤ c.checkpoints.length) :
    (c.endHookPhase now).checkpoints.length = c.checkpoints.length + 1 ∧
      (c.endHookPhase now).next ≤ c.checkpoints.length := by
  have hs := @passedCheckpoints_le c now
  have hi : c.next + c.passedCheckpoints now ≤ c.checkpoints.length := by omega
  exact ⟨length_insertIdx_of_le_length hi _, hi⟩

end AckClock

/-! ## One checkpoint pass -/

structure Pass where
  watcherLive : Bool
  detection : Option Detection
  sameWatcher : Bool
  resolved : Bool
  evidence : Evidence
  done : Nat

def receiptCheckpointPass (clock : AckClock) (pass : Pass) : ReceiptStep :=
  if !pass.watcherLive then .freeze
  else match receiptRefreshStep pass.sameWatcher pass.detection pass.resolved with
    | .resolved => .resolved
    | .freeze => .freeze
    | .rebound => .rebound
    | .observe =>
      match checkpointStep pass.evidence (clock.expired pass.done) with
      | .deliver => .deliver
      | .rebound => .rebound
      | .freeze => .freeze
      | .expire => .expire
      | .wait => .wait

@[mk_iff]
structure Pass.Steady (pass : Pass) : Prop where
  watcherLive : pass.watcherLive = true
  sameWatcher : pass.sameWatcher = true
  present : pass.detection.any (·.state ≠ .dead) = true
  notRebound : pass.evidence ≠ .rebound

instance (pass : Pass) : Decidable pass.Steady :=
  decidable_of_iff' _ (Pass.steady_iff pass)

/-- A pass over a steady pane ends the wait, unless the deadline is still ahead. -/
theorem receiptCheckpointPass_steady {clock : AckClock} {pass : Pass} (hs : pass.Steady) :
    receiptCheckpointPass clock pass = .freeze ∨ receiptCheckpointPass clock pass = .resolved ∨
      receiptCheckpointPass clock pass = .deliver ∨
      receiptCheckpointPass clock pass = .expire ∨
      (receiptCheckpointPass clock pass = .wait ∧ clock.expired pass.done = false) := by
  obtain ⟨d, present, alive⟩ : ∃ d, pass.detection = some d ∧ d.state ≠ .dead := by
    simpa [Option.any_eq_true] using hs.present
  have hr : receiptRefreshStep pass.sameWatcher pass.detection pass.resolved ≠ .rebound := by
    simp only [receiptRefreshStep, present]
    split_ifs <;> simp_all
  unfold receiptCheckpointPass
  rw [hs.watcherLive]
  cases hre : receiptRefreshStep pass.sameWatcher pass.detection pass.resolved with
  | resolved => simp
  | freeze => simp
  | rebound => exact absurd hre hr
  | observe =>
    cases he : pass.evidence with
    | confirmed | unobservable => simp [checkpointStep]
    | rebound => exact absurd he hs.notRebound
    | absent => cases hl : clock.expired pass.done <;> simp [checkpointStep]

/-! ## The wait -/

/-- What the wait returns. -/
inductive AckOutcome where
  | resolved
  | rebound
  | screen
  | timeout
deriving DecidableEq

/-- How the wait ends. -/
inductive AckEnd where
  | returned (outcome : AckOutcome)
  | panicked
deriving DecidableEq

structure WaitState where
  clock : AckClock
  attached : Bool
  ended : Option AckEnd := none

/-- Events of the daemon's own stream. -/
inductive DaemonEvent where
  | session
  | lagged
  | other

/-- The branch of the `select` that a turn takes, with what it finds. -/
inductive AckBranch where
  | idle
  | notified (resolved : Bool)
  | timer (pass : Pass)
  | event (ev : DaemonEvent) (live : Bool) (pass : Pass)
  | pane (ev : Except RecvError PaneEvent) (pass : Pass)

structure AckTurn where
  now : Nat
  resolved : Bool := false
  branch : AckBranch

/-- Whether a turn looks at the pane. -/
inductive AckMove where
  | stays (s : WaitState)
  | looks (s : WaitState) (pass : Pass)

namespace WaitState

/-- `await_ack` up to its loop. -/
def start (submitAt : Nat) (hookWindow : Option Nat) (attached : Bool) (now : Nat) :
    WaitState where
  clock :=
    let clock := AckClock.new submitAt hookWindow
    if attached then clock else clock.freeze now
  attached

def returns (s : WaitState) (outcome : AckOutcome) : WaitState :=
  { s with ended := some (.returned outcome) }

def thaw (s : WaitState) (now : Nat) (then_ : WaitState → AckMove) : AckMove :=
  match s.clock.unfreeze now with
  | none => .stays { s with ended := some .panicked }
  | some clock => then_ { s with clock }

def branch (paneId : String) (s : WaitState) (turn : AckTurn) : AckMove :=
  match turn.branch with
  | .idle => .stays s
  | .notified resolved => .stays (if resolved then s.returns .resolved else s)
  | .timer pass =>
    match s.clock.nextTarget with
    | none => .stays s
    | some (_, true) => .stays { s with clock := s.clock.endHookPhase turn.now }
    | some (_, false) => .looks { s with clock := s.clock.advanceCheckpoint } pass
  | .event .session live pass =>
    if s.attached then
      .stays (if live then s
        else { s with attached := false, clock := s.clock.freeze turn.now })
    else if live then
      -- The reattach evidence pass comes before any deadline can fire.
      { s with attached := true }.thaw turn.now (.looks · pass)
    else .stays s
  | .event .lagged live _ =>
    if s.clock.frozen && live then { s with attached := true }.thaw turn.now .stays
    else .stays s
  | .event .other _ _ => .stays s
  | .pane ev pass =>
    match receiptPaneStep ev paneId s.clock.frozen with
    | .recheck => s.thaw turn.now (.looks · pass)
    | .rebound => .stays (s.returns .rebound)
    | .freeze => .stays { s with attached := false, clock := s.clock.freeze turn.now }
    | .ignore => .stays s

def settle (s : WaitState) (pass : Pass) : WaitState :=
  match receiptCheckpointPass s.clock pass with
  | .resolved => s.returns .resolved
  | .deliver => s.returns .screen
  | .expire => s.returns .timeout
  | .rebound => s.returns .rebound
  | .freeze => { s with clock := s.clock.freeze pass.done }
  | .wait => s

/-- One turn of the loop; a call that ended takes no more. -/
def awaitAckTurn (paneId : String) (s : WaitState) (turn : AckTurn) : WaitState :=
  if s.ended.isSome then s
  else if turn.resolved then s.returns .resolved
  else match s.branch paneId turn with
    | .stays s' => s'
    | .looks s' pass => s'.settle pass

end WaitState

end Cyclops.Receipt
