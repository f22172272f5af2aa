import Cyclops.Fusion.Sensors
import Cyclops.Fusion.TurnEnds
import Cyclops.Proto.Identity

/-!
# Observing a pane

One recompute of a pane's detection (`Observation.observe`) and the operations a delivery makes on
the pane's composer hold.
-/

namespace Cyclops.Fusion

open Cyclops.Identity (ProcId)

/-! ## Who is in a pane -/

structure Binding where
  paneRoot : ProcId
  leader : ProcId
  agent : ProcId
  manifest : String
deriving DecidableEq

/-- The agent a recompute finds behind a pane. -/
inductive BindingObservation where
  | bound (binding : Binding)
  | notVendor
  | gone
  | unprovable
deriving DecidableEq

def BindingObservation.binding? : BindingObservation → Option Binding
  | .bound b => some b
  | .notVendor | .gone | .unprovable => none

/-- The foreground process group of a pane. -/
inductive Occupant where
  | leader (pid : Int)
  | gone
  | unprovable
deriving DecidableEq

def Occupant.leader? : Occupant → Option Int
  | .leader pid => some pid
  | .gone | .unprovable => none

structure PaneRow where
  panePid : Int
  title : String := ""
  dead : Bool := false
  inMode : Bool := false

structure PaneRead where
  row : PaneRow
  recipient : Option RecipientKey := none
  occupant : Occupant
  admitted : BindingObservation

/-- `pane_binding_observation`: a dead or exited pane binds nobody, and an unreadable
one proves nothing. -/
def PaneRead.binding (r : PaneRead) : BindingObservation :=
  if r.row.dead || r.occupant = .gone then .gone
  else if r.occupant = .unprovable then .unprovable
  else r.admitted

/-! ## The cache -/

structure DetEntry where
  detection : Detection
  binding : Option Binding
  manifest : Option String
  occupant : Option Int
  agent : Option ProcId
  inMode : Bool
  hold : ComposerHold := .clear
  turn : Option TurnKey := none
  holdOwner : Option String := none

structure PaneState where
  entry : Option DetEntry := none
  ends : Ends := none

/-! ## One recompute -/

structure Observation where
  before : PaneRead
  manifest : Option Manifest
  forceScreen : Bool := false
  inspectComposer : Bool := false
  /-- What `capture_screens` returned; `none` is a failed capture. -/
  capture : Option Screen := none
  foreground : Option Int := none
  /-- The read after the capture; `none` when the row is gone. -/
  after : Option PaneRead := none
  hook : Option HookEntry := none
  livenessVerified : Bool := false
  outputSettled : Bool := false
  ts : Nat := 0

/-- What is read after the capture is what was read before it. -/
def composerCaptureBindingIsStable (before : PaneRead) (after : Option PaneRead) : Bool :=
  match after with
  | none => false
  | some after =>
    !after.row.dead && !after.row.inMode && after.row.panePid = before.row.panePid
      && after.recipient = before.recipient && after.binding = before.binding

namespace Observation

variable (o : Observation)

def binding : BindingObservation :=
  o.before.binding

def row : PaneRow :=
  o.before.row

def admitted : Option ProcId :=
  o.binding.binding?.map Binding.agent

def manifestId : Option String :=
  (o.manifest.map Manifest.id).or (o.binding.binding?.map Binding.manifest)

def unobservable : Bool :=
  o.binding = .unprovable

def needScreen (m : Manifest) : Bool :=
  o.forceScreen || manifestUsesScreenTier m

def screen (m : Manifest) : Option Screen :=
  if o.needScreen m then o.capture else none

/-- The pane's binding did not stay the same across the captures of this recompute. -/
def captureBindingChanged (m : Manifest) : Bool :=
  (o.needScreen m || o.inspectComposer) && !composerCaptureBindingIsStable o.before o.after

def rulesVerdict (m : Manifest) : Detection :=
  let screenRule := (o.screen m).bind (screenWinnerEsc m)
  let det := fuse m (titleWinner m o.row.title) screenRule (manifestUsesScreenTier m)
    (winnerConfirmsIdle screenRule) o.ts
  let det := match o.screen m with
    | some screen => { det with composerSemantic := screenComposerSemanticEsc m screen }
    | none => det
  let det :=
    if o.needScreen m && o.capture.isNone then
      { det with
        stale := true
        decidedBy := if det.decidedBy = "no_rule" || det.decidedBy = "idle_unconfirmed"
          then "sensor_error" else det.decidedBy }
    else det
  if o.captureBindingChanged m then det.refused "binding_changed_during_capture" else det

def visualVerdict : Detection :=
  if o.row.dead then { state := .dead, decidedBy := "pane_dead" }
  else
    match o.manifest with
    | some m => o.rulesVerdict m
    | none => { state := .unknown, decidedBy := "no_manifest" }

def screenRule (m : Manifest) : Option Winner :=
  if o.row.dead then none else (o.screen m).bind (screenWinnerEsc m)

def bindingStable : Bool :=
  o.row.dead || o.manifest.all fun m => !o.captureBindingChanged m

def verdict : Detection :=
  let screenRule := o.manifest.bind o.screenRule
  let staged :=
    if o.row.dead then (o.hook, o.visualVerdict)
    else hookStage o.hook o.admitted o.manifestId o.visualVerdict (winnerConfirmsIdle screenRule)
      (screenRule.any (·.rule.activeStartTerminal)) o.row.inMode o.bindingStable o.ts
  match o.manifest with
  | none => staged.2
  | some m =>
    livenessIdleAdmission staged.1 o.admitted o.manifestId
      (screenRule.bind fun w => m.rules.find? fun r => r.id = w.rule.id)
      o.livenessVerified o.bindingStable o.row.inMode staged.2

end Observation

/-! ## Settling the hold -/

def composerHoldCarriedEntry (prior : Option DetEntry) (admitted : Option ProcId)
    (manifestId : Option String) (rowDead : Bool) (seen : Occupant) : Option DetEntry :=
  prior.filter fun e =>
    (admitted.isSome && e.agent = admitted && e.manifest = manifestId)
      || (admitted.isNone && e.hold.refuses && !rowDead && seen ≠ .gone)

structure Settled where
  hold : ComposerHold
  /-- The hold waits on an end the store may have thrown away. -/
  stranded : Bool
  missingEndDiagnostic : Bool
  ends : Ends

/-- The answer about the turn a hold waits on, `none` on the screen lifecycle. -/
def turnEnded (ends : Ends) (agent : Option ProcId) (manifest : Option String)
    (turn : Option TurnKey) : Option Bool :=
  turn.map fun t => agent.any fun a => ends.holds a (manifest.getD "") t

def settleEnds (ends : Ends) (agent : Option ProcId) (manifest : Option String)
    (turn : Option TurnKey) (next : ComposerHold) (ended : Option Bool) : Ends :=
  match turn, agent, manifest with
  | some t, some a, some id =>
    if next.isTurnStarted then ends
    else if next = .clear && ended = some true then (ends.take a id t).2
    else (ends.retire a id t).2
  | _, _, _ => ends

/-- Advance one pane's composer hold, and settle the turn key it waits on. -/
def settleTurn (ends : Ends) (agent : Option ProcId) (manifest : Option String)
    (turn : Option TurnKey) (hold : ComposerHold) (det : Detection) : Settled :=
  let ended := turnEnded ends agent manifest turn
  let next := hold.advance det ended
  let ends := settleEnds ends agent manifest turn next ended
  let waiting := ended = some false && next.isTurnStarted
  match turn, agent, manifest with
  | some t, some a, some id =>
    let stranded := waiting && ends.evidenceLost a id
    let quiet := !det.stale && det.state = .idle && det.reads .screen .idle
      && det.turnRunningAt.isNone && det.screenProvesWriteSafeComposer
    let (diagnostic, ends) :=
      if waiting && quiet then ends.reserveMissingEndDiagnostic a id t else (false, ends)
    ⟨next, stranded, diagnostic, ends⟩
  | _, _, _ => ⟨next, false, false, ends⟩

namespace Observation

variable (o : Observation)

def identityUnproven (prior : Option DetEntry) : Bool :=
  o.unobservable || (o.admitted.isNone && prior.any (·.hold.refuses))

def frozen (prior : Option DetEntry) : Option DetEntry :=
  if o.unobservable
      || (o.identityUnproven prior && !o.row.dead && o.before.occupant ≠ .gone) then prior
  else none

def carried (prior : Option DetEntry) : Option DetEntry :=
  composerHoldCarriedEntry prior o.admitted o.manifestId o.row.dead o.before.occupant

def baseHold (prior : Option DetEntry) : ComposerHold :=
  let hold := ((o.carried prior).map DetEntry.hold).getD .clear
  if o.outputSettled && ((o.carried prior).bind DetEntry.holdOwner).isNone then
    hold.releaseAfterSettledVisibleEmpty o.verdict
  else hold

def settle (s : PaneState) : PaneState :=
  let turn := (o.carried s.entry).bind DetEntry.turn
  let owner := (o.carried s.entry).bind DetEntry.holdOwner
  match o.frozen s.entry with
  | some e =>
    let det := (o.verdict.stamped o.row.inMode e.hold).occupantUnprovable
    { s with entry := some { e with detection := det, inMode := o.row.inMode } }
  | none =>
    let settled := settleTurn s.ends o.admitted o.manifestId turn (o.baseHold s.entry) o.verdict
    let det := o.verdict.stamped o.row.inMode settled.hold
    let det :=
      if o.unobservable || o.identityUnproven s.entry then det.occupantUnprovable
      else if settled.stranded then det.refused "turn_evidence_lost"
      else det
    { entry := some
        { detection := det
          binding := o.binding.binding?
          manifest := o.manifestId
          occupant := o.before.occupant.leader?
          agent := o.admitted
          inMode := o.row.inMode
          hold := settled.hold
          turn := if settled.hold.isTurnStarted then turn else none
          holdOwner := if settled.hold = .clear then none else owner }
      ends := settled.ends }

def observeInMode (prior : Option DetEntry) : DetEntry :=
  let refuse (d : Detection) := if o.unobservable then d.occupantUnprovable else d
  match prior with
  | some e =>
    let e := if o.unobservable then e else
      { e with
        binding := o.binding.binding?
        manifest := o.manifestId
        occupant := o.before.occupant.leader?
        agent := o.admitted }
    { e with inMode := true, detection := refuse (e.detection.stamped true e.hold) }
  | none =>
    { detection := refuse
        (({ state := .unknown, decidedBy := "pane_in_mode" } : Detection).stamped true .clear)
      binding := o.binding.binding?
      manifest := o.manifestId
      occupant := o.before.occupant.leader?
      agent := o.admitted
      inMode := true }

def retainStale (prior : Option DetEntry) : Option DetEntry :=
  (prior.filter fun e =>
    o.foreground.isSome && e.occupant = o.foreground && e.manifest = o.manifestId).map fun e =>
      { e with
        detection := ({ e.detection with stale := true } : Detection).stamped o.row.inMode e.hold }

def captureFailed : Bool :=
  o.manifest.any fun m => o.needScreen m && o.capture.isNone

def observe (s : PaneState) : PaneState :=
  if !o.row.dead && o.row.inMode then { s with entry := some (o.observeInMode s.entry) }
  else if !o.row.dead && o.captureFailed then
    match o.retainStale s.entry with
    | some e => { s with entry := some e }
    | none => o.settle s
  else o.settle s

end Observation

/-! ## Operations on the hold -/

namespace PaneState

variable (s : PaneState)

def observeMissing : PaneState :=
  { s with entry := none }

def restamp (e : DetEntry) : DetEntry :=
  { e with detection := e.detection.stamped e.inMode e.hold }

def claimHold (owner : String) (agent : Option ProcId) (manifest : Option String) :
    Bool × PaneState :=
  match s.entry with
  | none => (false, s)
  | some e =>
    let free := match e.hold, e.holdOwner with
      | .clear, none | .turnStarted _, none => true
      | _, some held => held = owner
      | _, none => false
    if agent.isSome && e.agent = agent && e.manifest = manifest && free then
      (true, { s with entry := some (restamp { e with holdOwner := some owner, hold := .staged }) })
    else (false, s)

/-- Change a pane's hold, but only if a named delivery still owns it. -/
def setHoldOwned (owner : String) (change : ComposerHold → Option ComposerHold) :
    Bool × PaneState :=
  match s.entry with
  | none => (false, s)
  | some e =>
    if e.holdOwner ≠ some owner then (false, s)
    else
      match change e.hold with
      | none => (true, s)
      | some hold =>
        if hold = e.hold then (true, s)
        else (true, { s with entry := some (restamp { e with hold := hold }) })

/-- Bind an acknowledged turn to the barrier a delivery is holding; `none` is a refusal. -/
def bindTurn (owner : String) (turn : TurnKey) (sinceMs : Nat) : Option Bool × PaneState :=
  match s.entry with
  | none => (none, s)
  | some e =>
    match e.agent, e.manifest with
    | some agent, some manifest =>
      if e.holdOwner ≠ some owner || e.turn.any (· ≠ turn) then (none, s)
      else
        match s.ends.pin agent manifest turn with
        | (false, ends) => (none, { s with ends })
        | (true, ends) =>
          let hold := if e.hold.isWaiting then .turnStarted sinceMs else e.hold
          (some (ends.holds agent manifest turn),
            { entry := some (restamp { e with turn := some turn, hold }), ends })
    | _, _ => (none, s)

def releaseUnwrittenHold (owner : String) (agent : ProcId) (manifest : String) : Bool × PaneState :=
  match s.entry with
  | none => (false, s)
  | some e =>
    if e.hold = .staged && e.holdOwner = some owner && e.agent = some agent
        && e.manifest = some manifest then
      (true, { s with entry := some (restamp { e with hold := .clear, holdOwner := none }) })
    else (false, s)

def clearHoldOwner (owner : String) : Bool × PaneState :=
  match s.entry with
  | none => (false, s)
  | some e =>
    if e.holdOwner ≠ some owner then (false, s)
    else
      (true, { s with entry := some (restamp
        { e with hold := .clear, holdOwner := none, turn := none }) })

def recordEnd (agent : ProcId) (manifest : String) (turn : TurnKey) : PaneState :=
  { s with ends := s.ends.record agent manifest turn }

end PaneState

end Cyclops.Fusion
