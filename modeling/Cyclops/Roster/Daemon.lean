import Cyclops.Roster.Registry

/-!
# The requests and events that change the roster

The daemon changes the registry at boot and from several tasks: naming and clearing a pane, a pane
that its watcher reports removed, the reconciliation at attach, the settlement of a missing session
and `status.reset`.
-/

namespace Cyclops.Roster

open FiniteMap

structure ServerGeneration where
  osBootId : String
  tmuxServer : ProcessInstanceId
deriving DecidableEq

structure PaneRow where
  pane : TmuxPaneId
  panePid : Nat
  dead : Bool
  windowId : String

def PaneRow.paneId (row : PaneRow) : String :=
  row.pane.text

structure Watcher where
  instance_ : SessionInstanceId
  session : String
  panes : List PaneRow

structure Link where
  attached : Bool := false
  identity : Option SessionInstanceId := none
  watcher : Option Nat := none

structure Slot where
  name : String
  canonical : Bool := true
  observedLive : Bool := false
  link : Link := {}

/-! ## Proofs of loss -/

structure ProcRead where
  occupant : Option ProcessInstanceId
  alive : Bool

abbrev Processes := Nat → ProcRead

/-- The answer of `list-panes -a` about one pane: its pid, or none. -/
abbrev ServerAnswer := Except Unit (Option Nat)

def ProcRead.lost (reading : ProcRead) (expected : ProcessInstanceId) : Bool :=
  match reading.occupant with
  | some observed => observed ≠ expected
  | none => !reading.alive

/-- The verdict, or that there is none: the pid is alive and cannot be identified. -/
def ProcRead.gone (reading : ProcRead) (expected : ProcessInstanceId) : Except String Bool :=
  match reading.occupant with
  | some observed => .ok (observed ≠ expected)
  | none => if !reading.alive then .ok true else .error "physical_pane_unproven"

def physicalPaneGoneWithExpected (answer : ServerAnswer) (processes : Processes)
    (expected : Option ProcessInstanceId) : Except String Bool :=
  match answer with
  | .error _ => .error "physical_pane_unproven"
  | .ok none => .ok true
  | .ok (some pid) =>
    match expected with
    | none => .ok false
    | some expected => (processes pid).gone expected

def physicalPaneGone (answer : ServerAnswer) (processes : Processes) (adoption : Adoption) :
    Except String Bool :=
  match adoption.paneRoot with
  | none => .error "pane_root_unproven"
  | some expected => physicalPaneGoneWithExpected answer processes (some expected)

def paneRootGone (reading : ProcRead) (adoption : Adoption) : Except String Bool :=
  match adoption.paneRoot with
  | none => .error "pane_root_unproven"
  | some expected => reading.gone expected

def releaseGoneRecipients (reg : Registry) (saved : Bool) : List RecipientKey → Registry
  | [] => reg
  | recipient :: rest =>
    match reg.forRecipient recipient with
    | none => releaseGoneRecipients reg saved rest
    | some adoption =>
      match adoption.paneRoot with
      | none => releaseGoneRecipients reg saved rest
      | some paneRoot => releaseGoneRecipients (reg.forget recipient paneRoot saved).1 saved rest

def staleAdoptionRecipients (existing : List Adoption) (instance_ : SessionInstanceId)
    (live : List (String × ProcessInstanceId)) : List RecipientKey :=
  (existing.filter fun adoption =>
    (adoption.recipient.any fun recipient => sessionInstanceId recipient ≠ some instance_) ||
      !Registry.justified live adoption).filterMap Adoption.recipient

def transferredRecipients (existing : List Adoption) (answers : RecipientKey → ServerAnswer)
    (processes : Processes) : List RecipientKey → Except String (List RecipientKey)
  | [] => .ok []
  | recipient :: rest =>
    match existing.find? fun adoption => adoption.recipient = some recipient with
    | none => .error "pane_root_unproven"
    | some adoption =>
      match physicalPaneGone (answers recipient) processes adoption with
      | .error reason => .error reason
      | .ok gone =>
        match transferredRecipients existing answers processes rest with
        | .error reason => .error reason
        | .ok transferred => .ok (if gone then transferred else recipient :: transferred)

/-! ## Observations -/

/-- What the daemon has seen of a pane or of its root process. -/
inductive Observation where
  /-- The whole server was asked about a pane whose root was `expected`. -/
  | asked (server : ServerGeneration) (paneId : String) (expected : ProcessInstanceId)
      (answer : Option ProcRead)
  | process (expected : ProcessInstanceId) (reading : ProcRead)
  /-- A watcher lists the pane as dead, while the registry has `root` for it. -/
  | dead (server : ServerGeneration) (paneId : String) (root : ProcessInstanceId)
  | occupied (server : ServerGeneration) (paneId : String) (root : ProcessInstanceId)

/-- The pane, or its root process, is proved gone on the adoption's own server. -/
def Observation.showsLoss (serverOf : SessionInstanceId → ServerGeneration)
    (recipient : RecipientKey) (adoption : Adoption) : Observation → Bool
  | .asked server paneId expected answer =>
    (sessionInstanceId recipient).map serverOf = some server && paneId = adoption.paneId &&
      adoption.paneRoot = some expected && answer.all fun reading => reading.lost expected
  | .process expected reading => adoption.paneRoot = some expected && reading.lost expected
  | .dead server paneId root =>
    (sessionInstanceId recipient).map serverOf = some server && paneId = adoption.paneId &&
      adoption.paneRoot = some root
  | .occupied server paneId root =>
    (sessionInstanceId recipient).map serverOf = some server && paneId = adoption.paneId &&
      adoption.paneRoot ≠ some root

/-! ## Tasks and steps -/

structure Snapshot where
  borderFormat : Option String
  borderStatus : Option String

structure NameRequest where
  idx : Nat
  watcher : Nat
  pane : TmuxPaneId
  label : String
  manifest : Option String

/-- A request between its look at tmux and its commit. -/
inductive Task where
  | name (request : NameRequest) (recipient : RecipientKey) (paneRoot : ProcessInstanceId)
      (row : PaneRow) (knownFormat knownStatus : Option (Option String))
  | clear (recipient : RecipientKey) (paneRoot : ProcessInstanceId)
      (pending : Option (Adoption × Option WindowChrome))
  | removed (watcher : Nat) (pane : TmuxPaneId) (recipient : Option RecipientKey)
      (adoptions : List Adoption)
  | reconcile (watcher : Nat) (live : List (String × ProcessInstanceId)) (existing : List Adoption)
  | settle (idx : Nat) (checked : List (Adoption × ProcRead))
  | reset (dead : List Observation) (live : List String)
  | done

structure State where
  registry : Registry
  watchers : List Watcher := []
  slots : List Slot := []
  tasks : List Task := []

/-- What the daemon does to its roster. A task looks first and commits later, so that other actions
come between. -/
inductive Action where
  /-- At boot, for a session that is not configured and that tmux does not have. -/
  | bootRelease (session : String) (processes : Processes) (saved : Bool)
  | connect (watcher : Watcher)
  /-- The watcher's table and the session's name follow tmux. -/
  | snapshot (watcher : Nat) (session : String) (panes : List PaneRow)
  | watch (name : String)
  | publish (idx watcher : Nat)
  | detach (idx : Nat)
  | retire (idx : Nat)
  | rename (idx : Nat) (newName : String) (saved : Bool)
  | rebind (recipient : RecipientKey) (expected replacement : ProcessInstanceId) (saved : Bool)
  | moveWindow (recipient : RecipientKey) (paneRoot : ProcessInstanceId) (destination : String)
      (status : Option String) (saved : Bool)
  | nameLook (request : NameRequest) (processes : Processes)
  | nameCommit (task : Nat) (processes : Processes) (read : Snapshot) (headlessHolds saved : Bool)
  | clearLook (idx watcher : Nat) (pane : TmuxPaneId) (processes : Processes)
  | clearCommit (task : Nat) (restored saved : Bool)
  | removedLook (idx watcher : Nat) (pane : TmuxPaneId)
  | removedCommit (task : Nat) (answer : ServerAnswer) (processes : Processes) (saved : Bool)
  | reconcileLook (watcher : Nat) (processes : Processes)
  | reconcileCommit (task : Nat) (answers : RecipientKey → ServerAnswer) (processes : Processes)
      (saved : Bool)
  | settleLook (idx : Nat) (targetCurrent : Bool) (processes : Processes)
  | settleCommit (task : Nat) (saved : Bool)
  | resetStart (killDeadPanes : Bool)
  | resetCollect (task : Nat)
  | resetPrune (task : Nat) (saved : Bool)

section

variable (serverOf : SessionInstanceId → ServerGeneration) (workspaceId : WorkspaceId)

namespace State

variable (s : State)

def open_ (task : Task) : State :=
  { s with tasks := s.tasks ++ [task] }

def finish (k : Nat) (registry : Registry) : State :=
  { s with registry, tasks := s.tasks.set k .done }

def readRoots (session : String) (processes : Processes) : List (Adoption × ProcRead) :=
  (s.registry.inSession session).map fun adoption =>
    (adoption, processes (adoption.paneRoot.elim 0 ProcessInstanceId.pid))

def updateLink (idx : Nat) (f : Link → Link) : State :=
  { s with slots := s.slots.modify idx fun slot => { slot with link := f slot.link } }

def liveWatchers : List Watcher :=
  s.slots.filterMap fun slot =>
    if slot.canonical then slot.link.watcher.bind fun w => s.watchers[w]? else none

def reportedRecipient (idx w : Nat) (pane : TmuxPaneId) : Option RecipientKey :=
  s.slots[idx]?.bind fun slot =>
    if slot.link.watcher = some w then
      slot.link.identity.map fun instance_ => ⟨workspaceId, .agent instance_ pane⟩
    else none

/-- The route a pane can be named under: its recipient, the root read now, its row. -/
def adoptionRoute (idx w : Nat) (pane : TmuxPaneId) (processes : Processes) :
    Option (RecipientKey × ProcessInstanceId × PaneRow) :=
  if (s.slots[idx]?.any fun slot => slot.link.attached) then
    (s.reportedRecipient workspaceId idx w pane).bind fun recipient =>
      (s.watchers[w]?.bind fun watcher => watcher.panes.find? fun row => row.pane = pane).bind
        fun row => (processes row.panePid).occupant.map fun root => (recipient, root, row)
  else none

def deadPanes : List Observation :=
  s.liveWatchers.flatMap fun watcher =>
    (watcher.panes.filter PaneRow.dead).flatMap fun row =>
      (s.registry.inPane row.paneId).filterMap fun adoption =>
        adoption.paneRoot.bind fun root =>
          if root.pid = row.panePid then some (.dead (serverOf watcher.instance_) row.paneId root)
          else none

def livePaneIds : List String :=
  s.liveWatchers.flatMap fun watcher =>
    (watcher.panes.filter fun row => !row.dead).map PaneRow.paneId

end State

/-- The adoption a removed pane is checked against: the reporting slot's own, or the only
one of that pane id. -/
def expectedAdoption (recipient : Option RecipientKey) (adoptions : List Adoption) :
    Option Adoption :=
  (recipient.bind fun recipient => adoptions.find? fun a => a.recipient = some recipient).or
    (match adoptions with
      | [only] => some only
      | _ => none)

def goneRecipients (checked : List (Adoption × ProcRead)) : List RecipientKey :=
  checked.filterMap fun (adoption, reading) =>
    match paneRootGone reading adoption with
    | .ok true => adoption.recipient
    | _ => none

/-- The name is recorded, unless the pane changed or the label was taken meanwhile. -/
def State.commitName (s : State) (request : NameRequest) (recipient : RecipientKey)
    (paneRoot : ProcessInstanceId) (row : PaneRow) (knownFormat knownStatus : Option (Option String))
    (processes : Processes) (read : Snapshot) (headlessHolds saved : Bool) : Registry :=
  match s.adoptionRoute workspaceId request.idx request.watcher request.pane processes,
      s.slots[request.idx]? with
  | some (currentRecipient, currentRoot, currentRow), some slot =>
    if currentRecipient ≠ recipient || currentRoot ≠ paneRoot ||
        currentRow.windowId ≠ row.windowId then s.registry
    else if (s.registry.labelHolder request.label (some recipient)).isSome || headlessHolds then
      s.registry
    else
      (s.registry.adopt
        { session := slot.name, paneId := request.pane.text, label := request.label,
          recipient := some recipient, paneRoot := some paneRoot, manifest := request.manifest,
          panePid := row.panePid, windowId := row.windowId,
          borderFormat := knownFormat.getD read.borderFormat }
        ⟨slot.name, row.windowId, knownStatus.getD read.borderStatus⟩ saved).1
  | _, _ => s.registry

/-- One action. A task that is not there, or that does not fit, changes nothing. -/
def State.step (s : State) : Action → State
  | .bootRelease session processes saved =>
    let checked := s.readRoots session processes
    -- A root that cannot be told fails the boot.
    if checked.any fun (adoption, reading) => paneRootGone reading adoption matches .error _ then s
    else { s with registry := releaseGoneRecipients s.registry saved (goneRecipients checked) }
  | .connect watcher => { s with watchers := s.watchers ++ [watcher] }
  | .snapshot w session panes =>
    { s with watchers := s.watchers.modify w fun watcher => { watcher with session, panes } }
  | .watch name => { s with slots := s.slots ++ [{ name }] }
  | .publish idx w =>
    match s.watchers[w]? with
    | none => s
    | some watcher =>
      { s with slots := s.slots.modify idx fun slot =>
          { slot with observedLive := true, link := ⟨true, some watcher.instance_, some w⟩ } }
  | .detach idx => s.updateLink idx fun link => { link with attached := false, watcher := none }
  | .retire idx =>
    { s with slots := s.slots.modify idx fun slot => { slot with canonical := false } }
  | .rename idx newName saved =>
    match s.slots[idx]? with
    | none => s
    | some slot =>
      { s with
        slots := s.slots.modify idx fun slot => { slot with name := newName }
        registry := (s.registry.renameSession slot.name newName saved).1 }
  | .rebind recipient expected replacement saved =>
    { s with registry := (s.registry.rebindProcess recipient expected replacement saved).1 }
  | .moveWindow recipient paneRoot destination status saved =>
    { s with registry :=
        (s.registry.moveWindow recipient paneRoot destination status saved).1 }
  | .nameLook request processes =>
    match s.adoptionRoute workspaceId request.idx request.watcher request.pane processes with
    | none => s
    | some (recipient, paneRoot, row) =>
      match s.registry.forRoute recipient paneRoot with
      | some adoption =>
        s.open_ (.name request recipient paneRoot row (some adoption.borderFormat)
          ((s.registry.windows.lookup row.windowId).map WindowChrome.borderStatus))
      | none => s.open_ (.name request recipient paneRoot row none none)
  | .nameCommit k processes read headlessHolds saved =>
    match s.tasks[k]? with
    | some (.name request recipient paneRoot row knownFormat knownStatus) =>
      s.finish k (s.commitName workspaceId request recipient paneRoot row knownFormat
        knownStatus processes read headlessHolds saved)
    | _ => s
  | .clearLook idx w pane processes =>
    match s.adoptionRoute workspaceId idx w pane processes with
    | none => s
    | some (recipient, paneRoot, _) =>
      s.open_ (.clear recipient paneRoot (s.registry.pendingClear recipient paneRoot))
  | .clearCommit k restored saved =>
    match s.tasks[k]? with
    | some (.clear recipient paneRoot pending) =>
      -- There is nothing to restore when the pane was not adopted at the look.
      if pending.isSome && !restored then s.finish k s.registry
      else s.finish k (s.registry.clear recipient paneRoot saved).1
    | _ => s
  | .removedLook idx w pane =>
    s.open_ (.removed w pane (s.reportedRecipient workspaceId idx w pane)
      (s.registry.inPane pane.text))
  | .removedCommit k answer processes saved =>
    match s.tasks[k]? with
    | some (.removed _ _ recipient adoptions) =>
      match expectedAdoption recipient adoptions with
      | none => s.finish k s.registry
      | some expected =>
        match physicalPaneGone answer processes expected, expected.recipient, expected.paneRoot with
        | .ok true, some route, some paneRoot =>
          s.finish k (s.registry.forget route paneRoot saved).1
        | _, _, _ => s.finish k s.registry
    | _ => s
  | .reconcileLook w processes =>
    match s.watchers[w]? with
    | none => s
    | some watcher =>
      s.open_ (.reconcile w (watcher.panes.filterMap fun row =>
          (processes row.panePid).occupant.map fun root => (row.paneId, root))
        (s.registry.inSession watcher.session))
  | .reconcileCommit k answers processes saved =>
    match s.tasks[k]? with
    | some (.reconcile w live existing) =>
      match s.watchers[w]? with
      | none => s
      | some watcher =>
        match transferredRecipients existing answers processes
            (staleAdoptionRecipients existing watcher.instance_ live) with
        | .error _ => s.finish k s.registry
        | .ok transferred =>
          s.finish k (s.registry.restoreSessionPreserving watcher.session watcher.instance_ live
            transferred saved).1
    | _ => s
  | .settleLook idx targetCurrent processes =>
    match s.slots[idx]? with
    | none => s
    | some slot =>
      if slot.canonical && targetCurrent && slot.observedLive then
        s.open_ (.settle idx (s.readRoots slot.name processes))
      else s
  | .settleCommit k saved =>
    match s.tasks[k]? with
    | some (.settle idx checked) =>
      (s.finish k (releaseGoneRecipients s.registry saved (goneRecipients checked))).updateLink idx
        fun link => { link with identity := none }
    | _ => s
  | .resetStart killDeadPanes =>
    s.open_ (.reset (if killDeadPanes then s.deadPanes serverOf else []) [])
  | .resetCollect k =>
    match s.tasks[k]? with
    | some (.reset dead _) =>
      { s with tasks := s.tasks.set k (.reset (dead ++ s.deadPanes serverOf) s.livePaneIds) }
    | _ => s
  | .resetPrune k saved =>
    match s.tasks[k]? with
    | some (.reset _ live) => s.finish k (s.registry.pruneOrphans live saved).1
    | _ => s

/-! ## What a step acts on -/

def askedAbout (server : ServerGeneration) (adoption : Adoption) (answer : ServerAnswer)
    (processes : Processes) : List Observation :=
  match adoption.paneRoot, answer with
  | some expected, .ok pid =>
    [.asked server adoption.paneId expected (pid.map processes)]
  | _, _ => []

def rootsRead (checked : List (Adoption × ProcRead)) : List Observation :=
  checked.filterMap fun (adoption, reading) =>
    adoption.paneRoot.map fun root => .process root reading

/-- What an action reads about panes and processes before it commits. -/
def State.evidence (s : State) : Action → List Observation
  | .bootRelease session processes _ => rootsRead (s.readRoots session processes)
  | .nameCommit k processes _ _ _ =>
    match s.tasks[k]? with
    | some (.name request _ _ _ _ _) =>
      match s.adoptionRoute workspaceId request.idx request.watcher request.pane processes,
          s.watchers[request.watcher]? with
      | some (_, root, row), some watcher =>
        [.occupied (serverOf watcher.instance_) row.paneId root]
      | _, _ => []
    | _ => []
  | .removedCommit k answer processes _ =>
    match s.tasks[k]? with
    | some (.removed w _ recipient adoptions) =>
      match expectedAdoption recipient adoptions, s.watchers[w]? with
      | some expected, some watcher =>
        askedAbout (serverOf watcher.instance_) expected answer processes
      | _, _ => []
    | _ => []
  | .reconcileCommit k answers processes _ =>
    match s.tasks[k]? with
    | some (.reconcile w _ existing) =>
      match s.watchers[w]? with
      | some watcher => existing.flatMap fun adoption =>
          adoption.recipient.elim [] fun recipient =>
            askedAbout (serverOf watcher.instance_) adoption (answers recipient) processes
      | none => []
    | _ => []
  | .settleCommit k _ =>
    match s.tasks[k]? with
    | some (.settle _ checked) => rootsRead checked
    | _ => []
  | .resetPrune k _ =>
    match s.tasks[k]? with
    | some (.reset dead _) => dead
    | _ => []
  | _ => []

def State.clears (s : State) (recipient : RecipientKey) (adoption : Adoption) : Action → Bool
  | .clearCommit k restored _ =>
    match s.tasks[k]? with
    | some (.clear cleared _ (some (pending, _))) =>
      restored && cleared = recipient && pending.borderFormat = adoption.borderFormat
    | _ => false
  | _ => false

end

def State.start (panes : List Adoption) (windows : List WindowChrome) : State :=
  { registry := Registry.load panes windows }

end Cyclops.Roster
