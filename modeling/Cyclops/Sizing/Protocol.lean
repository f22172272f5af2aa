import Cyclops.Lib.Commands
import Cyclops.Lib.FiniteMap
import Cyclops.Proto.MessageId
import Mathlib.Data.String.Basic

/-!
# Window sizing

A workspace sizes the windows of a tmux session by pinning their `window-size` to `manual`.
-/

namespace Cyclops.Sizing

open Commands Texts Function FiniteMap

/-! ## Policies and their records -/

/-- tmux's sizing policies. -/
inductive WindowSize where
  | largest | smallest | manual | latest
deriving DecidableEq

def WindowSize.text : WindowSize → String
  | .largest => "largest"
  | .smallest => "smallest"
  | .manual => "manual"
  | .latest => "latest"

def WindowSize.ofText (value : String) : Option WindowSize :=
  [WindowSize.largest, .smallest, .manual, .latest].find? fun size => size.text = value

/-- What a window's `window-size` was before it was pinned. -/
inductive PriorWindowSize where
  | inherited
  | explicit (value : String)
deriving DecidableEq

def trimText (text : String) : String :=
  String.ofList (trim text.toList)

namespace PriorWindowSize

def encode : PriorWindowSize → String
  | .inherited => "inherited"
  | .explicit value => "explicit:" ++ value

/-- Read a record back, or nothing for a text this module did not write. -/
def parse (raw : String) : Option PriorWindowSize :=
  let raw := trimText raw
  if raw = "inherited" then some .inherited
  else
    match raw.toList.dropPrefix? "explicit:".toList with
    | some value => if value = [] then none else some (.explicit (String.ofList value))
    | none => none

end PriorWindowSize

def firstLine (lines : List String) : Option String :=
  (lines.head?.map trimText).filter (· ≠ "")

/-! ## The server -/

structure WindowOptions where
  size : Option WindowSize := none
  /-- `@cyclops_prior_window_size`. -/
  record : Option String := none
deriving DecidableEq

/-- The commands on one window. -/
inductive WindowCommand where
  | showRecord
  /-- `set-option -o`: refused when the record exists. -/
  | createRecord (text : String)
  | unsetRecord
  | showSize
  | setSize (value : String)
  | unsetSize
  | resize

def WindowCommand.writes : WindowCommand → Bool
  | .showRecord | .showSize => false
  | _ => true

def WindowCommand.run (o : WindowOptions) : WindowCommand → WindowOptions × Option (List String)
  | .showRecord => (o, some o.record.toList)
  | .createRecord text =>
    match o.record with
    | some _ => (o, none)
    | none => ({ o with record := some text }, some [])
  | .unsetRecord => ({ o with record := none }, some [])
  | .showSize => (o, some (o.size.map WindowSize.text).toList)
  | .setSize value =>
    match WindowSize.ofText value with
    | some size => ({ o with size := some size }, some [])
    | none => (o, none)
  | .unsetSize => ({ o with size := none }, some [])
  | .resize => ({ o with size := some .manual }, some [])

structure Tmux where
  clients : List String
  /-- Every client the server has had; a marker does not come back. -/
  known : List String
  windows : String → List String
  /-- `@cyclops_window_driver` of a session. -/
  driver : String → Option String
  window : String → WindowOptions

/-- The commands that are sent to tmux. -/
inductive Command where
  /-- `display-message -p`: the marker of the calling client. -/
  | displayClient
  | listClients
  | listWindows (session : String)
  | showDriver (session : String)
  /-- `set-option -o`: refused when the session has a driver. -/
  | createDriver (session marker : String)
  /-- `if-shell -F`: compare and set in one command. -/
  | replaceDriver (session stale marker : String)
  | unsetDriver (session : String)
  /-- A window's options; `session` is the session it is sent for, which tmux is not told. -/
  | window (session id : String) (command : WindowCommand)

def Command.run (caller : String) (t : Tmux) : Command → Tmux × Option (List String)
  | .displayClient => (t, some [caller])
  | .listClients => (t, some t.clients)
  | .listWindows session => (t, some (t.windows session))
  | .showDriver session => (t, some (t.driver session).toList)
  | .createDriver session marker =>
    match t.driver session with
    | some _ => (t, none)
    | none => ({ t with driver := update t.driver session (some marker) }, some [])
  | .replaceDriver session stale marker =>
    if t.driver session = some stale then
      ({ t with driver := update t.driver session (some marker) }, some [])
    else (t, some [])
  | .unsetDriver session =>
    ({ t with driver := update t.driver session none }, some [])
  | .window _ id command =>
    let changed := command.run (t.window id)
    ({ t with window := update t.window id changed.1 }, changed.2)

/-- How a command ends; a lost one may have been carried out. -/
inductive Outcome where
  | answered
  /-- Not carried out. -/
  | refused
  /-- Carried out, and the answer did not arrive. -/
  | lost
deriving DecidableEq

def Command.attempt (caller : String) (t : Tmux) (c : Command) :
    Outcome → Tmux × Option (List String)
  | .answered => c.run caller t
  | .refused => (t, none)
  | .lost => ((c.run caller t).1, none)

/-! ## The commands of the control client -/

abbrev Run := Prog Command (Option (List String))

abbrev TmuxM := OptionT Run

def command (c : Command) : TmuxM (List String) :=
  OptionT.mk (.command c)

/-- What is known of the policy before. -/
inductive Captured where
  | record (prior : PriorWindowSize)
  | malformed

/-- What a restore found. -/
inductive Restored where
  | nothing
  | exactly
  | malformed
deriving DecidableEq

def clientIdentity : TmuxM String := do
  match ← command .displayClient with
  | marker :: _ => return marker
  | [] => failure

def windowDriver (session : String) : TmuxM (Option String) := do
  return (← command (.showDriver session)).head?

def claimWindowDriver (session marker : String) : TmuxM Bool := do
  let _ ← OptionT.lift (command (.createDriver session marker)).run
  return (← windowDriver session) = some marker

def takeOverWindowDriver (session stale marker : String) : TmuxM Bool := do
  let _ ← command (.replaceDriver session stale marker)
  return (← windowDriver session) = some marker

def releaseWindowDriver (session : String) : TmuxM Unit := do
  let _ ← command (.unsetDriver session)

def serverClientMarkers : TmuxM (List String) :=
  command .listClients

def rawPriorWindowSize (session id : String) : TmuxM (Option String) := do
  return firstLine (← command (.window session id .showRecord))

def Captured.ofRaw (raw : String) : Captured :=
  match PriorWindowSize.parse raw with
  | some prior => .record prior
  | none => .malformed

def PriorWindowSize.ofLines (lines : List String) : PriorWindowSize :=
  let current := (lines.head?.map trimText).getD ""
  if current = "" then .inherited else .explicit current

/-- Record what the window's policy is, before anything pins it. -/
def capturePriorWindowSize (session id : String) : TmuxM Captured := do
  match ← rawPriorWindowSize session id with
  | some raw => return Captured.ofRaw raw
  | none =>
    let prior := PriorWindowSize.ofLines (← command (.window session id .showSize))
    let _ ← OptionT.lift (command (.window session id (.createRecord prior.encode))).run
    match ← rawPriorWindowSize session id with
    | some raw => return Captured.ofRaw raw
    | none => failure

def pinWindowSizeManual (session id : String) : TmuxM Unit := do
  let _ ← command (.window session id (.setSize "manual"))

def PriorWindowSize.restore : PriorWindowSize → WindowCommand
  | .inherited => .unsetSize
  | .explicit value => .setSize value

def restoreWindowSize (session id : String) : TmuxM Restored := do
  match (← rawPriorWindowSize session id).map PriorWindowSize.parse with
  | none => return .nothing
  | some none => return .malformed
  | some (some prior) =>
    let _ ← command (.window session id prior.restore)
    let _ ← command (.window session id .unsetRecord)
    return .exactly

/-! ## The operator's release -/

structure ReleasedWindow where
  windowId : String
  outcome : Restored

/-- The answer of a release. -/
inductive ReleaseOutcome where
  | refusedLiveOwner (marker : String)
  | released (windows : List ReleasedWindow)

/-- The windows of a session, one after the other; the commands for each are those of a
workspace's own restore. -/
def releaseWindows (session : String) (listed : List String) : TmuxM (List ReleasedWindow) :=
  listed.foldlM (fun released id => do
    return released ++ [⟨id, ← restoreWindowSize session id⟩]) []

def releaseUnowned (session : String) : TmuxM ReleaseOutcome := do
  let released ← releaseWindows session (← command (.listWindows session))
  if released.all fun window => window.outcome ≠ .malformed then
    let _ ← command (.unsetDriver session)
  return .released released

/-- Undo the sizing of a session, with no workspace running. -/
def releaseSessionSizing (session : String) : TmuxM ReleaseOutcome := do
  match ← windowDriver session with
  | none => releaseUnowned session
  | some held =>
    let clients ← command .listClients
    if clients.contains held then
      return .refusedLiveOwner held
    else
      releaseUnowned session

/-! ## What one workspace remembers -/

structure OwnedSession where
  pinned : List String := []
  blocked : List String := []

def OwnedSession.releasable (owned : OwnedSession) : Bool :=
  owned.blocked.isEmpty

structure WindowSizing where
  identity : Option String := none
  owned : Map String OwnedSession := ∅
  following : List String := []

namespace WindowSizing

variable (sizing : WindowSizing)

def owns (session : String) : Bool :=
  (sizing.owned.lookup session).isSome

def modifyOwned (session : String) (change : OwnedSession → OwnedSession) : WindowSizing :=
  { sizing with
    owned := sizing.owned.insert session (change ((sizing.owned.lookup session).getD {})) }

def follow (session : String) : WindowSizing :=
  { sizing with following := sizing.following.insert session }

end WindowSizing

/-! ## Electing an owner -/

def sizingIdentity (sizing : WindowSizing) : Run (WindowSizing × Option String) := do
  match sizing.identity with
  | some identity => return (sizing, some identity)
  | none =>
    match ← clientIdentity.run with
    | some identity => return ({ sizing with identity := some identity }, some identity)
    | none => return (sizing, none)

def WindowSizing.settle (sizing : WindowSizing) (session : String) :
    Option Bool → WindowSizing × Bool
  | some true =>
    ({ sizing with following := sizing.following.erase session }.modifyOwned session id, true)
  | some false => (sizing.follow session, false)
  | none => (sizing, false)

/-- Whether this workspace sizes `session`, claiming it when nobody live does. -/
def ownsSession (sizing : WindowSizing) (session : String) : Run (WindowSizing × Bool) := do
  if sizing.owns session then
    return (sizing, true)
  else
    let (sizing, identity) ← sizingIdentity sizing
    match identity with
    | none => return (sizing, false)
    | some marker =>
      match ← (windowDriver session).run with
      | none => return (sizing, false)
      | some none =>
        return sizing.settle session (← (claimWindowDriver session marker).run)
      | some (some held) =>
        if held = marker then
          return sizing.settle session (some true)
        else
          match ← serverClientMarkers.run with
          | none => return (sizing, false)
          | some live =>
            if live.contains held then
              return (sizing.follow session, false)
            else
              return sizing.settle session (← (takeOverWindowDriver session held marker).run)

/-! ## Adopting windows -/

structure Adopted where
  newlyFollowing : Bool := false
  tookAWindow : Bool := false
  authorityTransferred : Bool := false

def OwnedSession.retain (displayed : List String) (owned : OwnedSession) : OwnedSession where
  pinned := owned.pinned.filter displayed.contains
  blocked := owned.blocked.filter displayed.contains

def unpinnedWindows (tabs pinned : List String) : List String :=
  tabs.filter fun id => !pinned.contains id

def adoptWindow (session : String) (state : WindowSizing × Bool) (id : String) :
    Run (WindowSizing × Bool) := do
  match ← (capturePriorWindowSize session id).run with
  | some (.record _) =>
    match ← (pinWindowSizeManual session id).run with
    | some _ =>
      return (state.1.modifyOwned session fun owned =>
        { owned with pinned := owned.pinned.insert id }, true)
    | none => return state
  | some .malformed =>
    return (state.1.modifyOwned session fun owned =>
      { owned with blocked := owned.blocked.insert id }, state.2)
  | none => return state

def adoptWindows (sizing : WindowSizing) (session : String) (tabs : List String) :
    Run (WindowSizing × Adopted) := do
  let followedBefore := sizing.following.contains session
  let (sizing, owns) ← ownsSession sizing session
  if !owns then
    return (sizing, { newlyFollowing := !followedBefore && sizing.following.contains session })
  else
    let sizing := sizing.modifyOwned session (·.retain tabs)
    let pinned := ((sizing.owned.lookup session).getD {}).pinned
    let (sizing, tookAWindow) ←
      (unpinnedWindows tabs pinned).foldlM (adoptWindow session) (sizing, false)
    return (sizing, { tookAWindow, authorityTransferred := followedBefore })

/-! ## Resizing -/

def sizeOwnedWindows (sizing : WindowSizing) (targets : List String) : Run WindowSizing := do
  (ordered sizing.owned).forM fun entry =>
    (entry.2.pinned.filter targets.contains).forM fun id => do
      let _ ← (command (.window entry.1 id .resize)).run
  return sizing

/-! ## Handing back -/

def restorePinned (session : String) (owned : OwnedSession) : Run Bool :=
  owned.pinned.foldlM (fun handedBack id => do
    match ← (restoreWindowSize session id).run with
    | some .malformed => return false
    | some _ => return handedBack
    | none => return false) owned.releasable

def restoreSession (marker session : String) (owned : OwnedSession) : Run Unit := do
  match ← (windowDriver session).run with
  | some (some held) =>
    if held = marker then
      let handedBack ← restorePinned session owned
      if handedBack then
        let _ ← (releaseWindowDriver session).run
  | _ => return ()

def restoreOwnedSizing (sizing : WindowSizing) : Run WindowSizing := do
  match sizing.identity with
  | none => return { sizing with owned := ∅ }
  | some marker =>
    (ordered sizing.owned).forM fun entry => restoreSession marker entry.1 entry.2
    return { sizing with owned := ∅ }

/-! ## Reconnecting -/

/-- Move one session's mark to the new identity, or give the session up. -/
def rekeySession (stale marker : String) (sizing : WindowSizing) (session : String) :
    Run WindowSizing := do
  match ← (takeOverWindowDriver session stale marker).run with
  | some true => return sizing
  | _ => return { sizing with owned := sizing.owned.erase session }

/-- Move every owned session to the identity of a new connection. -/
def rekeyOwnership (sizing : WindowSizing) : Run WindowSizing := do
  let sizing := { sizing with following := [] }
  match sizing.identity with
  | none => return { sizing with owned := ∅ }
  | some stale =>
    let (sizing, identity) ← sizingIdentity { sizing with identity := none }
    match identity with
    | none => return { sizing with owned := ∅ }
    | some marker =>
      ((ordered sizing.owned).map (·.1)).foldlM (rekeySession stale marker) sizing

/-! ## Everybody together -/

structure Workspace where
  link : String
  /-- What is left of the running operation; the memory when none runs. -/
  program : Run WindowSizing

structure Release where
  session : String
  program : Run (Option ReleaseOutcome)

structure World where
  tmux : Tmux
  /-- The workspaces started so far; a crashed one is gone. -/
  workspaces : List (Option Workspace) := []
  releases : List Release := []

/-- The steps of clients, workspaces and releases. -/
inductive Event where
  | attach (marker : String)
  | detach (marker : String)
  | arrange (session : String) (windows : List String)
  | boot (marker : String)
  | adopt (i : Nat) (session : String) (tabs : List String)
  | resize (i : Nat) (targets : List String)
  | handBack (i : Nat)
  | reconnect (i : Nat) (marker : String)
  | crash (i : Nat)
  | workspace (i : Nat) (outcome : Outcome)
  | release (session : String)
  | operator (k : Nat) (outcome : Outcome)
  | kill (k : Nat)

/-- A new client; its marker is none the server has had. -/
def Tmux.connect (t : Tmux) (marker : String) : Tmux :=
  { t with clients := marker :: t.clients, known := marker :: t.known }

def Tmux.disconnect (t : Tmux) (marker : String) : Tmux :=
  { t with clients := t.clients.filter (· ≠ marker) }

namespace World

variable (w : World)

def workspace? (i : Nat) : Option Workspace :=
  (w.workspaces[i]?).join

def idle? (i : Nat) : Option (String × WindowSizing) :=
  match w.workspace? i with
  | some ⟨link, .done sizing⟩ => some (link, sizing)
  | _ => none

def setWorkspace (i : Nat) (workspace : Option Workspace) : World :=
  { w with workspaces := w.workspaces.set i workspace }

def start (i : Nat) (program : WindowSizing → Run WindowSizing) : World :=
  match w.idle? i with
  | some (link, sizing) => w.setWorkspace i (some ⟨link, program sizing⟩)
  | none => w

/-- One event, at the grain of single commands. -/
def step (w : World) : Event → World
  | .attach marker => if marker ∈ w.tmux.known then w else { w with tmux := w.tmux.connect marker }
  | .detach marker => { w with tmux := w.tmux.disconnect marker }
  | .arrange session windows =>
    { w with tmux.windows := update w.tmux.windows session windows }
  | .boot marker =>
    if marker ∈ w.tmux.known then w
    else { w with
      tmux := w.tmux.connect marker
      workspaces := w.workspaces ++ [some ⟨marker, .done {}⟩] }
  | .adopt i session tabs =>
    w.start i fun sizing => Prod.fst <$> adoptWindows sizing session tabs
  | .resize i targets => w.start i fun sizing => sizeOwnedWindows sizing targets
  | .handBack i => w.start i restoreOwnedSizing
  | .reconnect i marker =>
    match w.idle? i with
    | some (link, sizing) =>
      if marker ∈ w.tmux.known then w
      else { w.setWorkspace i (some ⟨marker, rekeyOwnership sizing⟩) with
        tmux := (w.tmux.disconnect link).connect marker }
    | none => w
  | .crash i =>
    match w.workspace? i with
    | some workspace =>
      { w.setWorkspace i none with tmux := w.tmux.disconnect workspace.link }
    | none => w
  | .workspace i outcome =>
    match w.workspace? i with
    | some ⟨link, .call c next⟩ =>
      let result := c.attempt link w.tmux (if link ∈ w.tmux.clients then outcome else .refused)
      { w.setWorkspace i (some ⟨link, next result.2⟩) with tmux := result.1 }
    | _ => w
  | .release session =>
    { w with releases := w.releases ++ [⟨session, (releaseSessionSizing session).run⟩] }
  | .operator k outcome =>
    match w.releases[k]? with
    | some ⟨session, .call c next⟩ =>
      let result := c.attempt "" w.tmux outcome
      { w with tmux := result.1, releases := w.releases.set k ⟨session, next result.2⟩ }
    | _ => w
  | .kill k =>
    match w.releases[k]? with
    | some release => { w with releases := w.releases.set k ⟨release.session, .done none⟩ }
    | none => w

end World

end Cyclops.Sizing
