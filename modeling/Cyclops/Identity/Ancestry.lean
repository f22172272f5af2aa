import Mathlib.Data.List.Chain

/-!
# Walks over the process table

Who a peer is, from the chain of its parents: the operator, a pane, or nobody that can be proven.
-/

namespace Cyclops.Identity

/-- A process: a reused pid has another birth. -/
structure ProcId where
  pid : Int
  birth : Nat
deriving DecidableEq

/-- Whether a process is an agent. -/
inductive Vendorship where
  | vendor | notVendor
  | unprovable
deriving DecidableEq

structure ProcessTable where
  birthOf : Int → Option Nat
  parentOf : Int → Option Int
  /-- The owner of a process that cannot be read, where the kernel still names it. -/
  foreignOwner : Int → Option Nat
  vendorship : Int → Vendorship

/-- Reads of the processes one after another: each read meets the table of its
moment. -/
abbrev Observe := ReaderT (Nat → ProcessTable) (StateM Nat)

def Observe.read {α : Type} (f : ProcessTable → α) : Observe α :=
  fun world t => (f (world t), t + 1)

def ProcId.of (pid : Int) : Observe (Option ProcId) := do
  if pid > 0 then
    match ← Observe.read (·.birthOf pid) with
    | some birth => return some ⟨pid, birth⟩
    | none => return none
  else return none

def ProcId.stillLive (process : ProcId) : Observe Bool := do
  return (← Observe.read (·.birthOf process.pid)) == some process.birth

/-- The next process of a chain, or its end. -/
inductive OriginParent where
  | process (parent : ProcId)
  | top
deriving DecidableEq

/-- The parent of a process. Two reads of the child's own identity bracket the
lookup. -/
def originParentIdent (daemonUid : Nat) (child : ProcId) : Observe (Option OriginParent) := do
  if (← ProcId.of child.pid) ≠ some child then return none
  else
    match ← Observe.read (·.parentOf child.pid) with
    | none => return none
    | some ppid =>
      if (← ProcId.of child.pid) ≠ some child then return none
      else if ppid ≤ 1 then return some .top
      else
        match ← ProcId.of ppid with
        | some parent => return some (.process parent)
        | none =>
          match ← Observe.read (·.foreignOwner ppid) with
          | some uid => return if uid ≠ daemonUid then some .top else none
          | none => return none

/-! ## The walks -/

def maxAncestryDepth : Nat := 32

structure PaneRow where
  paneId : String
  label : Option String
  root : ProcId

/-- Who a peer is taken for. -/
inductive PeerOrigin where
  | admin
  | pane (paneId : String) (label : Option String) (paneRoot : ProcId) (vendorBelow : Bool)
  | unprovable
deriving DecidableEq

/-- The agent a headless registration is for. -/
inductive HeadlessRoot where
  | vendor (root : ProcId)
  | insidePane (paneId : String)
  | noVendor
  | unprovable
deriving DecidableEq

section Walks

variable (isVendor : ProcId → Observe Vendorship)
  (parent : ProcId → Observe (Option OriginParent)) (isLive : ProcId → Observe Bool)

def linksAreCurrent : List ProcId → Observe Bool
  | child :: next :: rest => do
    if (← parent child) = some (.process next) then linksAreCurrent (next :: rest)
    else return false
  | _ => return true

def pathIsCurrent (path : List ProcId) : Observe Bool := do
  match path with
  | [] => return false
  | first :: _ => if ← isLive first then linksAreCurrent parent path else return false

def pathIsCurrentToTop (path : List ProcId) : Observe Bool := do
  if ← pathIsCurrent parent isLive path then
    match path.getLast? with
    | some process => return (← parent process) == some .top
    | none => return false
  else return false

/-- The loop of `resolvePeerOriginWith`, with the hops it has left. -/
def originWalk (panes : List PaneRow) :
    Nat → ProcId → List ProcId → Bool → Observe PeerOrigin
  | 0, _, _, _ => return .unprovable
  | hops + 1, current, seen, vendorBelow => do
    if current.pid ≤ 0 ∨ current ∈ seen then return .unprovable
    else
      let path := seen ++ [current]
      match panes.find? (·.root = current) with
      | some pane =>
        match ← isVendor current with
        | .unprovable => return .unprovable
        | vendorship =>
          if ← pathIsCurrent parent isLive path then
            return .pane pane.paneId pane.label pane.root (vendorship == .vendor || vendorBelow)
          else return .unprovable
      | none =>
        match ← isVendor current with
        | .unprovable => return .unprovable
        | vendorship =>
          let vendorBelow := vendorship == .vendor || vendorBelow
          match ← parent current with
          | some (.process next) => originWalk panes hops next path vendorBelow
          | some .top =>
            if vendorBelow then return .unprovable
            else if ← pathIsCurrentToTop parent isLive path then return .admin
            else return .unprovable
          | none => return .unprovable

def resolvePeerOriginWith (start : ProcId) (panes : List PaneRow) : Observe PeerOrigin :=
  originWalk isVendor parent isLive panes maxAncestryDepth start [] false

def headlessWalk (paneRoots : List (String × ProcId)) :
    Nat → ProcId → List ProcId → Option ProcId → Observe HeadlessRoot
  | 0, _, _, _ => return .unprovable
  | hops + 1, current, seen, nearestVendor => do
    if current.pid ≤ 0 ∨ current ∈ seen then return .unprovable
    else
      let path := seen ++ [current]
      match paneRoots.find? (·.2 = current) with
      | some (paneId, _) => return .insidePane paneId
      | none =>
        match ← isVendor current with
        | .unprovable => return .unprovable
        | vendorship =>
          let nearestVendor :=
            if vendorship = .vendor then nearestVendor.or (some current) else nearestVendor
          match ← parent current with
          | some (.process next) => headlessWalk paneRoots hops next path nearestVendor
          | some .top =>
            if ← pathIsCurrentToTop parent isLive path then
              match nearestVendor with
              | some root => return .vendor root
              | none => return .noVendor
            else return .unprovable
          | none => return .unprovable

def headlessRootWith (start : ProcId) (paneRoots : List (String × ProcId)) : Observe HeadlessRoot :=
  headlessWalk isVendor parent isLive paneRoots maxAncestryDepth start [] none

end Walks

section Peer

variable (daemonUid : Nat)

def isVendorNow (process : ProcId) : Observe Vendorship :=
  Observe.read (·.vendorship process.pid)

def resolvePeerOriginObserved (pid : Int) (panes : List PaneRow) : Observe PeerOrigin := do
  match ← ProcId.of pid with
  | none => return .unprovable
  | some start =>
    resolvePeerOriginWith isVendorNow (originParentIdent daemonUid) ProcId.stillLive start panes

def headlessRoot (pid : Int) (paneRoots : List (String × ProcId)) : Observe HeadlessRoot := do
  match ← ProcId.of pid with
  | none => return .unprovable
  | some start =>
    headlessRootWith isVendorNow (originParentIdent daemonUid) ProcId.stillLive start paneRoots

end Peer

end Cyclops.Identity
