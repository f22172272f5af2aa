import Cyclops.Mailbox.Snapshot
import Cyclops.Proto.State

/-!
# The attention register

What needs a human right now: blocked panes, alarms of the session record and open attempts of the
mailbox.
-/

namespace Cyclops

open FiniteMap

/-- States the pipeline cannot leave on its own. -/
def deliveryNeedsHuman (state : DeliveryState) : Bool :=
  state matches .attentionRequired | .parkedBlockedQuota

/-- The one name that identifies a pane across its whole life. -/
def agentKey (target : String) (paneId : Option String) : String :=
  paneId.getD target

structure PaneSnapshot where
  paneId : String
  name : String
  state : AgentState

/-- Who a delivery row is for. Rows without a recipient key are known by the label
they were addressed to. -/
inductive DeliveryRecipientIdentity where
  | exact (key : RecipientKey)
  | legacyLabel (label : String)
deriving DecidableEq

namespace DeliveryRecipientIdentity

def fromParts (recipient : Option RecipientKey) (label : String) : DeliveryRecipientIdentity :=
  match recipient with
  | some key => .exact key
  | none => .legacyLabel label

def isExact : DeliveryRecipientIdentity → Bool
  | .exact _ => true
  | .legacyLabel _ => false

def le : DeliveryRecipientIdentity → DeliveryRecipientIdentity → Bool
  | .exact a, .exact b => decide (a.orderKey ≤ b.orderKey)
  | .exact _, .legacyLabel _ => true
  | .legacyLabel _, .exact _ => false
  | .legacyLabel a, .legacyLabel b => decide (a ≤ b)

end DeliveryRecipientIdentity

abbrev DeliveryKey := DeliveryRecipientIdentity × String

def DeliveryKey.le (a b : DeliveryKey) : Bool :=
  if a.1 = b.1 then decide (a.2 ≤ b.2) else a.1.le b.1

abbrev DeliveryRows := Map DeliveryKey (String × DeliveryState)

/-- What an item is about. -/
inductive AttentionKey where
  | agent (paneId : String)
  | delivery (recipient : DeliveryRecipientIdentity) (id : String)

/-- One thing a human must deal with. `sentTo` is the source's `to`. -/
inductive AttentionItem where
  | agent (paneId name : String) (state : AgentState)
  | delivery (recipient : DeliveryRecipientIdentity) (sentTo id : String) (state : DeliveryState)
deriving DecidableEq

def AttentionItem.identity : AttentionItem → AttentionKey
  | .agent paneId _ _ => .agent paneId
  | .delivery recipient _ id _ => .delivery recipient id

/-- Why an item ended. -/
inductive Clearance where
  | moved | paneGone
deriving DecidableEq

structure Resolved where
  was : AttentionItem
  how : Clearance
deriving DecidableEq

/-! ## The union of the two delivery halves -/

/-- Both halves, the mailbox row standing where both have one. -/
def overlay (deliveries mailbox : DeliveryRows) : DeliveryRows :=
  mailbox.entries.foldl (fun rows row => rows.insert row.1 row.2) deliveries

def carries (label id : String) (row : Σ _ : DeliveryKey, String × DeliveryState) : Bool :=
  row.1.1.isExact && row.2.1 == label && row.1.2 == id

def carriers (rows : DeliveryRows) (label id : String) : Nat :=
  rows.entries.countP (carries label id)

/-- A row known by its label only, when exactly one exact row carries the label. -/
def isTwin (rows : DeliveryRows) (key : DeliveryKey) : Bool :=
  match key.1 with
  | .legacyLabel label => carriers rows label key.2 == 1
  | .exact _ => false

/-- The union of the halves without the twins of exact rows. -/
def unionOf (deliveries mailbox : DeliveryRows) : DeliveryRows :=
  let rows := overlay deliveries mailbox
  retain (fun key _ => !isTwin rows key) rows

def uniqueExactIn (union : DeliveryRows) (label id : String) : Option DeliveryRecipientIdentity :=
  match union.entries.filter (carries label id) with
  | [row] => some row.1.1
  | _ => none

/-! ## The register -/

/-- Everything that needs a human. `union` is kept beside its halves. -/
structure Attention where
  agents : Map String (String × AgentState)
  deliveries : DeliveryRows
  mailbox : DeliveryRows
  union : DeliveryRows

namespace Attention

def empty : Attention :=
  ⟨∅, ∅, ∅, ∅⟩

def rebuildUnion (register : Attention) : Attention :=
  { register with union := unionOf register.deliveries register.mailbox }

/-- The rows that need a human. The last row of a key stands. -/
def keyed (rows : List OpenDelivery) : DeliveryRows :=
  (rows.filter fun row => deliveryNeedsHuman row.state).foldl (fun kept row =>
      kept.insert (.fromParts row.recipient row.sentTo, row.id) (row.sentTo, row.state))
    ∅

def snapshotAgents (register : Attention) (panes : List PaneSnapshot) : Attention :=
  { register with
    agents := panes.foldl (fun agents pane => agents.insert pane.paneId (pane.name, pane.state)) ∅ }

def snapshotDeliveries (register : Attention) (rows : List OpenDelivery) : Attention :=
  rebuildUnion { register with deliveries := keyed rows }

def dropAbsent (mailbox deliveries : DeliveryRows)
    (row : Σ _ : DeliveryKey, String × DeliveryState) : DeliveryRows :=
  let deliveries := deliveries.erase row.1
  let label := row.2.1
  match row.1.1 with
  | .legacyLabel _ => deliveries
  | .exact _ =>
    let anotherExact := (mailbox.entries ++ deliveries.entries).any fun other =>
      other.1.1 != row.1.1 && carries label row.1.2 other
    if anotherExact then deliveries else deliveries.erase (.legacyLabel label, row.1.2)

/-- Replace the mailbox half. A key it carried and carries no more is gone from the
legacy half too. -/
def snapshotMailbox (register : Attention) (rows : List OpenDelivery) : Attention :=
  let next := keyed rows
  let absent := (register.mailbox.entries.filter fun row => decide (row.1 ∉ next)).insertionSort
    fun a b => DeliveryKey.le a.1 b.1 = true
  rebuildUnion { register with
      deliveries := absent.foldl (dropAbsent register.mailbox) register.deliveries
      mailbox := next }

/-- A label reaches an exact row only when exactly one exact row carries it for that message. -/
def resolve (register : Attention) (recipient : Option RecipientKey) (sentTo id : String) :
    DeliveryKey :=
  match recipient with
  | some key => (.exact key, id)
  | none =>
    match uniqueExactIn register.union sentTo id with
    | some identity => (identity, id)
    | none => (.legacyLabel sentTo, id)

def observeAgent (register : Attention) (target : String) (paneId : Option String)
    (state : AgentState) : Attention × Option Resolved :=
  let key := agentKey target paneId
  let resolved := match register.agents.lookup key with
    | none => none
    | some (name, was) =>
      -- One blocked state replacing another is not a clearance.
      if was.isBlocked && !state.isBlocked then some ⟨.agent key name was, .moved⟩ else none
  ({ register with agents := register.agents.insert key (target, state) }, resolved)

def forgetAgent (register : Attention) (paneId : String) : Attention × Option Resolved :=
  let resolved := match register.agents.lookup paneId with
    | none => none
    | some (name, was) => if was.isBlocked then some ⟨.agent paneId name was, .paneGone⟩ else none
  ({ register with agents := register.agents.erase paneId }, resolved)

/-- One delivery's latest state. Events move the legacy half. -/
def observeDelivery (register : Attention) (sentTo : String) (recipient : Option RecipientKey)
    (id : Option String) (state : DeliveryState) : Attention × Option Resolved :=
  let key := register.resolve recipient sentTo (id.getD "")
  if deliveryNeedsHuman state then
    (rebuildUnion { register with deliveries := register.deliveries.insert key (sentTo, state) },
      none)
  else
    let resolved := match register.deliveries.lookup key with
      | none => none
      | some (label, was) => some ⟨.delivery key.1 label key.2 was, .moved⟩
    (rebuildUnion { register with deliveries := register.deliveries.erase key }, resolved)

/-- How an item the register does not hold stopped needing a human. -/
def clearance (register : Attention) : AttentionKey → Option Clearance
  | .agent paneId =>
    match register.agents.lookup paneId with
    | some (_, state) => if state.isBlocked then none else some .moved
    | none => some .paneGone
  | .delivery recipient id => if (recipient, id) ∈ register.union then none else some .moved

def holds (register : Attention) (key : AttentionKey) : Bool :=
  (register.clearance key).isNone

def items (register : Attention) : List AttentionItem :=
  ((register.agents.entries.filter fun row => row.2.2.isBlocked).map fun row =>
      .agent row.1 row.2.1 row.2.2) ++
    register.union.entries.map fun row => .delivery row.1.1 row.2.1 row.1.2 row.2.2

/-- The calls on the register. -/
inductive Op where
  | observeAgent (target : String) (paneId : Option String) (state : AgentState)
  | forgetAgent (paneId : String)
  | observeDelivery (sentTo : String) (recipient : Option RecipientKey) (id : Option String)
      (state : DeliveryState)
  | snapshotAgents (panes : List PaneSnapshot)
  | snapshotDeliveries (rows : List OpenDelivery)
  | snapshotMailbox (rows : List OpenDelivery)

def step (register : Attention) : Op → Attention
  | .observeAgent target paneId state => (register.observeAgent target paneId state).1
  | .forgetAgent paneId => (register.forgetAgent paneId).1
  | .observeDelivery sentTo recipient id state =>
    (register.observeDelivery sentTo recipient id state).1
  | .snapshotAgents panes => register.snapshotAgents panes
  | .snapshotDeliveries rows => register.snapshotDeliveries rows
  | .snapshotMailbox rows => register.snapshotMailbox rows

def run (ops : List Op) : Attention :=
  ops.foldl step empty

end Attention

end Cyclops
