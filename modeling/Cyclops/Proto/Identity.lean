import Mathlib.Algebra.GroupWithZero.Nat
import Mathlib.Data.List.Lex
import Mathlib.Data.List.Sort

/-!
# Durable identities

The identities shared by journal records and routing: workspaces, session and agent instances,
panes, processes, and the recipient key that names a mailbox independently of any display label.
-/

namespace Cyclops

/-! ## UUIDs -/

/-- A 128-bit UUID. Its byte order is the order of its value. -/
abbrev Uuid := BitVec 128

def hexDigit (n : Nat) : Char :=
  if n < 10 then Char.ofNat (48 + n) else Char.ofNat (87 + n)

def hexDigits : Nat → Nat → List Char
  | 0, _ => []
  | count + 1, n => hexDigits count (n / 16) ++ [hexDigit (n % 16)]

def Uuid.simple (uuid : Uuid) : List Char :=
  hexDigits 32 uuid.toNat

def Uuid.hyphenated (uuid : Uuid) : String :=
  let digits := uuid.simple
  String.ofList ((digits.take 8) ++ '-' :: ((digits.drop 8).take 4) ++ '-' ::
    ((digits.drop 12).take 4) ++ '-' :: ((digits.drop 16).take 4) ++ '-' :: digits.drop 20)

theorem Uuid.one_ne_zero : (1 : Uuid) ≠ 0 := by decide

theorem Uuid.two_ne_zero : (2 : Uuid) ≠ 0 := by decide

/-- A UUID other than the nil one. -/
structure DurableId where
  uuid : Uuid
  nonNil : uuid ≠ 0
deriving DecidableEq

structure WorkspaceId where
  id : DurableId
deriving DecidableEq

structure SessionInstanceId where
  id : DurableId
deriving DecidableEq

structure AgentInstanceId where
  id : DurableId
deriving DecidableEq

/-- A tmux `%<decimal>` pane id. -/
structure TmuxPaneId where
  number : Nat
deriving DecidableEq

def TmuxPaneId.text (pane : TmuxPaneId) : String :=
  "%" ++ toString pane.number

structure ProcessInstanceId where
  pid : Nat
  birth : Nat
  pidPositive : 0 < pid
  birthPositive : 0 < birth
deriving DecidableEq

/-! ## Recipients -/

/-- Who a mailbox belongs to. -/
inductive Recipient where
  | admin
  | agent (sessionInstanceId : SessionInstanceId) (paneId : TmuxPaneId)
  | headless (agentInstanceId : AgentInstanceId)
deriving DecidableEq

/-- A logical mailbox recipient independent of mutable display labels. -/
structure RecipientKey where
  workspaceId : WorkspaceId
  recipient : Recipient
deriving DecidableEq

namespace RecipientKey

def admin (workspaceId : WorkspaceId) : RecipientKey :=
  ⟨workspaceId, .admin⟩

def isAdmin (key : RecipientKey) : Bool :=
  match key.recipient with
  | .admin => true
  | _ => false

def paneId (key : RecipientKey) : Option TmuxPaneId :=
  match key.recipient with
  | .agent _ pane => some pane
  | _ => none

def text (key : RecipientKey) : String :=
  let workspace := key.workspaceId.id.uuid.hyphenated
  match key.recipient with
  | .admin => "admin:" ++ workspace
  | .agent session pane =>
    "agent:" ++ workspace ++ "/" ++ session.id.uuid.hyphenated ++ "/" ++ pane.text
  | .headless instance_ => "headless:" ++ workspace ++ "/" ++ instance_.id.uuid.hyphenated

def orderKey (key : RecipientKey) : List Nat :=
  key.workspaceId.id.uuid.toNat ::
    match key.recipient with
    | .admin => [0]
    | .agent session pane => [1, session.id.uuid.toNat, pane.number]
    | .headless instance_ => [2, instance_.id.uuid.toNat]

end RecipientKey

def sortRecipients (keys : List RecipientKey) : List RecipientKey :=
  keys.insertionSort fun a b => a.orderKey ≤ b.orderKey

end Cyclops
