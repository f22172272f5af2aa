import Cyclops.Lib.Checked
import Cyclops.Lib.FiniteMap
import Cyclops.Mailbox.Error

/-!
# The mailbox directory

Recipient resolution and display labels.
-/

namespace Cyclops

open Checked FiniteMap

structure MailboxIdentity where
  key : RecipientKey
  label : String

structure MailboxSend where
  addresses : List String
  recipientKeys : Option (List RecipientKey)
  subject : String
  summary : Option String
  body : String
  fyi : Bool
  clientKey : Option String
  supersedes : Option MessageId
  raw : Bool

/-- Refusals of the directory. -/
inductive MailboxDirectoryError where
  | foreignWorkspace
  | adminEntry
  | invalidLabel
  | duplicateAddress (address : String)
  | unknownRecipient (address : String)
  | mixedRecipientSelectors
  | mixedBroadcast

structure MailboxDirectory where
  workspaceId : WorkspaceId
  byAddress : Map String MailboxIdentity
  byPane : Map TmuxPaneId MailboxIdentity
  byRecipient : Map RecipientKey MailboxIdentity

/-! ## Labels -/

def isDisplayLabel (label : String) : Bool :=
  !label.toList.isEmpty && !label.toList.any isControl

def validateDisplayLabel (kind label : String) : Except MailboxError Unit :=
  refuseIf (isDisplayLabel label = false)
    (.invalidPresentation (kind ++ " label must be non-empty and contain no control characters"))

def recipientLabelsFrom (index : Nat) :
    List RecipientKey → List RecipientPresentation → Except MailboxError (List String)
  | expected :: recipients, snapshot :: snapshots => do
    refuseIf (snapshot.recipient ≠ expected)
      (.invalidPresentation ("recipient label " ++ toString index ++ " is bound to '" ++
        snapshot.recipient.text ++ "', expected '" ++ expected.text ++ "'"))
    validateDisplayLabel "recipient" snapshot.label
    let labels ← recipientLabelsFrom (index + 1) recipients snapshots
    return snapshot.label :: labels
  | _, _ => return []

/-- The sender label and the recipient labels of a presentation, in order. -/
def presentationLabels (recipients : List RecipientKey) (presentation : MessagePresentation) :
    Except MailboxError (String × List String) := do
  validateDisplayLabel "sender" presentation.senderLabel
  refuseIf (presentation.recipientLabels.length ≠ recipients.length)
    (.invalidPresentation ("expected " ++ toString recipients.length ++
      " recipient labels, found " ++ toString presentation.recipientLabels.length))
  let labels ← recipientLabelsFrom 0 recipients presentation.recipientLabels
  return (presentation.senderLabel, labels)

def replySubject (parent : Option String) : Option String :=
  parent.map fun subject =>
    if "Re: ".toList.isPrefixOf subject.toList then subject else "Re: " ++ subject

/-! ## Building a directory -/

def MailboxDirectory.addAgent (directory : MailboxDirectory) (identity : MailboxIdentity) :
    Except MailboxDirectoryError MailboxDirectory := do
  refuseIf (identity.key.workspaceId ≠ directory.workspaceId) .foreignWorkspace
  refuseIf (identity.key.isAdmin = true) .adminEntry
  refuseIf (isDisplayLabel identity.label = false) .invalidLabel
  let pane := identity.key.paneId
  -- A label that is just the pane's own id is entered with the panes below.
  let named := pane.map TmuxPaneId.text ≠ some identity.label
  refuseIf (named ∧ identity.label ∈ directory.byAddress) (.duplicateAddress identity.label)
  let byAddress :=
    if named then directory.byAddress.insert identity.label identity else directory.byAddress
  refuseIf (identity.key ∈ directory.byRecipient)
    (.duplicateAddress ((pane.map TmuxPaneId.text).getD identity.key.text))
  return { directory with
    byAddress, byRecipient := directory.byRecipient.insert identity.key identity }

def MailboxDirectory.addPane (agents : List MailboxIdentity) (directory : MailboxDirectory)
    (pane : TmuxPaneId) : Except MailboxDirectoryError MailboxDirectory :=
  match agents.filter fun identity => identity.key.paneId = some pane with
  | [identity] => do
    refuseIf (pane.text ∈ directory.byAddress) (.duplicateAddress pane.text)
    return { directory with
      byAddress := directory.byAddress.insert pane.text identity
      byPane := directory.byPane.insert pane identity }
  | _ => return directory

def MailboxDirectory.new (workspaceId : WorkspaceId) (agents : List MailboxIdentity) :
    Except MailboxDirectoryError MailboxDirectory := do
  let directory ← agents.foldlM addAgent ⟨workspaceId, ∅, ∅, ∅⟩
  (agents.filterMap fun identity => identity.key.paneId).dedup.foldlM (addPane agents) directory

/-! ## Resolving recipients -/

namespace MailboxDirectory

variable (directory : MailboxDirectory)

def admin : MailboxIdentity :=
  ⟨.admin directory.workspaceId, "admin"⟩

def identityForRecipient (recipient : RecipientKey) : Option MailboxIdentity :=
  if recipient = directory.admin.key then some directory.admin
  else directory.byRecipient.lookup recipient

def firstOccurrences (seen : List RecipientKey) : List MailboxIdentity → List MailboxIdentity
  | [] => []
  | identity :: rest =>
    if identity.key ∈ seen then firstOccurrences seen rest
    else identity :: firstOccurrences (identity.key :: seen) rest

def resolveAddress (address : String) : Except MailboxDirectoryError MailboxIdentity :=
  if address = "admin" then .ok directory.admin
  else orRefuse (directory.byAddress.lookup address) (.unknownRecipient address)

/-- Resolve display addresses; `"*"` alone is every agent. -/
def resolve (addresses : List String) : Except MailboxDirectoryError (List MailboxIdentity) :=
  if addresses = ["*"] then
    .ok ((values directory.byRecipient).insertionSort fun a b =>
      a.key.orderKey ≤ b.key.orderKey)
  else do
    refuseIf ("*" ∈ addresses) .mixedBroadcast
    let identities ← addresses.mapM directory.resolveAddress
    return firstOccurrences [] identities

def resolveRecipientKey (recipient : RecipientKey) :
    Except MailboxDirectoryError MailboxIdentity := do
  refuseIf (recipient.workspaceId ≠ directory.workspaceId) .foreignWorkspace
  orRefuse (directory.identityForRecipient recipient) (.unknownRecipient recipient.text)

def resolveRecipientKeys (recipients : List RecipientKey) :
    Except MailboxDirectoryError (List MailboxIdentity) := do
  let identities ← recipients.mapM directory.resolveRecipientKey
  return firstOccurrences [] identities

end MailboxDirectory

end Cyclops
