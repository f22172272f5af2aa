import Cyclops.Lib.Runs
import Cyclops.Mailbox.Coherence

/-!
# The board

What the mailbox is for, without its maps and its rows: recipients have lanes of messages, each
message of a lane has an entry and at most one current record, and an attempt that wrote to a
composer holds a barrier there until it is released.
-/

namespace Cyclops

open Checked FiniteMap Function Option

/-- Lanes, entries, records and barriers as plain functions. -/
@[ext] structure Board where
  lane : RecipientKey → List MessageId
  entry : EntryKey → Option MailboxEntryState
  record : EntryKey → Option NotificationRecord
  barrier : NotificationAttemptId → Option NotificationRecord
  written : NotificationAttemptId → Option Nat
  issued : Finset NotificationAttemptId

/-- What can happen on the board. -/
inductive Action where
  | file (messageId : MessageId) (recipients : List RecipientKey)
  | settle (key : EntryKey) (state : MailboxEntryState)
  | supersede (key : EntryKey) (state : MailboxEntryState) (record : Option NotificationRecord)
  | start (key : EntryKey) (record : NotificationRecord)
  | move (key : EntryKey) (record : NotificationRecord) (seq : Nat)
  | put (key : EntryKey) (record : NotificationRecord)
  | release (attemptId : NotificationAttemptId)

/-- The actions of a row. A claimed record is settled before its entry, and a
barrier released before its record. -/
def PreparedMutation.actions (line : LedgerLine) : PreparedMutation → List Action
  | .message messageId metadata update =>
    (match metadata.supersedes, metadata.recipients with
      | some target, r :: _ =>
        [.supersede (r, target) (.superseded messageId line.ts)
          (update.map NotificationProjectionUpdate.record)]
      | _, _ => []) ++
      [.file messageId metadata.recipients]
  | .claim messageId recipient claimant update =>
    (update.map fun update => Action.move update.key update.record line.seq).toList ++
      [.settle (recipient, messageId) (.claimed claimant line.ts)]
  | .deliveredDirect messageId recipient attemptId =>
    [.settle (recipient, messageId) (.deliveredDirect attemptId line.ts)]
  | .notification key record true => [.start key record]
  | .notification key record false => [.move key record line.seq]
  | .notificationRequeues records => records.map fun requeued => .start requeued.1 requeued.2
  | .notificationWithdrawnBeforeWrite key record => [.put key record]
  | .notificationResolvedWithoutTerminalAction attemptId _ => [.release attemptId]
  | .notificationResolved attemptId _ => [.release attemptId]
  | .notificationClaimedStagedCleared key record attemptId =>
    [.release attemptId, .put key record]
  | .notificationClaimedAckTimeoutReconciled key record attemptId =>
    [.release attemptId, .put key record]
  | .notificationBarrierRetired attemptId => [.release attemptId]
  | _ => []

namespace Board

variable (b : Board)

def track (record : NotificationRecord) (seq : Nat) : Board :=
  if isBoundWrite record then
    { b with
      barrier := fun a =>
        if a = record.attemptId then some record
        else (b.barrier a).filter fun active => active.recipient != record.recipient
      written := update b.written record.attemptId (some seq) }
  else if isProvenUnwritten record then
    { b with
      barrier := update b.barrier record.attemptId none
      written := update b.written record.attemptId none }
  else
    { b with
      barrier := fun a =>
        if a = record.attemptId ∧ (b.barrier a).isSome = true then some record else b.barrier a }

def hold (key : EntryKey) (record : NotificationRecord) : Board :=
  { b with record := update b.record key (some record) }

def act : Action → Board
  | .file messageId recipients =>
    { b with
      lane := fun r => if r ∈ recipients then b.lane r ++ [messageId] else b.lane r
      entry := fun key =>
        if key.1 ∈ recipients ∧ key.2 = messageId then some .pending else b.entry key }
  | .settle key state => { b with entry := update b.entry key (some state) }
  | .supersede key state record =>
    { b with
      entry := update b.entry key (some state)
      record := match record with
        | some record => update b.record key (some record)
        | none => b.record }
  | .start key record => { b.hold key record with issued := insert record.attemptId b.issued }
  | .move key record seq => (b.track record seq).hold key record
  | .put key record => b.hold key record
  | .release attemptId => { b with barrier := update b.barrier attemptId none }

variable {record : NotificationRecord} {seq : Nat} {b : Board} {key : EntryKey} {rp : Bool}
  {s : MailboxEntryState}
  {action : Action}

@[simp] theorem track_lane : (b.track record seq).lane = b.lane := by
  unfold track
  split_ifs <;> rfl

@[simp] theorem track_entry : (b.track record seq).entry = b.entry := by
  unfold track
  split_ifs <;> rfl

@[simp] theorem track_record : (b.track record seq).record = b.record := by
  unfold track
  split_ifs <;> rfl

@[simp] theorem track_issued : (b.track record seq).issued = b.issued := by
  unfold track
  split_ifs <;> rfl

theorem act_settle_move {key' : EntryKey} : (b.act (.settle key s)).act (.move key' record seq) =
      (b.act (.move key' record seq)).act (.settle key s) := by
  simp only [act, track]
  split
  · rfl
  · split <;> rfl

theorem act_entry_ne_none (h : b.entry key ≠ none) (action : Action) :
    (b.act action).entry key ≠ none := by
  cases action with
  | file =>
    simp only [act]
    split
    · exact some_ne_none _
    · exact h
  | settle | supersede =>
    simp only [act, update_apply]
    split
    · exact some_ne_none _
    · exact h
  | move => simpa [act, hold] using h
  | start | put | release => exact h

theorem hold_record_ne_none (h : b.record key ≠ none) (key' : EntryKey)
    (record : NotificationRecord) : (b.hold key' record).record key ≠ none := by
  simp only [hold, update_apply]
  split
  · exact some_ne_none _
  · exact h

theorem act_record_ne_none (h : b.record key ≠ none) (action : Action) :
    (b.act action).record key ≠ none := by
  cases action with
  | file | settle | release => exact h
  | supersede key' s record =>
    cases record with
    | none => exact h
    | some record => exact hold_record_ne_none h key' record
  | move key' record => exact hold_record_ne_none (by simpa using h) key' record
  | start key' record | put key' record => exact hold_record_ne_none h key' record

def Claimed (key : EntryKey) : Prop :=
  ∃ at_, b.entry key = some (.claimed key.1 at_)

/-- How the current record of an entry may move. -/
inductive Moves (replaying : Bool) (key : EntryKey) (current : NotificationRecord) :
    NotificationRecord → Prop
  | transition (line : LedgerLine) (fact : NotificationTransition)
      (recipient : fact.recipient = key.1) (messageId : fact.messageId = key.2)
      (checked : TransitionChecked fact replaying (some current)) :
      Moves replaying key current (transitionRecord line fact current)
  | reminded (line : LedgerLine) (pending : b.entry key = some .pending)
      (notified : current.state = .notified) (doorbell : current.transport = .doorbell)
      (unused : current.unclaimedReminderCount = 0)
      (released : b.barrier current.attemptId = none) :
      Moves replaying key current (remindedRecord line current)
  | settled (line : LedgerLine) (pending : b.entry key = some .pending)
      (changed : current.state.settledByClaim current.transport ≠ current.state) :
      Moves replaying key current (settledRecord line current)

/-- How the current record of an entry may end outside its composer. -/
inductive Ends (replaying : Bool) (key : EntryKey) (current : NotificationRecord) :
    NotificationRecord → Prop
  | withdrawn (line : LedgerLine) (attempt : AttemptRef) (recipient : attempt.recipient = key.1)
      (messageId : attempt.messageId = key.2) (same : attempt.attemptId = current.attemptId)
      (unwritten : current.state.canWithdrawBeforeWrite = true ∨
        replaying = true ∧ withdrawnByClaimBeforeWrite current = true) :
      Ends replaying key current (withdrawnRecord line attempt current)
  | stagedCleared (line : LedgerLine) (claimed : b.Claimed key) (staged : current.state = .staged)
      (released : b.barrier current.attemptId = none) :
      Ends replaying key current (stagedClearedRecord line current)
  | reconciled (line : LedgerLine) (claimed : b.Claimed key)
      (attention : current.state = .attentionRequired)
      (released : b.barrier current.attemptId = none) :
      Ends replaying key current (reconciledRecord line current)

/-- States an attempt may be replaced in: it has not crossed its write boundary. -/
def preWrite (state : NotificationState) : Bool :=
  state matches .queued | .gating | .blockedPreWrite | .quotaHeld | .quotaResetObserved |
    .withdrawnByOperator

/-- What a pending entry may be settled to, and when. -/
def Settles (key : EntryKey) : MailboxEntryState → Prop
  | .claimed claimant _ => claimant = key.1 ∧ ∀ record, b.record key = some record →
      record.state.settledByClaim record.transport = record.state
  | .deliveredDirect _ _ => ∃ record, b.record key = some record ∧ record.state = .notified ∧
      record.transport = .directPayload
  | _ => False

/-- When an action may happen. -/
def Guard (replaying : Bool) (b : Board) : Action → Prop
  | .file messageId recipients =>
    recipients.Nodup ∧ ∀ r, b.entry (r, messageId) = none ∧ messageId ∉ b.lane r
  | .settle key state => b.entry key = some .pending ∧ b.Settles key state
  | .supersede key state record =>
    b.entry key = some .pending ∧ (∃ by_ at_, state = .superseded by_ at_) ∧
      (∃ line, record = (b.record key).map (supersededRecord line)) ∧
      ∀ current, b.record key = some current → preWrite current.state = true
  | .start key record =>
    b.entry key = some .pending ∧ record.attemptId ∉ b.issued ∧ key.1.isAdmin = false ∧
      (∃ line, record = queuedRecord line record.attemptId key.2 key.1) ∧
      ∀ current, b.record key = some current →
        current.state = .attentionRequired ∨ current.state = .quotaResetObserved
  | .move key record _ => ∃ current, b.record key = some current ∧
      b.Moves replaying key current record
  | .put key record => ∃ current, b.record key = some current ∧
      b.Ends replaying key current record
  | .release _ => True

/-- How the current record of an entry changes in one action. -/
inductive RecordStep (replaying : Bool) (b : Board) (key : EntryKey) :
    Option NotificationRecord → NotificationRecord → Prop
  | kept (record : NotificationRecord) : RecordStep replaying b key (some record) record
  | started (prior : Option NotificationRecord) (line : LedgerLine)
      (attemptId : NotificationAttemptId) (fresh : attemptId ∉ b.issued) :
      RecordStep replaying b key prior (queuedRecord line attemptId key.2 key.1)
  | superseded (line : LedgerLine) (current : NotificationRecord) :
      RecordStep replaying b key (some current) (supersededRecord line current)
  | moved {current record : NotificationRecord} (moves : b.Moves replaying key current record) :
      RecordStep replaying b key (some current) record
  | ended {current record : NotificationRecord} (ends : b.Ends replaying key current record) :
      RecordStep replaying b key (some current) record

theorem hold_record_cases {key' : EntryKey} {o : NotificationRecord}
    (held : (b.hold key' o).record key = some record) :
    key = key' ∧ record = o ∨ b.record key = some record := by
  by_cases hk : key = key'
  · subst hk
    exact .inl ⟨rfl, by simpa [hold] using held.symm⟩
  · exact .inr (by simpa [hold, hk] using held)

/-- How a record can be current after an action. -/
inductive Recorded (b : Board) (key : EntryKey) (record : NotificationRecord) : Action → Prop
  | kept {action : Action} (held : b.record key = some record) : Recorded b key record action
  | superseded {state : MailboxEntryState} {other : Option NotificationRecord} {line : LedgerLine}
      {current : NotificationRecord} (held : b.record key = some current)
      (same : record = supersededRecord line current) :
      Recorded b key record (.supersede key state other)
  | started : Recorded b key record (.start key record)
  | moved {seq : Nat} : Recorded b key record (.move key record seq)
  | ended : Recorded b key record (.put key record)

theorem recorded_act (hg : b.Guard rp action)
    (held : (b.act action).record key = some record) : b.Recorded key record action := by
  cases action with
  | file | settle | release => exact .kept held
  | supersede key' =>
    obtain ⟨-, -, ⟨line, rfl⟩, -⟩ := hg
    cases hc : b.record key' with
    | none => exact .kept (by simpa [act, hc] using held)
    | some c =>
      have hh : (b.hold key' (supersededRecord line c)).record key = some record := by
        simpa [act, hold, hc] using held
      rcases hold_record_cases hh with ⟨rfl, rfl⟩ | hh
      · exact .superseded hc rfl
      · exact .kept hh
  | start =>
    rcases hold_record_cases held with ⟨rfl, rfl⟩ | hh
    · exact .started
    · exact .kept hh
  | move =>
    rcases hold_record_cases held with ⟨rfl, rfl⟩ | hh
    · exact .moved
    · exact .kept (by simpa using hh)
  | put =>
    rcases hold_record_cases held with ⟨rfl, rfl⟩ | hh
    · exact .ended
    · exact .kept hh

theorem record_act (hg : b.Guard rp action) (held : (b.act action).record key = some record) :
    RecordStep rp b key (b.record key) record := by
  cases recorded_act hg held with
  | kept hk => exact hk ▸ .kept record
  | superseded hc hs => exact hc ▸ hs ▸ .superseded _ _
  | started =>
    obtain ⟨-, hf, -, ⟨line, hq⟩, -⟩ := hg
    rw [hq]
    exact .started _ line _ hf
  | moved =>
    obtain ⟨c, hc, hm⟩ := hg
    exact hc ▸ .moved hm
  | ended =>
    obtain ⟨c, hc, he⟩ := hg
    exact hc ▸ .ended he

/-- How an entry can be in a state after an action. -/
inductive Entered (b : Board) (key : EntryKey) (state : MailboxEntryState) : Action → Prop
  | kept {action : Action} (held : b.entry key = some state) : Entered b key state action
  | filed {recipients : List RecipientKey} (absent : b.entry key = none)
      (same : state = .pending) : Entered b key state (.file key.2 recipients)
  | settled (pending : b.entry key = some .pending) (settles : b.Settles key state) :
      Entered b key state (.settle key state)
  | superseded {by_ : MessageId} {at_ : Nat} {record : Option NotificationRecord}
      (pending : b.entry key = some .pending) (same : state = .superseded by_ at_) :
      Entered b key state (.supersede key state record)

theorem entered_act (hg : b.Guard rp action)
    (held : (b.act action).entry key = some s) : b.Entered key s action := by
  cases action with
  | file =>
    simp only [act] at held
    split at held
    · next hn =>
      obtain ⟨-, rfl⟩ := hn
      exact .filed (hg.2 key.1).1 (some.inj held).symm
    · exact .kept held
  | settle key' s' =>
    by_cases hk : key = key'
    · subst hk
      have hsa : s' = s := by simpa [act] using held
      exact hsa ▸ .settled hg.1 hg.2
    · exact .kept (by simpa [act, hk] using held)
  | supersede key' s' =>
    by_cases hk : key = key'
    · subst hk
      have hsa : s' = s := by simpa [act] using held
      obtain ⟨hp, ⟨_, _, hs⟩, -⟩ := hg
      exact hsa ▸ .superseded hp hs
    · exact .kept (by simpa [act, hk] using held)
  | move => exact .kept (by simpa [act, hold] using held)
  | start | put | release => exact .kept held

theorem act_entry_of_settled (hg : b.Guard rp action)
    (h : b.entry key = some s) (hs : s ≠ .pending) :
    (b.act action).entry key = some s := by
  obtain ⟨a, ha⟩ := ne_none_iff_exists'.mp (act_entry_ne_none (h ▸ some_ne_none s) action)
  have hp : b.entry key ≠ some .pending := fun hp =>
    hs (some.inj (h.symm.trans hp))
  cases entered_act hg ha with
  | kept held => rw [ha, ← held, h]
  | filed hab => cases hab.symm.trans h
  | settled hpe | superseded hpe => exact absurd hpe hp

theorem issued_subset_act (b : Board) (action : Action) : b.issued ⊆ (b.act action).issued := by
  cases action with
  | start => exact Finset.subset_insert _ _
  | move => exact (b.track_issued ▸ Finset.Subset.refl _)
  | _ => exact Finset.Subset.refl _

end Board

def MailboxProjection.board (p : MailboxProjection) : Board where
  lane := fun r => (p.getMailbox r).map MailboxEntry.messageId
  entry := fun key => (p.getEntry key.1 key.2).map MailboxEntry.state
  record := fun key => p.notifications.lookup key
  barrier := fun a => p.activeNotificationBarriers.lookup a
  written := fun a => p.notificationWriteSequences.lookup a
  issued := p.notificationAttempts

end Cyclops
