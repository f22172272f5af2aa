import Cyclops.Daemon.Records
import Cyclops.Mailbox.Reads

/-!
# Settled messages

A row of the snapshot says three things about itself: whether it is active, whether it needs action,
and which of its recipients do.

Result: `settled_quiet_iff`.
-/

namespace Cyclops

open Checked FiniteMap MailboxProjection List Option Bool MessageSnapshotRow

variable {p : MailboxProjection} {caller recipient s : RecipientKey} {label : String}
  {routes : Map RecipientKey MessageRecipientRoute} {m : MessageId} {entry : MailboxEntry}
  {record : NotificationRecord}

/-! ## One recipient -/

structure ModernProjection (p : MailboxProjection) : Prop where
  records : ∀ key record, p.notifications.lookup key = some record → ModernRecord record
  unresolved : p.resolvedAttempts = ∅
  unintended : p.resolutionIntents = ∅

def openAlarm (p : MailboxProjection) (record : NotificationRecord) : Bool :=
  record.state == .attentionRequired && !p.alarmCleared record.attemptId

theorem attentionOpen_recordSummary (hp : ModernProjection p) :
    (p.recordSummary record).attentionOpen = openAlarm p record := by
  have hr : (p.recordSummary record).resolution = none := by
    simp [recordSummary, hp.unresolved]
  rw [MessageNotificationSummary.attentionOpen, hr]
  simp only [recordSummary, openAlarm]
  by_cases h : record.state = .attentionRequired
  · cases hc : p.alarmCleared record.attemptId <;> simp
  · simp [h]

def asksOperator (p : MailboxProjection) (recipient : RecipientKey) (messageId : MessageId) : Bool :=
  match p.notification recipient messageId with
  | some record => openAlarm p record || record.preWriteCause.isSome
  | none => false

theorem ModernRecord.not_quota (h : ModernRecord record) :
    record.state ≠ .quotaHeld ∧ record.state ≠ .quotaResetObserved := by
  have hs := h.state
  constructor <;> intro heq <;> rw [heq] at hs <;> cases hs

theorem ModernRecord.quotaState (h : ModernRecord record) :
    MessageQuotaState.fromNotification record.state = none := by
  have hs := h.state
  revert hs
  cases record.state <;> decide

theorem ModernRecord.not_operatorWithdrawn (h : ModernRecord record)
    (hc : record.preWriteCause.isSome = true) : record.state ≠ .withdrawnByOperator := by
  intro hs
  rcases h.cause (isSome_iff_ne_none.mp hc) with hb | hw
  · exact absurd (hb.symm.trans hs) nofun
  · simp [withdrawnByClaimBeforeWrite, hs] at hw

theorem attentionRequired_and_openAlarm :
    (MessageNotificationState.ofState record.state == .attentionRequired && openAlarm p record) =
      openAlarm p record := by
  unfold openAlarm
  cases record.state <;> simp [MessageNotificationState.ofState]

theorem needsAction_recipientSummary (hp : ModernProjection p) :
    (p.recipientSummary caller routes m s recipient label entry).needsAction =
      ((entry.state.isPending && recipient == caller) ||
        (caller.isAdmin && asksOperator p recipient m)) := by
  simp only [recipientSummary, asksOperator]
  cases hr : p.notification recipient m with
  | none =>
    simp [notificationSummary, noNotificationSummary, Bool.and_comm]
  | some record =>
    have hm := hp.records _ record hr
    have hb : ((p.recordSummary record).preWriteCause.isSome &&
        (p.recordSummary record).operatorWithdrawn != some true) = record.preWriteCause.isSome := by
      cases hc : record.preWriteCause.isSome with
      | false => simp [recordSummary, hc]
      | true =>
        simp [recordSummary, hc, hm.not_operatorWithdrawn hc]
    have hq : (p.recordSummary record).quotaState = none := hm.quotaState
    have hs : (p.recordSummary record).state = .ofState record.state := rfl
    simp only [notificationSummary, hb, hq, hs,
      attentionOpen_recordSummary hp, attentionRequired_and_openAlarm, isSome_none,
      Bool.or_false]
    rw [and_comm (recipient == caller)]

theorem work_recipientSummary (hp : ModernProjection p) :
    (let summary := p.recipientSummary caller routes m s recipient label entry
     caller.isAdmin && (summary.canManageAttention || summary.notification.preWriteCause.isSome)) =
      (caller.isAdmin && asksOperator p recipient m) := by
  simp only [recipientSummary, asksOperator]
  cases hr : p.notification recipient m with
  | none => simp [notificationSummary, noNotificationSummary]
  | some record =>
    have hi : (p.recordSummary record).resolutionIntent = none := by
      simp [recordSummary, hp.unintended]
    have hs : (p.recordSummary record).state = .ofState record.state := rfl
    simp only [notificationSummary, hi, hs,
      attentionOpen_recordSummary hp, attentionRequired_and_openAlarm, isNone_none,
      Bool.and_true]
    cases caller.isAdmin <;> rfl

def entrySettled (p : MailboxProjection) (recipient : RecipientKey) (messageId : MessageId) : Bool :=
  !p.entryIsPending recipient messageId &&
    match p.notification recipient messageId with
    | some record => record.state.isTerminal && !openAlarm p record
    | none => true

theorem activeEntry_recipientSummary (hp : ModernProjection p)
    (he : p.getEntry recipient m = some entry) :
    p.activeEntry m (p.recipientSummary caller routes m s recipient label entry) =
      !entrySettled p recipient m := by
  have hm : (p.recipientSummary caller routes m s recipient label
      entry).mailbox = entry.state := rfl
  have hre : (p.recipientSummary caller routes m s recipient label
      entry).recipient = recipient := rfl
  have hpe : p.entryIsPending recipient m = entry.state.isPending := by
    rw [entryIsPending, he]
  simp only [activeEntry, openAttentionEntry, entrySettled, hm, hre, hpe]
  cases hr : p.notification recipient m with
  | none => simp
  | some record =>
    obtain ⟨hh, hres⟩ := (hp.records _ record hr).not_quota
    have hs : (p.recipientSummary caller routes m s recipient label
        entry).notification = p.recordSummary record := by
      rw [recipientSummary, hr]
      rfl
    simp only [hs, attentionOpen_recordSummary hp, beq_eq_false_iff_ne.mpr hh,
      beq_eq_false_iff_ne.mpr hres, Bool.or_false, Bool.not_and, Bool.not_not, Bool.or_assoc]
    rw [or_comm (openAlarm p record)]

/-! ## One row -/

variable {line : LedgerLine} {metadata : MessageMetadata} {row : MessageSnapshotRow}

theorem RowOf.mem_recipients (h : RowOf p caller routes line metadata row)
    {summary : MessageRecipientSummary} (hm : summary ∈ row.recipients) :
    ∃ recipient ∈ metadata.recipients, ∃ label,
      SummaryOf p caller routes row.messageId metadata.sender (recipient, label) summary := by
  obtain ⟨ls, -, hs⟩ := h.recipients
  obtain ⟨⟨recipient, label⟩, hz, hsu⟩ := exists_of_forall₂ hs.flip hm
  exact ⟨recipient, (of_mem_zip hz).1, label, hsu⟩

theorem RowOf.exists_summary (h : RowOf p caller routes line metadata row)
    (hm : recipient ∈ metadata.recipients) :
    ∃ summary ∈ row.recipients, ∃ label,
      SummaryOf p caller routes row.messageId metadata.sender (recipient, label) summary := by
  obtain ⟨ls, hl, hs⟩ := h.recipients
  have hz : recipient ∈ (metadata.recipients.zip ls).map Prod.fst := by
    rwa [map_fst_zip hl.ge]
  obtain ⟨⟨_, label⟩, hp, rfl⟩ := mem_map.mp hz
  obtain ⟨summary, hsu, hof⟩ := exists_of_forall₂ hs hp
  exact ⟨summary, hsu, label, hof⟩

theorem needsAction_eq_any (hp : ModernProjection p) (h : RowOf p caller routes line metadata row) :
    row.needsAction = row.recipients.any MessageRecipientSummary.needsAction := by
  have ha : (caller.isAdmin && row.recipients.any fun summary =>
      summary.canManageAttention || summary.notification.preWriteCause.isSome) =
      row.recipients.any fun summary => caller.isAdmin &&
        (summary.canManageAttention || summary.notification.preWriteCause.isSome) := by
    cases caller.isAdmin <;> simp
  rw [h.needsAction, ha, Bool.eq_iff_iff, or_eq_true, List.any_eq_true, List.any_eq_true,
    List.any_eq_true]
  have hs : ∀ summary ∈ row.recipients, summary.needsAction =
      ((summary.mailbox.isPending && summary.recipient == caller) || (caller.isAdmin &&
        (summary.canManageAttention || summary.notification.preWriteCause.isSome))) := by
    intro summary hm
    obtain ⟨recipient, -, label, entry, -, rfl⟩ := h.mem_recipients hm
    rw [needsAction_recipientSummary hp, work_recipientSummary hp]
    rfl
  constructor
  · rintro (⟨summary, hm, hn⟩ | ⟨summary, hm, hn⟩)
    · exact ⟨summary, hm, by rw [hs summary hm, hn, Bool.true_or]⟩
    · exact ⟨summary, hm, by rw [hs summary hm, hn, Bool.or_true]⟩
  · rintro ⟨summary, hm, hn⟩
    rw [hs summary hm, or_eq_true] at hn
    exact hn.imp (fun hpe => ⟨summary, hm, hpe⟩) fun hw => ⟨summary, hm, hw⟩

theorem active_eq_false_iff (hp : ModernProjection p) (h : RowOf p caller routes line metadata row) :
    row.active = false ↔
      ∀ recipient ∈ metadata.recipients, entrySettled p recipient row.messageId = true := by
  rw [h.active, List.any_eq_false]
  constructor
  · intro hs recipient hm
    obtain ⟨summary, hsu, label, entry, he, rfl⟩ := h.exists_summary hm
    have ha := hs _ hsu
    rw [activeEntry_recipientSummary hp he] at ha
    simpa using ha
  · intro hs summary hsu
    obtain ⟨recipient, hm, label, entry, he, rfl⟩ := h.mem_recipients hsu
    rw [activeEntry_recipientSummary hp he, hs recipient hm]
    decide

theorem asksOperator_of_settled (hp : ModernProjection p) (h : entrySettled p recipient m = true) :
    asksOperator p recipient m = true ↔ ∃ record,
      p.notification recipient m = some record ∧ withdrawnByClaimBeforeWrite record = true := by
  unfold entrySettled at h
  unfold asksOperator
  cases hr : p.notification recipient m with
  | none => simp
  | some record =>
    rw [hr] at h
    simp only [and_eq_true, not_eq_true'] at h
    obtain ⟨-, ht, ha⟩ := h
    simp only [ha, some.injEq, exists_eq_left']
    constructor
    · intro hc
      rcases (hp.records _ record hr).cause (isSome_iff_ne_none.mp hc) with
        hblocked | hw
      · rw [hblocked] at ht
        cases ht
      · exact hw
    · intro hw
      simp only [withdrawnByClaimBeforeWrite, and_eq_true, beq_iff_eq] at hw
      rw [hw.2]
      rfl

/-- A message all of whose entries are settled, one of them by a claim before its
wake was written. -/
def ClaimedUnwritten (p : MailboxProjection) (messageId : MessageId)
    (recipients : List RecipientKey) : Prop :=
  (∀ recipient ∈ recipients, entrySettled p recipient messageId = true) ∧
    ∃ recipient ∈ recipients, ∃ record, p.notification recipient messageId = some record ∧
      withdrawnByClaimBeforeWrite record = true

theorem needsAction_of_settled (hp : ModernProjection p)
    (h : RowOf p caller routes line metadata row) (hse : row.active = false) :
    row.needsAction = true ↔
      caller.isAdmin = true ∧ ClaimedUnwritten p row.messageId metadata.recipients := by
  have he := (active_eq_false_iff hp h).mp hse
  rw [needsAction_eq_any hp h, List.any_eq_true]
  constructor
  · rintro ⟨summary, hm, hn⟩
    obtain ⟨recipient, hr, label, entry, hen, rfl⟩ := h.mem_recipients hm
    have hs := he recipient hr
    have hno : entry.state.isPending = false := by
      have hpe := (and_eq_true_iff.mp hs).1
      rw [entryIsPending, hen] at hpe
      simpa using hpe
    rw [needsAction_recipientSummary hp, hno, Bool.false_and, Bool.false_or, and_eq_true] at hn
    exact ⟨hn.1, he, recipient, hr, (asksOperator_of_settled hp hs).mp hn.2⟩
  · rintro ⟨ha, -, recipient, hr, hre⟩
    obtain ⟨summary, hsu, label, entry, hen, rfl⟩ := h.exists_summary hr
    refine ⟨_, hsu, ?_⟩
    rw [needsAction_recipientSummary hp, ha,
      (asksOperator_of_settled hp (he recipient hr)).mpr hre, Bool.and_self,
      Bool.or_true]

/-! ## The snapshot -/

/-- What the snapshot should say. `full` is the snapshot with every settled row. -/
structure Quiet (full result : MessagesSnapshotResult) (recentSettled : Nat) : Prop where
  settled : ∀ row ∈ result.rows, row.active = false → row.needsAction = false ∧
    ∀ summary ∈ row.recipients, summary.needsAction = false
  agreed : ∀ row ∈ result.rows, row.needsAction = true ↔
    ∃ summary ∈ row.recipients, summary.needsAction = true
  counted : result.counts.returnedMessages =
    result.counts.activeMessages + min result.counts.settledMessages recentSettled
  returned : ∀ row ∈ full.rows, row.needsAction = true → row ∈ result.rows

variable [DigestScheme]

theorem modernProjection_run (w : WorkspaceId) (b : String) (ops : List Operation) :
    ModernProjection ((Daemon.start w b).run ops).store.projection := by
  have hj := (Daemon.sound_run w b ops).journal
  exact ⟨hj.modern, hj.unresolved.1, hj.unresolved.2⟩

def NothingClaimedUnwritten (p : MailboxProjection) (caller : RecipientKey) : Prop :=
  caller.isAdmin = true → ∀ m line metadata, p.messages.lookup m = some line →
    line.data = some (.metadata metadata) → ¬ ClaimedUnwritten p m metadata.recipients

theorem RowOf.messageId_eq (hp : Coherent p) {m : MessageId}
    (hm : p.messages.lookup m = some line) (h : RowOf p caller routes line metadata row) :
    row.messageId = m := by
  obtain ⟨_, _, hs⟩ := hp.stored hm
  have ht : row.messageId.text = m.text := h.id.trans hs.id_text
  cases hr : row.messageId
  cases m
  rw [hr] at ht
  cases ht
  rfl

theorem quiet_iff {w : WorkspaceId} (hmo : ModernProjection p)
    (hp : Reachable w p) {rows : List MessageSnapshotRow}
    (hro : RowsOf p caller routes rows) {full r : MessagesSnapshotResult}
    {rs : Nat} (hfu : full.rows = rows)
    (hac : r.counts.activeMessages = rows.countP active)
    (hse : r.counts.settledMessages = rows.length - rows.countP active)
    (ht : r.rows = trimSettled (r.counts.settledMessages - rs) rows)
    (hre : r.counts.returnedMessages = r.rows.length) :
    Quiet full r rs ↔ NothingClaimedUnwritten p caller := by
  constructor
  · intro hq ha m line metadata hm hda hc
    have hv : Visible p caller (line, metadata) :=
      ⟨⟨m, hm⟩, hda, by rw [visibleTo, ha, Bool.true_or, Bool.true_or]⟩
    obtain ⟨row, hr, hof⟩ := hro.every line metadata hv
    have hid := hof.messageId_eq hp.coherent hm
    have hi : row.active = false :=
      (active_eq_false_iff hmo hof).mpr (hid ▸ hc.1)
    have hn : row.needsAction = true :=
      (needsAction_of_settled hmo hof hi).mpr ⟨ha, hid ▸ hc⟩
    -- The row is left out, or it is a settled row that asks for something.
    have hme := hq.returned row (hfu ▸ hr) hn
    rw [(hq.settled row hme hi).1] at hn
    cases hn
  · intro hno
    have hn : ∀ row ∈ rows, row.active = false → row.needsAction = false := by
      intro row hr hi
      obtain ⟨line, metadata, ⟨⟨m, hm⟩, hda, -⟩, hof⟩ := hro.each row hr
      by_contra has
      obtain ⟨ha, hc⟩ :=
        (needsAction_of_settled hmo hof hi).mp (by simpa using has)
      exact hno ha m line metadata hm hda (hof.messageId_eq hp.coherent hm ▸ hc)
    have hag : ∀ row ∈ rows,
        row.needsAction = row.recipients.any MessageRecipientSummary.needsAction := by
      intro row hr
      obtain ⟨line, metadata, -, hof⟩ := hro.each row hr
      exact needsAction_eq_any hmo hof
    have hk : ∀ row ∈ r.rows, row ∈ rows :=
      fun row hr => mem_of_mem_trimSettled (ht ▸ hr)
    refine ⟨fun row hr hi => ?_, fun row hr => ?_, ?_, fun row hr has => ?_⟩
    · have hf := hn row (hk row hr) hi
      refine ⟨hf, fun summary hme => ?_⟩
      rw [hag row (hk row hr), List.any_eq_false] at hf
      simpa using hf summary hme
    · rw [hag row (hk row hr), List.any_eq_true]
    · have hle : rows.countP active ≤ rows.length := countP_le_length
      rw [hre, ht, length_trimSettled (by omega)]
      omega
    · rw [ht]
      rw [hfu] at hr
      refine mem_trimSettled_of_active hr ?_
      cases hs : row.active with
      | true => rfl
      | false => exact absurd ((hn row hr hs).symm.trans has) nofun

/-- The snapshot is quiet exactly when no message an administrator is shown was settled by a claim
before its wake was written. -/
theorem settled_quiet_iff (workspaceId : WorkspaceId) (bootId : String) (ops : List Operation)
    (caller : RecipientKey) (recentSettled : Nat)
    (routes : Map RecipientKey MessageRecipientRoute) :
    let p := ((Daemon.start workspaceId bootId).run ops).store.projection
    if caller.workspaceId = workspaceId then
      ∃ full result, p.messagesSnapshot caller untrimmed routes = .ok full ∧
        p.messagesSnapshot caller recentSettled routes = .ok result ∧
        (Quiet full result recentSettled ↔ NothingClaimedUnwritten p caller)
    else p.messagesSnapshot caller recentSettled routes =
      .error (.workspaceMismatch workspaceId caller.workspaceId) := by
  intro p
  have hp : Reachable workspaceId p := (Daemon.sound_run workspaceId bootId ops).reachable
  split
  · next hc =>
    obtain ⟨rows, hro, hre⟩ :=
      hp.coherent.messagesSnapshot (hc.trans hp.workspaceId_eq.symm) routes
    obtain ⟨full, hf, -, -, hs, ht, -⟩ := hre untrimmed
    obtain ⟨result, hres, -, ha, hs', ht', hr⟩ := hre recentSettled
    refine ⟨full, result, hf, hres, quiet_iff (modernProjection_run workspaceId bootId ops)
      hp hro ?_ ha hs' ht' hr⟩
    rw [ht, hs]
    exact hro.trimSettled_untrimmed hp
  · next hc =>
    rw [messagesSnapshot, checkWorkspace, hp.workspaceId_eq, refuseIf, if_pos hc]
    rfl

def claimedUnwrittenOps : List Operation := [ .replaceDirectory [sampleWorker],
  sampleTask "one" sampleDraw 1,
  .prepareOldestNotification sampleWorker.key sampleAttempt ⟨2, .written⟩,
  .claim sampleWorker.key sampleMessage ⟨3, .written⟩]

omit [DigestScheme] in
/-- A claim before the write keeps its cause on the record, which is taken for work. -/
theorem claimed_task_needs_action :
    letI := constantDigests
    let p := ((Daemon.start sampleWorkspace "boot").run claimedUnwrittenOps).store.projection
    (p.messagesSnapshot sampleAdmin.key 10 ∅).toOption.map
        (fun result => result.rows.map fun row => (row.active, row.needsAction)) =
      some [(false, true)] := by
  decide

end Cyclops
