import Cyclops.Mailbox.Coherence
import Cyclops.Mailbox.Snapshot

/-!
# Reads of a coherent projection

The pending list and the snapshot look up, for every message they show, its metadata, its labels,
and the entry of each recipient.
-/

namespace Cyclops

open Checked FiniteMap MailboxProjection List MessageSnapshotRow MessageId

/-! ## Ids and labels -/

theorem MessageId.new_text (id : MessageId) : new id.text = .ok id := by
  simp [new, id.valid]

variable {recipients : List RecipientKey} {m : MessageId} {s : RecipientKey}
  {metadata : MessageMetadata} {w : WorkspaceId} {row : MessageSnapshotRow}

theorem recipientLabelsFrom_length {i : Nat} {snapshots : List RecipientPresentation}
    {labels : List String} (hle : snapshots.length = recipients.length)
    (h : recipientLabelsFrom i recipients snapshots = .ok labels) :
    labels.length = recipients.length := by
  induction recipients generalizing i snapshots labels with
  | nil =>
    rw [recipientLabelsFrom, pure_eq_ok] at h
    · rw [← h, length_nil, length_nil]
    · exact fun _ _ _ _ h' => (nomatch h')
  | cons r rest ih =>
    obtain _ | ⟨snapshot, snapshots⟩ := snapshots
    · cases hle
    · simp only [recipientLabelsFrom, bind_eq_ok, pure_eq_ok] at h
      obtain ⟨-, -, -, -, labels, hl, rfl⟩ := h
      rw [length_cons, length_cons, ih (Nat.succ.inj hle) hl]

theorem presentationLabels_length {presentation : MessagePresentation}
    {ls : String × List String} (h : presentationLabels recipients presentation = .ok ls) :
    ls.2.length = recipients.length := by
  simp only [presentationLabels, bind_eq_ok, refuseIf_eq_ok, exists_const, pure_eq_ok,
    not_not] at h
  obtain ⟨-, -, hle, _, hl, rfl⟩ := h
  exact recipientLabelsFrom_length hle hl

variable {p : MailboxProjection} {c : RecipientKey}
  {r : Map RecipientKey MessageRecipientRoute}

/-! ## The pending list -/

theorem Coherent.listMailbox [DigestScheme] (hp : Coherent p) (r : RecipientKey) :
    ∃ i, p.listMailbox r = .ok i := by
  have hit : ∀ e ∈ p.getPending r, ∃ item, p.listItem r e = .ok item := by
    intro e he
    obtain ⟨-, -, hi⟩ :=
      hp.getEntry_spec (hp.mem_getMailbox.mp (mem_of_mem_filter he))
    obtain ⟨line, metadata, hl, hda, -, hr⟩ := hp.addressed.mp hi
    obtain ⟨md', replyTo, hs⟩ := hp.stored hl
    cases hda.symm.trans hs.data
    have hso : (metadata.recipients.findIdx? fun key => key = r).isSome = true := by
      rw [findIdx?_isSome, any_eq_true]
      exact ⟨r, hr, decide_eq_true rfl⟩
    obtain ⟨index, hf⟩ := Option.isSome_iff_exists.mp hso
    simp only [listItem, bind_eq_ok, orRefuse_eq_ok, extractMessageMetadata_eq_ok]
    exact ⟨_, line, hl, metadata, hda, _, hs.labels, index, hf, replyTo, hs.reply, rfl⟩
  exact mapM_ok_of_forall hit

/-! ## Rows of the snapshot -/

def SummaryOf (p : MailboxProjection) (caller : RecipientKey)
    (routes : Map RecipientKey MessageRecipientRoute) (messageId : MessageId)
    (sender : RecipientKey) (recipient : RecipientKey × String)
    (summary : MessageRecipientSummary) : Prop :=
  ∃ entry, p.getEntry recipient.1 messageId = some entry ∧
    summary = p.recipientSummary caller routes messageId sender recipient.1 recipient.2 entry

theorem recipientSummaries_eq_ok {recipients : List (RecipientKey × String)}
    {summaries : List MessageRecipientSummary} :
    p.recipientSummaries c r m s recipients = .ok summaries ↔
      Forall₂ (SummaryOf p c r m s) recipients summaries := by
  induction recipients generalizing summaries with
  | nil => simp [recipientSummaries]
  | cons k rest ih =>
    simp only [recipientSummaries, bind_eq_ok, orRefuse_eq_ok, pure_eq_ok, ih,
      forall₂_cons_left_iff]
    constructor
    · rintro ⟨e, he, rest', hr, rfl⟩
      exact ⟨_, _, ⟨e, he, rfl⟩, hr, rfl⟩
    · rintro ⟨_, _, ⟨e, he, rfl⟩, hr, rfl⟩
      exact ⟨e, he, _, hr, rfl⟩

theorem recipientSummaries_ok {recipients : List (RecipientKey × String)}
    (h : ∀ k ∈ recipients, ∃ e, p.getEntry k.1 m = some e) :
    ∃ summaries, p.recipientSummaries c r m s recipients = .ok summaries := by
  induction recipients with
  | nil => exact ⟨[], rfl⟩
  | cons k rest ih =>
    obtain ⟨e, he⟩ := h k mem_cons_self
    obtain ⟨summaries, hr⟩ := ih fun o ho => h o (mem_cons_of_mem _ ho)
    simp only [recipientSummaries_eq_ok] at hr ⊢
    exact ⟨_, .cons ⟨e, he, rfl⟩ hr⟩

structure RowOf (p : MailboxProjection) (caller : RecipientKey)
    (routes : Map RecipientKey MessageRecipientRoute) (line : LedgerLine)
    (metadata : MessageMetadata) (row : MessageSnapshotRow) : Prop where
  id : row.messageId.text = line.id
  seq : row.seq = line.seq
  recipients : ∃ labels : List String, labels.length = metadata.recipients.length ∧
    List.Forall₂ (SummaryOf p caller routes row.messageId metadata.sender)
      (metadata.recipients.zip labels) row.recipients
  active : row.active = row.recipients.any (p.activeEntry row.messageId)
  needsAction : row.needsAction =
    ((row.recipients.any fun summary => summary.mailbox.isPending && summary.recipient == caller) ||
      (caller.isAdmin && row.recipients.any fun summary =>
        summary.canManageAttention || summary.notification.preWriteCause.isSome))

variable {line : LedgerLine} {rows : List MessageSnapshotRow} {skip : Nat}

theorem snapshotRow_rowOf {t : MessageId → Nat} {projected : ProjectedRow}
    (h : p.snapshotRow c r t (line, metadata) = .ok projected) :
    RowOf p c r line metadata projected.row := by
  simp only [snapshotRow, bind_eq_ok, pure_eq_ok, recipientSummaries_eq_ok] at h
  obtain ⟨m, hid, labels, hl, recipients, hr, replyTo, -, rfl⟩ := h
  exact {
    id := (text_of_new (liftType_eq_ok.mp hid)).symm
    seq := rfl
    recipients := ⟨labels.2, presentationLabels_length hl, hr⟩
    active := rfl
    needsAction := rfl }

theorem Coherent.snapshotRow [DigestScheme] (hp : Coherent p) {m : MessageId}
    (t : MessageId → Nat) (hl : p.messages.lookup m = some line)
    (hda : line.data = some (.metadata metadata)) :
    ∃ projected, p.snapshotRow c r t (line, metadata) = .ok projected := by
  obtain ⟨md', replyTo, hs⟩ := hp.stored hl
  cases hda.symm.trans hs.data
  obtain ⟨summaries, hsu⟩ : ∃ summaries, p.recipientSummaries c r m metadata.sender
      (metadata.recipients.zip line.sentTo) = .ok summaries :=
    recipientSummaries_ok fun k hm =>
      hp.getEntry_of_recipient hl hda (of_mem_zip hm).1
  simp only [MailboxProjection.snapshotRow, bind_eq_ok]
  refine ⟨_, m, ?_, _, hs.labels, summaries, hsu, replyTo, hs.reply, rfl⟩
  rw [hs.id_text, new_text]
  rfl

/-! ## The visible messages -/

def Visible (p : MailboxProjection) (caller : RecipientKey)
    (message : LedgerLine × MessageMetadata) : Prop :=
  (∃ m, p.messages.lookup m = some message.1) ∧ message.1.data = some (.metadata message.2) ∧
    visibleTo caller message.2 = true

theorem withMetadata_eq_ok {msg : LedgerLine × MessageMetadata} : withMetadata line = .ok msg ↔
      msg.1 = line ∧ line.data = some (.metadata msg.2) := by
  simp only [withMetadata, bind_eq_ok, extractMessageMetadata_eq_ok, pure_eq_ok]
  constructor
  · rintro ⟨metadata, hda, rfl⟩
    exact ⟨rfl, hda⟩
  · rintro ⟨rfl, hda⟩
    exact ⟨msg.2, hda, rfl⟩

theorem mapM_withMetadata {ls : List LedgerLine} {ms : List (LedgerLine × MessageMetadata)}
    (h : ls.mapM withMetadata = .ok ms) :
    ms.map Prod.fst = ls ∧ ∀ msg ∈ ms, msg.1.data = some (.metadata msg.2) := by
  have hr := mapM_eq_ok.mp h
  simp only [withMetadata_eq_ok] at hr
  clear h
  induction hr with
  | nil => simp
  | cons ho _ ih =>
    exact ⟨by rw [map_cons, ho.1, ih.1], forall_mem_cons.mpr ⟨ho.1 ▸ ho.2, ih.2⟩⟩

theorem Coherent.visibleMessages [DigestScheme] (hp : Coherent p) (c : RecipientKey) :
    ∃ v, p.visibleMessages c = .ok v ∧ (∀ msg, msg ∈ v ↔ Visible p c msg) ∧
      v.Pairwise fun a b => a.1.seq < b.1.seq := by
  have ha : ∀ line ∈ values p.messages, ∃ msg, withMetadata line = .ok msg := by
    intro line hli
    obtain ⟨m, hm⟩ := mem_values.mp hli
    obtain ⟨metadata, _, hst⟩ := hp.stored hm
    exact ⟨(line, metadata), withMetadata_eq_ok.mpr ⟨rfl, hst.data⟩⟩
  obtain ⟨ms, hme⟩ := mapM_ok_of_forall ha
  obtain ⟨hl, hda⟩ := mapM_withMetadata hme
  have hmem : ∀ msg, msg ∈ ms ↔ (∃ m, p.messages.lookup m = some msg.1) ∧
        msg.1.data = some (.metadata msg.2) := by
    intro msg
    constructor
    · intro h
      exact ⟨mem_values.mp (hl ▸ mem_map_of_mem h), hda msg h⟩
    · rintro ⟨hm, hmet⟩
      obtain ⟨o, ho, heq⟩ := mem_map.mp (hl ▸ mem_values.mpr hm)
      have hs := hda o ho
      rw [heq, hmet, Option.some.injEq, RowData.metadata.injEq] at hs
      rwa [Prod.ext heq hs.symm] at ho
  have hdi : ms.Pairwise fun a b => a.1.seq ≠ b.1.seq := by
    have hv : (values p.messages).Pairwise fun a b => a.seq ≠ b.seq :=
      pairwise_values fun m line m' line' hm hm' hne heq => hne (hp.distinct hm hm' heq)
    rwa [← hl, pairwise_map] at hv
  refine ⟨_, bind_eq_ok.mpr ⟨ms, hme, rfl⟩, fun msg => ?_, pairwise_lt_insertionSort (hdi.filter _)⟩
  rw [(perm_insertionSort _ _).mem_iff, mem_filter, hmem]
  exact and_assoc

/-! ## The snapshot -/

structure RowsOf (p : MailboxProjection) (caller : RecipientKey)
    (routes : Map RecipientKey MessageRecipientRoute) (rows : List MessageSnapshotRow) : Prop where
  each : ∀ row ∈ rows, ∃ line metadata, Visible p caller (line, metadata) ∧
    RowOf p caller routes line metadata row
  every : ∀ line metadata, Visible p caller (line, metadata) →
    ∃ row ∈ rows, RowOf p caller routes line metadata row
  ascending : rows.Pairwise fun a b => a.seq < b.seq

theorem rowsOf_of_forall₂ {v : List (LedgerLine × MessageMetadata)}
    (h : Forall₂ (fun msg row => RowOf p c r msg.1 msg.2 row) v rows)
    (hm : ∀ msg, msg ∈ v ↔ Visible p c msg)
    (ha : v.Pairwise fun a b => a.1.seq < b.1.seq) :
    RowsOf p c r rows := by
  have hs : rows.map seq = v.map fun msg => msg.1.seq := by
    clear hm ha
    induction h with
    | nil => rfl
    | cons ho _ ih => rw [map_cons, map_cons, ho.seq, ih]
  refine ⟨fun row hro => ?_, fun line metadata hv => ?_, ?_⟩
  · obtain ⟨msg, hme, hr⟩ := exists_of_forall₂ h.flip hro
    exact ⟨msg.1, msg.2, (hm msg).mp hme, hr⟩
  · exact exists_of_forall₂ h ((hm _).mpr hv)
  · have := pairwise_map.mpr ha
    rw [← hs, pairwise_map] at this
    exact this

theorem Coherent.messagesSnapshot [DigestScheme] (hp : Coherent p)
    (hc : c.workspaceId = p.workspaceId)
    (r : Map RecipientKey MessageRecipientRoute) :
    ∃ rows, RowsOf p c r rows ∧ ∀ rs, ∃ res, p.messagesSnapshot c rs r = .ok res ∧
      res.workspaceSeq = p.head ∧
      res.counts.activeMessages = rows.countP active ∧
      res.counts.settledMessages = rows.length - rows.countP active ∧
      res.rows = trimSettled (res.counts.settledMessages - rs) rows ∧
      res.counts.returnedMessages = res.rows.length := by
  obtain ⟨v, hv, hmem, ha⟩ := hp.visibleMessages c
  let t := fun root => v.countP fun msg => msg.2.threadRoot = root
  obtain ⟨projected, hpr⟩ : ∃ projected, v.mapM (p.snapshotRow c r t) = .ok projected := by
    refine mapM_ok_of_forall fun msg hme => ?_
    obtain ⟨⟨m, hm⟩, hda, -⟩ := (hmem msg).mp hme
    exact hp.snapshotRow t hm hda
  have hr : Forall₂ (fun msg row => RowOf p c r msg.1 msg.2 row)
      v (projected.map ProjectedRow.row) :=
    forall₂_map_right_iff.mpr ((mapM_eq_ok.mp hpr).imp fun _ _ h => snapshotRow_rowOf h)
  refine ⟨projected.map ProjectedRow.row, rowsOf_of_forall₂ hr hmem ha,
    fun rs => ⟨_, bind_eq_ok.mpr ⟨(), by simp [hc], bind_eq_ok.mpr
      ⟨v, hv, bind_eq_ok.mpr ⟨projected, hpr, rfl⟩⟩⟩, ?_, ?_, ?_, ?_, ?_⟩⟩
  · rfl
  · exact countP_map.symm
  · simp [Function.comp_def]
  · rfl
  · rfl

/-! ## Trimming -/

theorem Reachable.head_lt [DigestScheme] (h : Reachable w p) : p.head < u64Bound := by
  induction h with
  | new => exact Nat.two_pow_pos 64
  | apply _ ha =>
    obtain ⟨m, hm, hq⟩ := applies_iff.mp ha
    obtain ⟨hh, -⟩ := commitLine_frame hq
    rw [hh]
    exact (accepted_of_prepare hm).2.1

theorem trimSettled_zero (rows : List MessageSnapshotRow) : trimSettled 0 rows = rows := by
  induction rows with
  | nil => rfl
  | cons row rest ih =>
    rw [trimSettled, ih]
    split <;> rfl

theorem length_le_of_ascending {i : List MessageSnapshotRow} {low head : Nat}
    (ha : i.Pairwise fun a b => a.seq < b.seq) (hlow : ∀ row ∈ i, low < row.seq)
    (hu : ∀ row ∈ i, row.seq ≤ head) : i.length ≤ head - low := by
  induction i generalizing low with
  | nil => exact Nat.zero_le _
  | cons first rest ih =>
    obtain ⟨hf, hr⟩ := pairwise_cons.mp ha
    have hlo := hlow first mem_cons_self
    have hup := hu first mem_cons_self
    have hl := ih hr hf fun row hro => hu row (mem_cons_of_mem _ hro)
    rw [length_cons]
    omega

theorem RowsOf.trimSettled_untrimmed [DigestScheme] (h : RowsOf p c r rows) (hp : Reachable w p) :
    trimSettled (rows.length - rows.countP active - untrimmed) rows = rows := by
  have hl : rows.length ≤ p.head - 0 := by
    refine length_le_of_ascending h.ascending (fun row hr => ?_) (fun row hr => ?_) <;>
    · obtain ⟨line, _, ⟨⟨m, hm⟩, -⟩, hof⟩ := h.each row hr
      have hn : 0 < line.seq ∧ line.seq ≤ p.head := hp.coherent.numbered hm
      rw [hof.seq]
      omega
  have hs : rows.length - rows.countP active - untrimmed = 0 := by
    have hb := hp.head_lt
    rw [untrimmed]
    omega
  rw [hs, trimSettled_zero]

theorem mem_trimSettled_of_active (h : row ∈ rows) (ha : row.active = true) :
    row ∈ trimSettled skip rows := by
  induction rows generalizing skip with
  | nil => exact h
  | cons first rest ih =>
    rcases mem_cons.mp h with rfl | h
    · unfold trimSettled
      rw [if_pos ha]
      exact mem_cons_self
    · unfold trimSettled
      split
      · exact mem_cons_of_mem _ (ih h)
      · split
        · exact mem_cons_of_mem _ (ih h)
        · exact ih h

theorem mem_of_mem_trimSettled (h : row ∈ trimSettled skip rows) : row ∈ rows := by
  induction rows generalizing skip with
  | nil => exact h
  | cons first rest ih =>
    unfold trimSettled at h
    split at h
    · exact (mem_cons.mp h).elim (fun h => h ▸ mem_cons_self) fun h => mem_cons_of_mem _ (ih h)
    · split at h
      · exact (mem_cons.mp h).elim (fun h => h ▸ mem_cons_self) fun h => mem_cons_of_mem _ (ih h)
      · exact mem_cons_of_mem _ (ih h)

theorem length_trimSettled (h : skip ≤ rows.length - rows.countP active) :
    (trimSettled skip rows).length = rows.length - skip := by
  induction rows generalizing skip with
  | nil => simp [trimSettled]
  | cons first rest ih =>
    rw [countP_cons, length_cons] at h
    unfold trimSettled
    split
    · next ha =>
      rw [if_pos ha] at h
      rw [length_cons, length_cons, ih (by omega)]
      omega
    · next hs =>
      split
      · rw [length_cons, length_cons, ih (by omega)]
        omega
      · rw [length_cons, ih (by omega)]
        omega

end Cyclops
