import Cyclops.Daemon.Records

/-!
# Operator attention

The rows that ask an operator to act: alarms nobody has acknowledged, and the attempt that holds the
head of each queue.

Result: `attention_covers_iff`.
-/

namespace Cyclops

open Checked FiniteMap MailboxProjection List Option MailboxService NotificationRecord

/-! ## Distinct records -/

section DistinctRecords

variable {attempts : List NotificationAttemptId} {keys : List EntryKey}
  {rs : List NotificationRecord} {rec : NotificationRecord}

theorem mem_of_mem_distinctRecords (h : rec ∈ distinctRecords attempts keys rs) :
    rec ∈ rs ∧ rec.attemptId ∉ attempts := by
  induction rs generalizing attempts keys with
  | nil => exact absurd h not_mem_nil
  | cons first rest ih =>
    unfold distinctRecords at h
    split at h
    · exact ⟨mem_cons_of_mem _ (ih h).1, (ih h).2⟩
    · next hf =>
      split at h
      · exact ⟨mem_cons_of_mem _ (ih h).1, fun hm => (ih h).2 (mem_cons_of_mem _ hm)⟩
      · rcases mem_cons.mp h with rfl | h
        · exact ⟨mem_cons_self, hf⟩
        · exact ⟨mem_cons_of_mem _ (ih h).1, fun hm => (ih h).2 (mem_cons_of_mem _ hm)⟩

theorem nodup_distinctRecords : ((distinctRecords attempts keys rs).map attemptId).Nodup := by
  induction rs generalizing attempts keys with
  | nil => exact nodup_nil
  | cons first rest ih =>
    unfold distinctRecords
    split
    · exact ih
    · split
      · exact ih
      · refine nodup_cons.mpr ⟨fun hm => ?_, ih⟩
        obtain ⟨o, ho, heq⟩ := mem_map.mp hm
        exact (mem_of_mem_distinctRecords ho).2 (heq ▸ mem_cons_self)

theorem exists_mem_distinctRecords
    (hsi : ∀ a ∈ rs, ∀ b ∈ rs, a.key = b.key → a.attemptId = b.attemptId)
    (seen : ∀ a ∈ rs, a.key ∈ keys → a.attemptId ∈ attempts)
    (h : rec ∈ rs) (hf : rec.attemptId ∉ attempts) :
    ∃ kept ∈ distinctRecords attempts keys rs, kept.attemptId = rec.attemptId := by
  induction rs generalizing attempts keys with
  | nil => exact absurd h not_mem_nil
  | cons first rest ih =>
    have hr : ∀ a ∈ rest, ∀ b ∈ rest, a.key = b.key → a.attemptId = b.attemptId :=
      fun a ha b hb => hsi a (mem_cons_of_mem _ ha) b (mem_cons_of_mem _ hb)
    have hse : ∀ a ∈ rest, a.key ∈ keys → a.attemptId ∈ attempts :=
      fun a ha => seen a (mem_cons_of_mem _ ha)
    unfold distinctRecords
    split
    · next hm =>
      rcases mem_cons.mp h with rfl | h
      · exact absurd hm hf
      · exact ih hr hse h hf
    · next hn =>
      have hke : (first.recipient, first.messageId) ∉ keys :=
        fun hm => hn (seen first mem_cons_self hm)
      rw [if_neg hke]
      by_cases hs : rec.attemptId = first.attemptId
      · exact ⟨first, mem_cons_self, hs.symm⟩
      · have hm : rec ∈ rest := (mem_cons.mp h).resolve_left fun heq => hs (heq ▸ rfl)
        have hs' : ∀ a ∈ rest, a.key ∈ first.key :: keys →
            a.attemptId ∈ first.attemptId :: attempts := by
          intro a ha hm
          rcases mem_cons.mp hm with hfi | hm
          · have := hsi a (mem_cons_of_mem _ ha) first mem_cons_self hfi
            exact this ▸ mem_cons_self
          · exact mem_cons_of_mem _ (hse a ha hm)
        obtain ⟨kept, hk, heq⟩ := ih hr hs' hm fun hm => (mem_cons.mp hm).elim hs hf
        exact ⟨kept, mem_cons_of_mem _ hk, heq⟩

end DistinctRecords

/-! ## The attempts that have a row -/

variable {p : MailboxProjection} {routes : Map RecipientKey MessageRecipientRoute}
  {record : NotificationRecord} {a : NotificationAttemptId}

def attentionAttempts (p : MailboxProjection) (routes : Map RecipientKey MessageRecipientRoute) :
    List (Option NotificationAttemptId) :=
  (p.mailboxAttentionRows routes).map OpenDelivery.attemptId

theorem attentionAttempts_eq : attentionAttempts p routes =
    (distinctRecords [] [] (p.openAlarms ++ p.mailboxes.keys.filterMap p.heldHead)).map
      fun record => some record.attemptId := by
  rw [attentionAttempts, mailboxAttentionRows, List.map_map]
  rfl

theorem mem_openAlarms : record ∈ p.openAlarms ↔
    (∃ key, p.notifications.lookup key = some record) ∧ record.state = .attentionRequired ∧
      record.attemptId ∉ p.resolvedAttempts ∧ record.attemptId ∉ p.clearedAttempts := by
  rw [openAlarms, mem_insertionSort, mem_filter, mem_values, decide_eq_true_iff]

variable {r : RecipientKey}

theorem heldHead_eq_some : p.heldHead r = some record ↔ ∃ head, (p.getPending r).head? = some head ∧
      p.notifications.lookup (r, head.messageId) = some record ∧
      record.attemptId ∉ p.resolvedAttempts ∧
      (record.state = .attentionRequired ∨ record.state = .quotaHeld ∨
        record.state = .quotaResetObserved ∨ record.state = .blockedPreWrite) := by
  simp only [heldHead, bind_eq_bind, bind_eq_some_iff]
  constructor
  · rintro ⟨head, hh, current, hc, h⟩
    split at h
    · cases h
    · next hu =>
      have hhe : current = record ∧ (current.state = .attentionRequired ∨
          current.state = .quotaHeld ∨ current.state = .quotaResetObserved ∨
          current.state = .blockedPreWrite) := by
        revert h
        cases current.state <;> simp
      obtain ⟨rfl, hs⟩ := hhe
      exact ⟨head, hh, hc, hu, hs⟩
  · rintro ⟨head, hh, hc, hu, hs⟩
    refine ⟨head, hh, record, hc, ?_⟩
    rw [if_neg hu]
    rcases hs with hs | hs | hs | hs <;> simp [hs]

theorem mem_mailboxes_of_pending {head : MailboxEntry} (h : (p.getPending r).head? = some head) :
    r ∈ p.mailboxes.keys := by
  have hme : head ∈ p.getMailbox r := mem_of_mem_filter (mem_of_head? h)
  unfold getMailbox at hme
  split at hme
  · next m hm => exact AList.mem_keys.mpr (mem_iff_lookup.mpr ⟨m, hm⟩)
  · exact absurd hme not_mem_nil

theorem head_eq_firstActionable {st : MessageStore} {m : MessageId}
    (h : firstActionablePendingMessageId st r = some m) :
    ∃ head, (st.projection.getPending r).head? = some head ∧
      (st.projection.notificationWithdrawnByOperator r head.messageId = true ∨
        head.messageId = m) := by
  obtain ⟨e, hf, rfl⟩ := map_eq_some_iff.mp h
  cases hp : st.projection.getPending r with
  | nil =>
    rw [hp] at hf
    cases hf
  | cons head =>
    refine ⟨head, rfl, ?_⟩
    rw [hp, find?_cons] at hf
    split at hf
    · cases hf
      exact .inr rfl
    · next hw => exact .inl (by simpa using hw)

variable [DigestScheme]

theorem mem_attentionAttempts (hp : Coherent p) : some a ∈ attentionAttempts p routes ↔
    ∃ record, record.attemptId = a ∧ (record ∈ p.openAlarms ∨ ∃ r, p.heldHead r = some record) := by
  have hc : ∀ record, record ∈ p.openAlarms ++ p.mailboxes.keys.filterMap p.heldHead ↔
      record ∈ p.openAlarms ∨ ∃ r, p.heldHead r = some record := by
    intro record
    rw [mem_append, mem_filterMap]
    refine or_congr_right ⟨fun ⟨r, _, h⟩ => ⟨r, h⟩, fun ⟨r, h⟩ => ⟨r, ?_, h⟩⟩
    obtain ⟨head, hh, -⟩ := heldHead_eq_some.mp h
    exact mem_mailboxes_of_pending hh
  have hcu : ∀ record ∈ p.openAlarms ++ p.mailboxes.keys.filterMap p.heldHead,
      p.notifications.lookup record.key = some record := by
    intro record hme
    obtain ⟨⟨r, m⟩, hk⟩ : ∃ key, p.notifications.lookup key = some record := by
      rcases (hc record).mp hme with hal | ⟨r, hhe⟩
      · exact (mem_openAlarms.mp hal).1
      · obtain ⟨head, -, hl, -⟩ := heldHead_eq_some.mp hhe
        exact ⟨_, hl⟩
    obtain ⟨hr, hm, -⟩ := hp.noted hk
    rw [key, hr, hm, hk]
  rw [attentionAttempts_eq, List.mem_map]
  constructor
  · rintro ⟨record, hme, heq⟩
    exact ⟨record, some.inj heq, (hc record).mp (mem_of_mem_distinctRecords hme).1⟩
  · rintro ⟨record, rfl, hca⟩
    have hs : ∀ a ∈ p.openAlarms ++ p.mailboxes.keys.filterMap p.heldHead,
        ∀ b ∈ p.openAlarms ++ p.mailboxes.keys.filterMap p.heldHead, a.key = b.key →
          a.attemptId = b.attemptId := by
      intro a ha b hb hsa
      have hl := hcu a ha
      rw [hsa, hcu b hb] at hl
      rw [some.inj hl]
    obtain ⟨kept, hke, heq⟩ := exists_mem_distinctRecords hs
      (fun a _ hme => absurd hme not_mem_nil) ((hc record).mpr hca)
      not_mem_nil
    exact ⟨kept, hke, congrArg some heq⟩

/-! ## Heads of queues -/

structure Attended (store : MessageStore) (attempts : List (Option NotificationAttemptId)) :
    Prop where
  once : attempts.Nodup
  unresolved : ∀ a, some a ∈ attempts → a ∉ store.projection.resolvedAttempts
  alarms : ∀ key record, store.projection.notifications.lookup key = some record →
    record.state = .attentionRequired → record.attemptId ∉ store.projection.clearedAttempts →
    some record.attemptId ∈ attempts
  heads : ∀ r m record, firstActionablePendingMessageId store r = some m →
    store.projection.notification r m = some record →
    record.state = .attentionRequired ∨ record.state = .blockedPreWrite →
    some record.attemptId ∈ attempts

/-- A withdrawn wake stands before a stopped one, or before an acknowledged alarm. -/
def WithdrawnBeforeHeld (store : MessageStore) : Prop :=
  ∃ r head m record, (store.projection.getPending r).head? = some head ∧
    store.projection.notificationWithdrawnByOperator r head.messageId = true ∧
    firstActionablePendingMessageId store r = some m ∧
    store.projection.notification r m = some record ∧
    (record.state = .blockedPreWrite ∨
      record.state = .attentionRequired ∧ record.attemptId ∈ store.projection.clearedAttempts)

theorem attended_iff {st : MessageStore} {w : WorkspaceId} (hp : Reachable w st.projection)
    (hun : st.projection.resolvedAttempts = ∅) :
    Attended st (attentionAttempts st.projection routes) ↔ ¬ WithdrawnBeforeHeld st := by
  have hre : ∀ a : NotificationAttemptId, a ∉ st.projection.resolvedAttempts := by
    rw [hun]
    exact fun a => AList.notMem_empty a
  constructor
  · rintro hat ⟨r, head, m, record, hh, hw, hf, hr, hs⟩
    -- The row of this attempt is an open alarm or a held head, and it is neither.
    obtain ⟨o, hsa, hro⟩ := (mem_attentionAttempts hp.coherent).mp
      (hat.heads r m record hf hr (hs.elim .inr fun hc => .inl hc.1))
    rcases hro with hal | ⟨r', hhel⟩
    · obtain ⟨⟨key, hk⟩, ha, -, hu⟩ := mem_openAlarms.mp hal
      cases hp.coherent.single hk hr hsa
      cases hk.symm.trans hr
      rcases hs with hb | ⟨-, hc⟩
      · exact absurd (hb.symm.trans ha) nofun
      · exact hu hc
    · obtain ⟨he', hh', hl, -, hhe⟩ := heldHead_eq_some.mp hhel
      cases hp.coherent.single hl hr hsa
      cases hh'.symm.trans hh
      rw [notificationWithdrawnByOperator, notification, hl] at hw
      rw [beq_iff_eq.mp hw] at hhe
      rcases hhe with h | h | h | h <;> cases h
  · intro hno
    refine ⟨?_, fun a _ => hre a, fun key record hk hs hu => ?_, fun r m record hf hr hs => ?_⟩
    · have hn := (@nodup_distinctRecords [] [] (st.projection.openAlarms ++
        st.projection.mailboxes.keys.filterMap st.projection.heldHead)).map (some_injective _)
      rw [List.map_map] at hn
      rw [attentionAttempts_eq]
      exact hn
    · exact (mem_attentionAttempts hp.coherent).mpr ⟨record, rfl, .inl (mem_openAlarms.mpr
        ⟨⟨key, hk⟩, hs, hre _, hu⟩)⟩
    · refine (mem_attentionAttempts hp.coherent).mpr ⟨record, rfl, ?_⟩
      obtain ⟨head, hh, hw | rfl⟩ := head_eq_firstActionable hf
      · have ho : record.state = .attentionRequired ∧
            record.attemptId ∉ st.projection.clearedAttempts := by
          rcases hs with ha | hb
          · exact ⟨ha, fun hc => hno ⟨r, head, m, record, hh, hw, hf, hr, .inr ⟨ha, hc⟩⟩⟩
          · exact absurd ⟨r, head, m, record, hh, hw, hf, hr, .inl hb⟩ hno
        exact .inl (mem_openAlarms.mpr ⟨⟨_, hr⟩, ho.1, hre _, ho.2⟩)
      · refine .inr ⟨r, heldHead_eq_some.mpr ⟨head, hh, hr, hre _, ?_⟩⟩
        exact hs.imp id fun hb => .inr (.inr hb)

/-- The attention rows name every alarm and every held head once, exactly when no withdrawn wake at
the head of a mailbox stands before a held one. -/
theorem attention_covers_iff (workspaceId : WorkspaceId) (bootId : String) (ops : List Operation)
    (routes : Map RecipientKey MessageRecipientRoute) :
    let store := ((Daemon.start workspaceId bootId).run ops).store
    Attended store (attentionAttempts store.projection routes) ↔ ¬ WithdrawnBeforeHeld store :=
  have hsound := Daemon.sound_run workspaceId bootId ops
  attended_iff hsound.reachable hsound.journal.unresolved.1

/-- The wake of a first task is withdrawn, the one of a second task is stopped. -/
def withdrawnThenStopped : List Operation := [ .replaceDirectory [sampleWorker],
  sampleTask "one" sampleDraw 1,
  sampleTask "two" sampleDraw' 2,
  .prepareOldestNotification sampleWorker.key sampleAttempt ⟨3, .written⟩,
  .withdrawNotification sampleAdmin.key sampleWorker.key sampleAttempt ⟨4, .written⟩,
  .prepareOldestNotification sampleWorker.key sampleAttempt' ⟨5, .written⟩,
  .spawnWorker sampleMessage' sampleWorker.key sampleAttempt',
  .worker 0 .recordGating ⟨6, .written⟩,
  .worker 0 (.recordPreWriteBlock .sessionUnavailable none none) ⟨7, .written⟩]

omit [DigestScheme] in
/-- The stopped wake is the next one to deliver, and no row names it. -/
theorem stopped_wake_hidden :
    letI := constantDigests
    let store := ((Daemon.start sampleWorkspace "boot").run withdrawnThenStopped).store
    firstActionablePendingMessageId store sampleWorker.key = some sampleMessage' ∧
      (store.projection.notification sampleWorker.key sampleMessage').map
        state = some .blockedPreWrite ∧
      attentionAttempts store.projection ∅ = [] := by
  decide +kernel

end Cyclops
