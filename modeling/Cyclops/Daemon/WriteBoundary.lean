import Cyclops.Daemon.Emission

/-!
# The write boundary

A delivery worker writes to a composer only after it recorded that it is about to.

Result: `write_boundary_fenced`.
-/

namespace Cyclops

open Checked FiniteMap MessageStore

def LedgerLine.Writes (line : LedgerLine) (fact : NotificationTransition) : Prop :=
  line.data = some (.notification (.notificationTransition fact)) ∧ fact.state = .writing

/-- The entry is pending and the gated record is the worker's, in its epoch. -/
structure MayWrite (p : MailboxProjection) (context : NotificationContext)
    (fact : NotificationTransition) : Prop where
  names : context.Names fact
  pending : p.entryIsPending fact.recipient fact.messageId = true
  current : ∃ current, p.notification fact.recipient fact.messageId = some current ∧
    current.attemptId = fact.attemptId ∧ current.state = .gating ∧
      current.executionEpoch = context.runEpoch

/-! ## Who writes -/

theorem NotificationContext.Appends.mayWrite {ctx : NotificationContext}
    {st : MessageStore} {step : WorkerStep} {line : LedgerLine} {fact : NotificationTransition}
    (h : ctx.Appends st step line) (hwr : line.Writes fact) :
    MayWrite st.projection ctx fact := by
  obtain ⟨fact', ⟨-, hda⟩, hn, hre⟩ := h
  have hs : fact' = fact := by
    have := hda.symm.trans hwr.1
    simpa using this
  subst hs
  obtain ⟨hr, hm, ha⟩ := hn
  have hw := hwr.2
  have hf : st.projection.entryIsPending ctx.recipient ctx.messageId = true ∧
      ∃ current, ctx.Owned st.projection current ∧ current.state = .gating := by
    cases step <;> simp only [Records, hw, reduceCtorEq, false_and, true_and] at hre
    case recordWriting => exact hre
    case recordWritingRaw => exact hre
  obtain ⟨hp, current, ⟨hc, ho⟩, hg⟩ := hf
  simp only [NotificationContext.owns, Bool.and_eq_true, beq_iff_eq] at ho
  refine ⟨⟨hr, hm, ha⟩, by rw [hr, hm]; exact hp, current, by rw [hr, hm]; exact hc,
    ho.1.trans ha.symm, hg, ho.2⟩

namespace Daemon

variable {d : Daemon} {op : Operation} {line : LedgerLine} {fact : NotificationTransition}

theorem Emitted.mayWrite (h : d.Emitted line op) (hw : line.Writes fact) :
    ∃ i step env context, op = .worker i step env ∧ d.contexts[i]? = some context ∧
      MayWrite d.store.projection context fact := by
  rcases h.transition hw.1 with
    ⟨i, step, env, context, hop, hc, ha⟩ | hq | hg
  · exact ⟨i, step, env, context, hop, hc, ha.mayWrite hw⟩
  · cases hq.symm.trans hw.2
  · cases hg.symm.trans hw.2

theorem not_writes_of_recovery (h : RecoveryRow line) : ¬ line.Writes fact := by
  rintro ⟨hda, hw⟩
  obtain ⟨st, record, now, result, hr⟩ := h
  obtain ⟨fact', hs, heq⟩ := st.recoverNotification_eq record now
  rw [heq] at hr
  obtain ⟨-, hd'⟩ := transitionRow_append hr
  rw [hda] at hd'
  cases hd'
  rw [hw] at hs
  rcases hs with hs | hs <;> cases hs

variable [DigestScheme] {w : WorkspaceId}

theorem step_records (h : d.store.Sound Emits w) (op : Operation) :
    ∃ rows, (d.step op).store.writer.records = d.store.writer.records ++ rows ∧
      ∀ line ∈ rows, d.Emitted line op ∨ RecoveryRow line := by
  have hs : ∃ rows, d.store.writer.records = d.store.writer.records ++ rows ∧
      ∀ line ∈ rows, d.Emitted line op ∨ RecoveryRow line :=
    ⟨[], (List.append_nil _).symm, fun _ hl => absurd hl List.not_mem_nil⟩
  unfold step
  split
  · exact hs
  · split <;> exact hs
  · exact hs
  · next b o env =>
    obtain ⟨r, ho, hso, hrec⟩ := h.openJournal b
    obtain ⟨rows, hr, hre⟩ := hso.records_recover emits_recoverNotification
    simp only [restart, h.reachable.workspaceId_eq, ho]
    exact ⟨rows, hrec ▸ hr, fun line hl => .inr (hre line hl)⟩
  · split
    · exact hs
    · next plan env hpl =>
      have hp := h.reachable.coherent
      obtain ⟨rows, hr, ha⟩ := h.records_perform (emits_plan hp hpl)
      refine ⟨rows, hr, fun line hl => .inl ?_⟩
      obtain ⟨res, hres⟩ := ha line hl
      exact plan_emitted hp hpl hres

theorem step_writes (h : d.store.Sound Emits w) (op : Operation) :
    ∃ rows, (d.step op).store.writer.records = d.store.writer.records ++ rows ∧
      ∀ line ∈ rows, ∀ fact, line.Writes fact → ∃ i step env ctx, op = .worker i step env ∧
          d.contexts[i]? = some ctx ∧ MayWrite d.store.projection ctx fact := by
  obtain ⟨rows, hro, he⟩ := step_records h op
  refine ⟨rows, hro, fun line hl fact hw => ?_⟩
  rcases he line hl with he | hr
  · exact he.mayWrite hw
  · exact absurd hw (not_writes_of_recovery hr)

end Daemon

/-! ## One write per epoch -/

variable [DigestScheme] {p q : MailboxProjection} {line : LedgerLine}
  {fact : NotificationTransition} {workspaceId : WorkspaceId}
  {ok : MailboxProjection → LedgerLine → Prop}

theorem Applies.writes (hp : Coherent p) (h : Applies false p line q) (hwr : line.Writes fact) :
    ∃ c r, p.notification fact.recipient fact.messageId = some c ∧
      c.attemptId = fact.attemptId ∧ c.state = .gating ∧
      q.notification fact.recipient fact.messageId = some r ∧
      r.attemptId = fact.attemptId ∧ r.state = .writing ∧
      r.executionEpoch = c.executionEpoch := by
  obtain ⟨hda, hw⟩ := hwr
  obtain ⟨c, held, checked, hr⟩ := h.transition hp hda (by rw [hw]; nofun)
  have hg : c.state = .gating := by
    rcases transitionAllowed_live.mp checked.allowed with ha | ⟨-, hb, -⟩
    · rw [hw] at ha
      revert ha
      cases c.state <;> decide
    · rw [hw] at hb
      cases hb
  refine ⟨c, transitionRecord line fact c, held, checked.same, hg, hr, rfl, hw, ?_⟩
  simp [NotificationRecord.executionEpoch, transitionRecord, hg]

theorem writes_advance {bef b a : List LedgerLine} {line' : LedgerLine}
    {fact' : NotificationTransition} {c c' : NotificationRecord}
    {p' : MailboxProjection}
    (h : Journal ok workspaceId (bef ++ line :: (b ++ line' :: a)) q)
    (hwri : line.Writes fact) (hw' : line'.Writes fact')
    (hsa : fact'.attemptId = fact.attemptId)
    (hp : replay workspaceId bef = .ok p)
    (hp' : replay workspaceId (bef ++ line :: b) = .ok p')
    (hc : p.notification fact.recipient fact.messageId = some c)
    (hc' : p'.notification fact'.recipient fact'.messageId = some c') :
    c.executionEpoch < c'.executionEpoch := by
  -- The journal up to the second write, and up to the first.
  have hro : bef ++ line :: (b ++ line' :: a) = (bef ++ line :: b ++ [line']) ++ a := by simp
  obtain ⟨_, ht, -⟩ := (hro ▸ h).follows
  obtain ⟨s, hs, -, hap'⟩ := ht.concat_inv
  obtain rfl := hs.unique hp'
  have hr' : bef ++ line :: b = (bef ++ [line]) ++ b := by simp
  obtain ⟨w, hw, hfo⟩ := (hr' ▸ hs).follows
  obtain ⟨first, hf, -, hap⟩ := hw.concat_inv
  obtain rfl := hf.unique hp
  obtain ⟨_, record, hg, -, -, hr, ha, hwr, he⟩ :=
    hap.writes hf.reachable.coherent hwri
  obtain ⟨_, _, hga', ha', hg', -⟩ :=
    hap'.writes hs.reachable.coherent hw'
  cases hc.symm.trans hg
  cases hc'.symm.trans hga'
  -- What the first write left has become what the second one finds.
  have hi : c'.attemptId ∈ w.board.issued := by
    rw [ha', hsa, ← ha]
    exact (hw.reachable.coherent.noted hr).2.2.2
  obtain ⟨left, hle, hl⟩ := hfo.later _ c' hc' hi
  have hk := hw.reachable.coherent.single hle hr (by rw [← hl.same, ha', hsa, ha])
  rw [hk] at hle
  cases hle.symm.trans hr
  refine lt_of_le_of_ne (he ▸ hl.epoch) fun heq => ?_
  have hpa := hl.gate (he.trans heq) (by rw [hwr]; rfl)
  rw [hg'] at hpa
  cases hpa

theorem gate_advances {b a : List LedgerLine} {r : RecipientKey} {m : MessageId}
    {c rec : NotificationRecord} {reached : MailboxProjection}
    (h : Journal ok workspaceId (b ++ line :: a) reached)
    (hp : replay workspaceId b = .ok p)
    (hq : replay workspaceId (b ++ [line]) = .ok q)
    (hc : p.notification r m = some c) (hr : q.notification r m = some rec)
    (hs : rec.attemptId = c.attemptId)
    (hl : c.state = .blockedPreWrite ∨ c.state = .notified)
    (hg : rec.state = .gating) : c.executionEpoch < rec.executionEpoch := by
  have hro : b ++ line :: a = (b ++ [line]) ++ a := by simp
  obtain ⟨_, ht, -⟩ := (hro ▸ h).follows
  obtain rfl := ht.unique hq
  obtain ⟨first, hf, -, ha⟩ := ht.concat_inv
  obtain rfl := hf.unique hp
  have hi : rec.attemptId ∈ p.board.issued :=
    hs ▸ (hf.reachable.coherent.noted hc).2.2.2
  obtain ⟨_, hh, hla⟩ :=
    (ha.follows hf.reachable).later (r, m) rec hr hi
  cases hc.symm.trans hh
  refine lt_of_le_of_ne hla.epoch fun heq => ?_
  have hpa := hla.gate heq (by rcases hl with hl | hl <;> rw [hl] <;> rfl)
  rw [hg] at hpa
  cases hpa

/-! ## Every run -/

def Daemon.WritesOwned (d : Daemon) : Prop :=
  ∀ op, ∃ rows, (d.step op).store.writer.records = d.store.writer.records ++ rows ∧
    ∀ line ∈ rows, ∀ fact, line.Writes fact →
      ∃ index step env context, op = .worker index step env ∧ d.contexts[index]? = some context ∧
        MayWrite d.store.projection context fact

def WritesAdvance (workspaceId : WorkspaceId) (records : List LedgerLine) : Prop :=
  ∀ before line between line' after fact fact' p p' current current',
    records = before ++ line :: (between ++ line' :: after) →
    line.Writes fact → line'.Writes fact' → fact'.attemptId = fact.attemptId →
    replay workspaceId before = .ok p → replay workspaceId (before ++ line :: between) = .ok p' →
    p.notification fact.recipient fact.messageId = some current →
    p'.notification fact'.recipient fact'.messageId = some current' →
    current.executionEpoch < current'.executionEpoch

def GateAdvances (workspaceId : WorkspaceId) (records : List LedgerLine) : Prop :=
  ∀ before line after p q r m current record, records = before ++ line :: after →
    replay workspaceId before = .ok p → replay workspaceId (before ++ [line]) = .ok q →
    p.notification r m = some current → q.notification r m = some record →
    record.attemptId = current.attemptId →
    current.state = .blockedPreWrite ∨ current.state = .notified → record.state = .gating →
    current.executionEpoch < record.executionEpoch

/-- A write is recorded only by the worker that owns the gated attempt in its epoch, at most once an
epoch, and epochs stay below four. -/
theorem write_boundary_fenced (workspaceId : WorkspaceId) (bootId : String) (ops : List Operation) :
    let d := (Daemon.start workspaceId bootId).run ops
    d.WritesOwned ∧ WritesAdvance workspaceId d.store.writer.records ∧
      GateAdvances workspaceId d.store.writer.records ∧
      ∀ r m record, d.store.projection.notification r m = some record →
        record.executionEpoch ≤ 3 := by
  intro d
  have hs : d.store.Sound Emits workspaceId := Daemon.sound_run workspaceId bootId ops
  obtain ⟨reached, hj, -⟩ := hs.records
  refine ⟨fun op => Daemon.step_writes hs op, ?_, ?_, ?_⟩
  · intro b line between line' a fact fact' p p' c c' hr hw hw'
    exact writes_advance (hr ▸ hj) hw hw'
  · intro b line a p q r m c record hr
    exact gate_advances (hr ▸ hj)
  · intro r m record held
    exact (hs.reachable.counted (r, m) record held).executionEpoch_le

end Cyclops
