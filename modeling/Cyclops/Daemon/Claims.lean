import Cyclops.Daemon.Records
import Cyclops.Daemon.Wakes

/-!
# Claims and wakes

A claim settles the wake of its entry once, by the state and transport it finds.

Result: `claim_settles_wake`.
-/

namespace Cyclops

open Checked FiniteMap Daemon MailboxService

/-! ## Careful runs -/

def awaitsWrite (state : NotificationState) : Bool :=
  state matches .queued | .gating | .blockedPreWrite

def keptByClaim (record : NotificationRecord) : Bool :=
  record.state == .blockedPreWrite &&
    record.state.settledByClaim record.transport == .blockedPreWrite

def CarefulRow (p : MailboxProjection) (line : LedgerLine) : Prop :=
  match line.data with
  | some (.mailbox (.messageClaimed _ m r _)) =>
    ∀ record, p.notification r m = some record → keptByClaim record = false
  | some (.notification (.notificationTransition fact)) =>
    p.entryIsClaimed fact.recipient fact.messageId = true →
      ∀ current, p.notification fact.recipient fact.messageId = some current →
        current.state = .writing → fact.state ≠ .blockedPreWrite
  | _ => True

/-- Operations that leave no claimed wake waiting. -/
def Daemon.Careful (d : Daemon) : Operation → Prop
  | .claim claimant reference _ =>
    ∀ m ∈ claimTarget d.store reference,
      ∀ record ∈ d.store.projection.notification claimant m, keptByClaim record = false
  | .worker index .recordPasteCommandUnwritten _ =>
    ∀ context ∈ d.contexts[index]?, ∀ current ∈ context.current d.store,
      context.owns current = true → current.state = .writing →
        d.store.projection.entryIsClaimed context.recipient context.messageId = false
  | _ => True

instance Daemon.decidableCareful (d : Daemon) (op : Operation) : Decidable (d.Careful op) := by
  unfold Careful
  split <;> infer_instance

namespace Board

variable {b : Board} {key : EntryKey}

def Careful (b : Board) : Action → Prop
  | .settle key _ => ∀ record, b.record key = some record → record.state ≠ .blockedPreWrite
  | .move key record _ => (∃ claimant at_, b.entry key = some (.claimed claimant at_)) →
      ∀ current, b.record key = some current → current.state = .writing →
        record.state ≠ .blockedPreWrite
  | _ => True

def Settled (b : Board) : Prop :=
  ∀ key claimant at_ record, b.entry key = some (.claimed claimant at_) →
    b.record key = some record → awaitsWrite record.state = false

theorem awaitsWrite_of_allowed {c : NotificationRecord} {next : NotificationState}
    {cause : Option NotificationPreWriteCause}
    (ha : notificationTransitionAllowed c next cause false = true)
    (hc : awaitsWrite c.state = false) (hn : awaitsWrite next = true) :
    c.state = .writing ∧ next = .blockedPreWrite := by
  rcases transitionAllowed_live.mp ha with ha | ⟨hw, hb, -⟩
  · revert ha hc hn
    cases c.state <;> cases next <;> decide
  · exact ⟨hw, hb⟩

theorem not_awaitsWrite_of_settled {r : NotificationRecord} (h : ModernRecord r)
    (hse : r.state.settledByClaim r.transport = r.state)
    (hst : r.state ≠ .blockedPreWrite) : awaitsWrite r.state = false := by
  by_contra hw
  have hg : r.state = .queued ∨ r.state = .gating := by
    revert hw hst
    cases r.state <;> decide
  rw [h.gated hg] at hse
  rcases hg with hs | hs <;>
  · rw [hs] at hse
    cases hse

theorem Settled.act (h : b.Settled) (hm : b.Modern) {a : Action}
    (hg : b.Guard false a) (hl : b.Live a) (hca : b.Careful a) :
    (b.act a).Settled := by
  intro k c at_ r hcl held
  cases entered_act hg hcl with
  | filed _ hsa => cases hsa
  | superseded _ hsa => cases hsa
  | settled _ hse =>
    exact not_awaitsWrite_of_settled (hm k r held) (hse.2 r held) (hca r held)
  | kept he =>
    have hs : b.entry k ≠ some .pending := by simp [he]
    cases recorded_act hg held with
    | kept hk => exact h k c at_ r he hk
    | superseded | started => exact absurd hg.1 hs
    | moved =>
      obtain ⟨cur, hc, hmo⟩ := hg
      by_contra hw
      rw [Bool.not_eq_false] at hw
      cases hmo with
      | transition line fact _ _ hch =>
        obtain ⟨hwr, hb⟩ :=
          awaitsWrite_of_allowed hch.allowed (h k c at_ cur he hc) hw
        exact hca ⟨c, at_, he⟩ cur hc hwr hb
      | reminded line hp | settled line hp => exact hs hp
    | ended =>
      rw [show r.state = _ from hl]
      rfl

end Board

variable {p : MailboxProjection} {line : LedgerLine} {workspaceId : WorkspaceId}

theorem carefulRow_of_ne {fact : NotificationTransition}
    (hda : line.data = some (.notification (.notificationTransition fact)))
    (hs : fact.state ≠ .blockedPreWrite) : CarefulRow p line := by
  simp only [CarefulRow, hda]
  exact fun _ _ _ _ => hs

theorem carefulRow_worker {ctx : NotificationContext} {st : MessageStore}
    {step : WorkerStep} (h : ctx.Appends st step line)
    (hca : step = .recordPasteCommandUnwritten → ∀ c,
      ctx.Owned st.projection c → c.state = .writing →
        st.projection.entryIsClaimed ctx.recipient ctx.messageId = false) :
    CarefulRow st.projection line := by
  obtain ⟨fact, ⟨-, hda⟩, ⟨hr, hm, -⟩, hre⟩ := h
  cases step <;> simp only [NotificationContext.Records] at hre
  case recordPreWriteBlock =>
    -- The owned record is at the gate, not at its write.
    obtain ⟨-, owned, ⟨ho, -⟩, hg⟩ := hre
    simp only [CarefulRow, hda]
    intro _ c hc hw
    rw [hr, hm, ho, Option.some.injEq] at hc
    rw [← hc, hg] at hw
    cases hw
  case recordPasteCommandUnwritten =>
    obtain ⟨-, owned, ho, hw⟩ := hre
    simp only [CarefulRow, hda, hr, hm, hca rfl owned ho hw]
    rintro ⟨⟩
  all_goals
    refine carefulRow_of_ne hda ?_
    first
      | (rw [hre]; decide)
      | (rw [hre.1]; decide)

variable [DigestScheme]

theorem CarefulRow.board (h : CarefulRow p line) {m : PreparedMutation}
    (hm : p.prepareLineInner line false = .ok m) :
    Runs.Along Board.act Board.Careful p.board (m.actions line) := by
  have ha := (accepted_of_prepare hm).2.2
  unfold CarefulRow at h
  cases ha with
  | @message mid md =>
    cases hs : md.supersedes <;> cases hr : md.recipients <;>
      simp [PreparedMutation.actions, hs, hr, Board.Careful]
  | @claim _ mid k hd =>
    simp only [hd] at h
    cases hu : p.claimSettlement line k mid with
    | none =>
      refine ⟨fun r held hb => ?_, trivial⟩
      have hk := h r held
      rw [keptByClaim, claimSettlement_eq_none hu held, hb] at hk
      cases hk
    | some =>
      obtain ⟨c, -, hne, rfl⟩ := claimSettlement_eq_some hu
      have hst : (settledRecord line c).state ≠ .blockedPreWrite := by
        rcases settledByClaim_cases hne with hst | hst <;>
          simp [settledRecord, hst]
      refine ⟨fun _ _ _ _ => hst, fun r held => ?_, trivial⟩
      have hsa : settledRecord line c = r := by
        simpa [Board.act, Board.hold] using held
      exact hsa ▸ hst
  | deliveredDirect hd hp held hn =>
    refine ⟨fun r hre => ?_, trivial⟩
    rw [show p.board.record _ = _ from held, Option.some.injEq] at hre
    simp [← hre, hn]
  | moved hd =>
    simp only [hd] at h
    exact ⟨fun hc => h (MailboxProjection.board_entry_claimed.mp hc), trivial⟩
  | reminded => exact ⟨fun _ _ _ _ hs => (by cases hs), trivial⟩
  | requeuedAll =>
    refine .of_forall fun a hac => ?_
    obtain ⟨_, -, rfl⟩ := List.mem_map.mp hac
    exact fun _ => trivial
  | started hd | requeued hd | withdrawn hd | resolvedWithoutAction hd | resolved hd
  | barrierRetired =>
    exact ⟨trivial, trivial⟩
  | stagedCleared | ackTimeout => exact ⟨trivial, trivial, trivial⟩
  | _ => exact trivial

def CarefullyEmits (p : MailboxProjection) (line : LedgerLine) : Prop :=
  Emits p line ∧ CarefulRow p line

theorem Journal.settled {ls : List LedgerLine}
    (h : Journal CarefullyEmits workspaceId ls p) : p.board.Modern ∧ p.board.Settled :=
  h.board_invariant (fun b => b.Modern ∧ b.Settled)
    (fun _ _ _ _ hok hm => (hok.1.live hm).and (hok.2.board hm))
    ⟨fun _ _ held => (nomatch held), fun _ _ _ _ _ held => (nomatch held)⟩
    fun _ _ hb hg hbo => ⟨hb.1.act hg hbo.1, hb.2.act hb.1 hg hbo.1 hbo.2⟩

/-! ## A claim settles the wake -/

namespace Daemon

variable {d : Daemon} {op : Operation}

omit [DigestScheme] in
theorem Emitted.careful (h : d.Emitted line op) (hca : d.Careful op) :
    CarefulRow d.store.projection line := by
  cases op <;> simp only [Emitted] at h
  case claim =>
    obtain ⟨-, messageId, _, ht, hda⟩ := h
    simp only [CarefulRow, hda]
    exact fun r held => hca messageId ht r held
  case worker =>
    obtain ⟨ctx, hc, ha⟩ := h
    refine carefulRow_worker ha ?_
    rintro rfl c ⟨hcu, ho⟩
    exact hca ctx hc c hcu ho
  case prepareOldestNotification =>
    obtain ⟨fact, ⟨-, hda⟩, hs, -⟩ := h
    exact carefulRow_of_ne hda (by simp [hs])
  case reopenOldestNotification =>
    obtain ⟨fact, _, ⟨-, hda⟩, hs, -⟩ := h
    exact carefulRow_of_ne hda (by simp [hs])
  case send | reply =>
    obtain ⟨-, _, hda⟩ := h
    simp only [CarefulRow, hda]
  all_goals
    obtain ⟨-, fact, hda, hk⟩ := h
    unfold CarefulRow
    cases fact <;> simp only [hda, reduceCtorEq] at hk ⊢

omit [DigestScheme] in
theorem carefullyEmits_recoverNotification (st : MessageStore) (r : NotificationRecord)
    (now : Nat) : st.Meets CarefullyEmits (.ok (st.recoverNotification r now)) := by
  intro line res hp
  obtain ⟨hst, he⟩ := emits_recoverNotification st r now line res hp
  obtain ⟨fact, hs, heq⟩ := MessageStore.recoverNotification_eq st r now
  rw [heq] at hp
  obtain ⟨-, hda⟩ := transitionRow_append (Except.ok.inj hp)
  refine ⟨hst, he, carefulRow_of_ne hda ?_⟩
  rcases hs with hs | hs <;> simp [hs]

theorem careful_run {bi : String} {ops : List Operation}
    (h : Runs.Along step Careful (start workspaceId bi) ops) :
    ((start workspaceId bi).run ops).store.Sound CarefullyEmits workspaceId :=
  h.invariant (fun d : Daemon => d.store.Sound CarefullyEmits workspaceId)
    (fun _ _ hs hc => step_sound hs (fun _ _ hp _ _ h =>
        have he := plan_emitted hs.reachable.coherent hp h
        ⟨he.stamped, he.emits, he.careful hc⟩)
      carefullyEmits_recoverNotification)
    (.empty workspaceId bi)

end Daemon

/-- In every run of careful operations, a claimed entry has no wake waiting to be
written. -/
theorem claim_settles_wake {bootId : String} {ops : List Operation}
    (careful : Runs.Along step Careful (.start workspaceId bootId) ops)
    (r : RecipientKey) (m : MessageId) :
    let p := ((start workspaceId bootId).run ops).store.projection
    p.entryIsClaimed r m = true → ∀ record, p.notification r m = some record →
      awaitsWrite record.state = false := by
  intro p hc record held
  obtain ⟨c, at_, he⟩ := MailboxProjection.board_entry_claimed.mpr hc
  exact (careful_run careful).journal.settled.2 (r, m) c at_ record he held

def claimThenNotified : List Operation := [ .claim sampleWorker.key sampleMessage ⟨6, .written⟩,
  .worker 0 .recordSubmitted ⟨7, .written⟩,
  .worker 0 (.recordNotified none) ⟨8, .written⟩]

def claimThenUnwritten : List Operation := [ .claim sampleWorker.key sampleMessage ⟨6, .written⟩,
  .worker 0 .recordPasteCommandUnwritten ⟨7, .written⟩]

omit [DigestScheme] in
theorem notified_claim_settles_wake :
    let p := (sampleDaemon claimThenNotified).store.projection
    p.entryIsClaimed sampleWorker.key sampleMessage = true ∧
      ∀ record, p.notification sampleWorker.key sampleMessage = some record →
        awaitsWrite record.state = false := by
  have hca : Runs.Along (@step constantDigests) Careful
      (.start sampleWorkspace "boot") (sampleOps ++ claimThenNotified) := by
    decide +kernel
  have hc : (sampleDaemon claimThenNotified).store.projection.entryIsClaimed
      sampleWorker.key sampleMessage = true := by
    decide +kernel
  have hs := @claim_settles_wake _ constantDigests _ _ hca sampleWorker.key sampleMessage
  exact ⟨hc, hs hc⟩

omit [DigestScheme] in
/-- A write that turns out to have written nothing brings its wake back to wait. -/
theorem unwritten_paste_leaves_wake :
    let p := (sampleDaemon claimThenUnwritten).store.projection
    p.entryIsClaimed sampleWorker.key sampleMessage = true ∧
      (p.notification sampleWorker.key sampleMessage).map NotificationRecord.state =
        some .blockedPreWrite := by
  decide +kernel

end Cyclops
