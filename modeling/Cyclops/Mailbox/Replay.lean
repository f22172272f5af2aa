import Cyclops.Lib.Runs
import Cyclops.Mailbox.Coherence
import Cyclops.Mailbox.Rows

/-!
# Live and replayed projections

The live path validates a row strictly, appends it, and applies it.

Result: `live_projection_eq_replayed`.
-/

namespace Cyclops

open Checked FiniteMap LedgerWriter MessageStore List Bool MailboxProjection

variable {p q : MailboxProjection} {line : LedgerLine} {workspaceId : WorkspaceId}

/-! ## Reading back is more lenient -/

theorem notificationTransitionAllowed_of_live {r : NotificationRecord}
    {next : NotificationState} {c : Option NotificationPreWriteCause}
    (h : notificationTransitionAllowed r next c false = true) :
    notificationTransitionAllowed r next c true = true := by
  simp only [notificationTransitionAllowed, Bool.false_and, Bool.or_false, or_eq_true] at h ⊢
  exact .inl (.inl h)

theorem prepareNotificationTransition_weaker {fact : NotificationTransition} :
    Weaker (p.prepareNotificationTransition line fact false)
      (p.prepareNotificationTransition line fact true) := by
  refine .bind (.refl _) fun _ => .bind ?_ fun _ => .bind (.refl _) fun _ => .bind (.refl _) fun _ =>
    .bind ?_ fun _ => .bind (.refl _) fun _ => .refl _
  · unfold checkTransitionEdge
    split
    · exact .refl _
    · refine .bind (.refl _) fun _ => .bind (.refl _) fun _ => .bind (.refl _) fun _ =>
        .bind (.refuseIf fun h => ?_) fun _ => .refl _
      by_contra hl
      rw [notificationTransitionAllowed_of_live (not_eq_false _ ▸ hl)] at h
      cases h
  · unfold checkTransitionCause
    split
    · exact .bind (.refl _) fun _ => .bind (.refl _) fun _ => .bind (.refl _) fun _ =>
        .bind (.refuseIf fun h => by cases h.2.2) fun _ => .refl _
    · exact .refl _

theorem prepareNotificationFact_weaker {fact : NotificationFact} :
    Weaker (p.prepareNotificationFact line false fact)
      (p.prepareNotificationFact line true fact) := by
  cases fact with
  | notificationTransition => exact prepareNotificationTransition_weaker
  | notificationWithdrawnBeforeWrite =>
    unfold prepareNotificationFact
    iterate 9 refine .bind (.refl _) fun _ => ?_
    exact .bind (.refuseIf fun h => ⟨h.1, fun h' => (nomatch h'.1)⟩) fun _ => .refl _
  | _ => exact .refl _

theorem prepareState_weaker : Weaker (p.prepareState line false) (p.prepareState line true) := by
  unfold prepareState
  cases line.data with
  | none => exact .refl _
  | some data =>
    cases data with
    | metadata => exact .refl _
    | mailbox fact => cases fact <;> exact .refl _
    | notification => exact prepareNotificationFact_weaker
    | malformed f => rcases f with _ | _ | _ | _ <;> exact .refl _

theorem prepareLineInner_weaker [DigestScheme] :
    Weaker (p.prepareLineInner line false) (p.prepareLineInner line true) := by
  refine .bind (.refl _) fun _ => .bind (.refl _) fun _ => ?_
  cases line.kind with
  | state => exact prepareState_weaker
  | _ => exact .refl _

variable [DigestScheme]

theorem Applies.replayed (h : Applies false p line q) : Applies true p line q := by
  obtain ⟨m, hm, hq⟩ := applies_iff.mp h
  exact applies_iff.mpr ⟨m, prepareLineInner_weaker m hm, hq⟩

/-! ## Journals -/

/-- Rows accepted live one after the other, and the projection they lead to. -/
inductive Journal (ok : MailboxProjection → LedgerLine → Prop) (workspaceId : WorkspaceId) :
    List LedgerLine → MailboxProjection → Prop
  | nil : Journal ok workspaceId [] (.new workspaceId)
  | concat {lines : List LedgerLine} {p q : MailboxProjection} {line : LedgerLine}
      (before : Journal ok workspaceId lines p) (meets : ok p line)
      (applies : Applies false p line q) : Journal ok workspaceId (lines ++ [line]) q

variable {ok : MailboxProjection → LedgerLine → Prop} {ls : List LedgerLine}

theorem Reachable.replay (h : replay workspaceId ls = .ok p) : Reachable workspaceId p :=
  Runs.foldlM_invariant (fun _ _ _ hs ht => .apply hs ht) .new h

theorem Journal.concat_inv (h : Journal ok workspaceId (ls ++ [line]) q) :
    ∃ p, Journal ok workspaceId ls p ∧ ok p line ∧ Applies false p line q := by
  generalize hr : ls ++ [line] = rows at h
  cases h with
  | nil => simp at hr
  | concat before meets ha =>
    obtain ⟨rfl, hl⟩ := append_inj' hr rfl
    cases hl
    exact ⟨_, before, meets, ha⟩

theorem Journal.replay (h : Journal ok workspaceId ls p) : replay workspaceId ls = .ok p := by
  induction h with
  | nil => rfl
  | concat _ _ ha ih => exact Runs.foldlM_concat_ok ih ha.replayed

theorem Journal.reachable (h : Journal ok workspaceId ls p) : Reachable workspaceId p :=
  .replay h.replay

theorem Journal.unique (h : Journal ok workspaceId ls p)
    (hq : Cyclops.replay workspaceId ls = .ok q) : q = p :=
  Except.ok.inj (hq.symm.trans h.replay)

theorem Applies.seq {rp : Bool} (h : Applies rp p line q) :
    line.seq = p.head + 1 ∧ q.head = line.seq ∧ q.workspaceId = p.workspaceId := by
  obtain ⟨m, hm, hq⟩ := applies_iff.mp h
  obtain ⟨hh, hw, -⟩ := commitLine_frame hq
  exact ⟨(accepted_of_prepare hm).1, hh, hw⟩

theorem Reachable.workspaceId_eq (h : Reachable workspaceId p) : p.workspaceId = workspaceId := by
  induction h with
  | new => rfl
  | apply _ ha ih => exact ha.seq.2.2.trans ih

theorem readFromStrict_replay (h : replay workspaceId ls = .ok p)
    (hbo : ∀ line ∈ ls, line.seq + 1 < u64Bound) :
    readFromStrict 1 ls = .ok (p.head + 1) := by
  induction ls using reverseRecOn generalizing p with
  | nil =>
    cases h
    rfl
  | append_singleton ls line ih =>
    obtain ⟨t, ht, hlin⟩ := Runs.foldlM_concat_inv h
    obtain ⟨hs, hh, -⟩ := Applies.seq hlin
    have hli := ih ht fun l hl => hbo l (mem_append_left _ hl)
    have hb := hbo line (mem_append_right _ mem_cons_self)
    rw [readFromStrict_concat hli, hh, hs]
    · exact hs
    · omega

/-! ## Sound stores -/

namespace MessageStore

structure Aligned (store : MessageStore) : Prop where
  coherent : Coherent store.projection
  next : store.writer.nextSeq = store.projection.head + 1

structure Sound (ok : MailboxProjection → LedgerLine → Prop) (workspaceId : WorkspaceId)
    (store : MessageStore) : Prop where
  journal : Journal ok workspaceId store.writer.lines store.projection
  next : store.writer.nextSeq = store.projection.head + 1
  bounded : ∀ line ∈ store.writer.records, line.seq + 1 < u64Bound
  torn : ∀ line, store.writer.unacknowledged = some line →
    store.writer.writeStateUnknown = true ∧ ok store.projection line ∧
      ∃ q, Applies false store.projection line q

variable {st : MessageStore} {env : Env}

theorem Sound.reachable (h : st.Sound ok workspaceId) : Reachable workspaceId st.projection :=
  h.journal.reachable

theorem Sound.aligned (h : st.Sound ok workspaceId) : st.Aligned :=
  ⟨h.reachable.coherent, h.next⟩

theorem Sound.empty (workspaceId : WorkspaceId) (b : String) :
    (empty workspaceId b).Sound ok workspaceId where
  journal := .nil
  next := rfl
  bounded := fun _ h => (nomatch h)
  torn := fun _ h => (nomatch h)

/-- Every way an append can end. -/
inductive AppendOutcome (store : MessageStore) (line : LedgerLine) :
    MessageStore × Except Failure Unit → Prop
  | refused {error : MailboxError} (refusal : store.projection.prepareLine line = .error error) :
      AppendOutcome store line (store, .error (.mailbox error))
  | unwritten {error : LedgerError} : AppendOutcome store line (store, .error (.ledger error))
  | torn {kept : Bool} {q : MailboxProjection} (bound : line.seq + 1 < u64Bound)
      (healthy : store.writer.writeStateUnknown = false)
      (applies : Applies false store.projection line q) :
      AppendOutcome store line ({ store with writer := store.writer.tore line kept }, .error (.ledger .io))
  | applied {q : MailboxProjection} (bound : line.seq + 1 < u64Bound)
      (healthy : store.writer.writeStateUnknown = false)
      (applies : Applies false store.projection line q) :
      AppendOutcome store line (⟨store.writer.wrote line, q⟩, .ok ())

theorem Aligned.assign_eq (h : st.Aligned) (hst : st.Stamped line)
    (hs : line.seq = st.projection.head + 1) : st.writer.assign line env.now = line := by
  rw [assign, ← hst.1, h.next, ← hs, if_neg hst.2]

theorem Aligned.perform_ready (h : st.Aligned) (hs : st.Stamped line)
    (hr : st.writer.Ready env.io) {m : PreparedMutation}
    (hm : st.projection.prepareLine line = .ok m) :
    ∃ q, Applies false st.projection line q ∧ ∀ {α : Type} (result : MailboxProjection → Option α),
        st.perform (.ok (.append line result)) env =
          (⟨st.writer.wrote line, q⟩, orRefuse (result q) .panicked) := by
  have ha : st.writer.assign line env.now = line :=
    h.assign_eq hs (accepted_of_prepare hm).1
  obtain ⟨q, hq, -⟩ := h.coherent.apply hm
  refine ⟨q, applies_iff.mpr ⟨m, hm, hq⟩, fun result => ?_⟩
  simp only [perform, append, hm, hr.append, ha, hq]

theorem Aligned.append_outcome (h : st.Aligned) (hst : st.Stamped line) :
    AppendOutcome st line (st.append line env) := by
  unfold append
  split
  · next e he => exact .refused he
  · next m hm =>
    have hs : line.seq = st.writer.nextSeq := by rw [(accepted_of_prepare hm).1, h.next]
    have has : st.writer.assign line env.now = line :=
      h.assign_eq hst (accepted_of_prepare hm).1
    obtain ⟨q, hq, -⟩ := h.coherent.apply hm
    have hap : Applies false st.projection line q := applies_iff.mpr ⟨m, hm, hq⟩
    rcases st.writer.append_cases line env.now env.io with
      ⟨e, ha⟩ | ⟨hh, hb, kept, ha⟩ | ⟨hh, hb, ha⟩
    · rw [ha]
      exact .unwritten
    · rw [ha, has]
      exact .torn (hs ▸ hb) hh hap
    · rw [ha, has]
      dsimp only
      rw [hq]
      exact .applied (hs ▸ hb) hh hap

theorem Sound.unacknowledged_eq_none (h : st.Sound ok workspaceId)
    (healthy : st.writer.writeStateUnknown = false) : st.writer.unacknowledged = none := by
  refine Option.eq_none_iff_forall_ne_some.mpr fun row hr => ?_
  rw [(h.torn row hr).1] at healthy
  cases healthy

variable {α : Type} {result : MessageStore × Except Failure Unit}
  {plan : Except Failure (Plan α)}

theorem Sound.of_outcome (h : st.Sound ok workspaceId) (meets : ok st.projection line)
    (ho : AppendOutcome st line result) :
    result.1.Sound ok workspaceId := by
  cases ho with
  | refused => exact h
  | unwritten => exact h
  | @torn kept q hb healthy ha =>
    cases kept with
    | false =>
      exact { h with
        bounded := fun row hr => h.bounded row (mem_append_left _
          (by simpa [records, tore] using hr))
        torn := fun _ hr => (nomatch hr) }
    | true =>
      refine { h with bounded := ?_, torn := ?_ }
      · intro row hr
        rcases mem_append.mp hr with hr | hr
        · exact h.bounded row (mem_append_left _ hr)
        · rw [mem_singleton.mp hr]
          exact hb
      · intro row hr
        cases hr
        exact ⟨rfl, meets, q, ha⟩
  | applied hb healthy ha =>
    have hn := h.unacknowledged_eq_none healthy
    refine { journal := .concat h.journal meets ha, next := ?_, bounded := ?_, torn := ?_ }
    · obtain ⟨hs, hh, -⟩ := ha.seq
      change st.writer.nextSeq + 1 = _
      rw [hh, hs, h.next]
    · intro row hr
      simp only [records, wrote, hn, Option.toList_none,
        append_nil, mem_append, mem_singleton] at hr
      rcases hr with hr | rfl
      · exact h.bounded row (mem_append_left _ hr)
      · exact hb
    · intro row hr
      exact absurd (hn.symm.trans hr) nofun

theorem perform_fst (plan : Except Failure (Plan α)) : (st.perform plan env).1 = st ∨
      ∃ line result, plan = .ok (.append line result) ∧
        (st.perform plan env).1 = (st.append line env).1 := by
  unfold perform
  split
  · exact .inl rfl
  · exact .inl rfl
  · next line result =>
    refine .inr ⟨line, result, rfl, ?_⟩
    split <;> next ha => rw [ha]

/-- The ways an operation can end. -/
inductive Performed (store : MessageStore) (plan : Except Failure (Plan α)) :
    MessageStore × Except Failure α → Prop
  | answered {value : α} (planned : plan = .ok (.answer value)) :
      Performed store plan (store, .ok value)
  | failed {store' : MessageStore} {error : Failure}
      (lines : store'.writer.lines = store.writer.lines)
      (projection : store'.projection = store.projection) :
      Performed store plan (store', .error error)
  | applied {line : LedgerLine} {result : MailboxProjection → Option α} {store' : MessageStore}
      (planned : plan = .ok (.append line result))
      (applies : Applies false store.projection line store'.projection) :
      Performed store plan (store', orRefuse (result store'.projection) .panicked)

theorem Aligned.performed (h : st.Aligned) (hs : st.StampedPlan plan) :
    Performed st plan (st.perform plan env) := by
  unfold perform
  split
  · exact .failed rfl rfl
  · exact .answered rfl
  · next line result =>
    have ho : AppendOutcome st line (st.append line env) :=
      h.append_outcome (hs line result rfl)
    generalize st.append line env = o at ho
    cases ho with
    | refused | unwritten | torn => exact .failed rfl rfl
    | applied _ _ ha => exact .applied rfl ha

/-- An operation that succeeds has answered without a row, or has applied its row. -/
theorem Performed.eq_ok {o : MessageStore × Except Failure α} {v : α}
    (h : Performed st plan o) (hok : o.2 = .ok v) :
    plan = .ok (.answer v) ∧ o.1 = st ∨ ∃ line result, plan = .ok (.append line result) ∧
        Applies false st.projection line o.1.projection ∧
        result o.1.projection = some v := by
  cases h with
  | answered planned =>
    cases hok
    exact .inl ⟨planned, rfl⟩
  | failed => cases hok
  | applied planned applies => exact .inr ⟨_, _, planned, applies, orRefuse_eq_ok.mp hok⟩

def Meets {α : Type} (ok : MailboxProjection → LedgerLine → Prop) (store : MessageStore)
    (plan : Except Failure (Plan α)) : Prop :=
  ∀ line result, plan = .ok (.append line result) →
    store.Stamped line ∧ ok store.projection line

section

variable (h : st.Sound ok workspaceId)

include h

theorem Sound.perform (hme : st.Meets ok plan) : (st.perform plan env).1.Sound ok workspaceId := by
  rcases perform_fst plan with heq | ⟨line, result, hp, heq⟩
  · rw [heq]
    exact h
  · obtain ⟨hs, hm⟩ := hme line result hp
    rw [heq]
    exact h.of_outcome hm (h.aligned.append_outcome hs)

theorem Sound.records_of_outcome (ho : AppendOutcome st line result) :
    ∃ rows, result.1.writer.records = st.writer.records ++ rows ∧ ∀ row ∈ rows, row = line := by
  cases ho with
  | refused | unwritten => exact ⟨[], by simp, fun _ h => absurd h not_mem_nil⟩
  | @torn kept _ _ healthy =>
    have hn := h.unacknowledged_eq_none healthy
    cases kept with
    | false =>
      exact ⟨[], by simp [records, tore, hn], fun _ h => absurd h not_mem_nil⟩
    | true =>
      exact ⟨[line], by simp [records, tore, hn], fun row hr => mem_singleton.mp hr⟩
  | applied _ healthy =>
    have hn := h.unacknowledged_eq_none healthy
    exact ⟨[line], by simp [records, wrote, hn], fun row hr => mem_singleton.mp hr⟩

theorem Sound.records_perform (hm : st.Meets ok plan) :
    ∃ rows, (st.perform plan env).1.writer.records = st.writer.records ++ rows ∧
      ∀ row ∈ rows, ∃ result, plan = .ok (.append row result) := by
  rcases perform_fst plan with heq | ⟨line, result, hp, heq⟩
  · exact ⟨[], by rw [heq, append_nil], fun _ h => absurd h not_mem_nil⟩
  · have ho : AppendOutcome st line (st.append line env) :=
      h.aligned.append_outcome (hm line result hp).1
    obtain ⟨rows, hr, hl⟩ := h.records_of_outcome ho
    exact ⟨rows, by rw [heq, hr], fun row hro => ⟨result, hl row hro ▸ hp⟩⟩

/-! ## Opening the journal again -/

theorem Sound.records : ∃ q, Journal ok workspaceId st.writer.records q ∧
      (st.writer.unacknowledged = none ∧ q = st.projection ∨
        ∃ row, st.writer.unacknowledged = some row ∧ Applies false st.projection row q) := by
  cases hr : st.writer.unacknowledged with
  | none =>
    refine ⟨st.projection, ?_, .inl ⟨rfl, rfl⟩⟩
    simpa [LedgerWriter.records, hr] using h.journal
  | some row =>
    obtain ⟨-, hm, q, hq⟩ := h.torn row hr
    refine ⟨q, ?_, .inr ⟨row, rfl, hq⟩⟩
    simpa [LedgerWriter.records, hr] using h.journal.concat hm hq

theorem Sound.openJournal (b : String) : ∃ r, openJournal workspaceId b st.writer.records = .ok r ∧
      r.Sound ok workspaceId ∧ r.writer.records = st.writer.records := by
  obtain ⟨q, hq, -⟩ := h.records
  have hre := readFromStrict_replay hq.replay h.bounded
  refine ⟨⟨⟨b, q.head + 1, false, false, st.writer.records, none⟩, q⟩, ?_, ?_, ?_⟩
  · simp only [MessageStore.openJournal, LedgerWriter.openStrict, hre, hq.replay]
    rfl
  · exact {
      journal := hq
      next := rfl
      bounded := fun row hr => h.bounded row (by simpa [LedgerWriter.records] using hr)
      torn := fun _ hr => (nomatch hr) }
  · simp [LedgerWriter.records]

end

variable {rs : List NotificationRecord} {env : NotificationAttemptId → Env}

/-- What every row of a recovery preserves holds after it, however far it gets. -/
theorem recoverNotifications_invariant (inv : MessageStore → Prop)
    (hp : ∀ (st : MessageStore) (r : NotificationRecord), inv st →
      inv (st.perform (.ok (st.recoverNotification r (env r.attemptId).now)) (env r.attemptId)).1)
    (h : inv st) : inv (recoverNotifications env rs st).1 := by
  induction rs generalizing st with
  | nil => exact h
  | cons r rest ih =>
    have ho := hp st r h
    unfold recoverNotifications
    split
    · next hs =>
      rw [hs] at ho
      exact ho
    · next hs =>
      rw [hs] at ho
      have hr := ih ho
      split <;> next hs' => rw [hs'] at hr; exact hr

def Recovers (ok : MailboxProjection → LedgerLine → Prop) : Prop :=
  ∀ (store : MessageStore) (record : NotificationRecord) (now : Nat),
    store.Meets ok (.ok (store.recoverNotification record now))

theorem Sound.recover_invariant (h : st.Sound ok workspaceId) (hm : Recovers ok)
    (inv : MessageStore → Prop) (hs : inv st)
    (hp : ∀ (r : MessageStore) (rec : NotificationRecord) (now : Nat) (env : Env),
      r.Sound ok workspaceId → inv r →
        inv (r.perform (.ok (r.recoverNotification rec now)) env).1) :
    (recoverNotifications env rs st).1.Sound ok workspaceId ∧
      inv (recoverNotifications env rs st).1 :=
  recoverNotifications_invariant (fun r => r.Sound ok workspaceId ∧ inv r)
    (fun r rec h => ⟨h.1.perform (hm r rec _), hp r rec _ _ h.1 h.2⟩) ⟨h, hs⟩

theorem Sound.recoverNotifications (h : st.Sound ok workspaceId) (hm : Recovers ok) :
    (recoverNotifications env rs st).1.Sound ok workspaceId :=
  (h.recover_invariant hm (fun _ => True) trivial fun _ _ _ _ _ _ => trivial).1

def RecoveryRow (line : LedgerLine) : Prop :=
  ∃ (store : MessageStore) (record : NotificationRecord) (now : Nat)
    (result : MailboxProjection → Option NotificationRecord),
    store.recoverNotification record now = .append line result

theorem Sound.records_recover (h : st.Sound ok workspaceId) (hme : Recovers ok) :
    ∃ rows, (MessageStore.recoverNotifications env rs st).1.writer.records =
      st.writer.records ++ rows ∧ ∀ row ∈ rows, RecoveryRow row := by
  refine (h.recover_invariant hme (fun r => ∃ rows, r.writer.records =
    st.writer.records ++ rows ∧ ∀ row ∈ rows, RecoveryRow row)
    ⟨[], by simp, fun _ h => absurd h not_mem_nil⟩ ?_).2
  rintro r record now env hs ⟨rows, hro, hre⟩
  obtain ⟨more, hm, hp⟩ := hs.records_perform (hme r record now)
  refine ⟨rows ++ more, by rw [hm, hro, append_assoc], fun row hr => ?_⟩
  rcases mem_append.mp hr with hr | hr
  · exact hre row hr
  · obtain ⟨result, hres⟩ := hp row hr
    exact ⟨r, record, _, result, Except.ok.inj hres⟩

end MessageStore

/-! ## Runs of store operations -/

/-- The operations of a message store; `fact` appends any notification fact at all. -/
inductive StoreOperation where
  | accept (messageId : MessageId) (draft : MessageDraft) (ts : Nat) (env : Env)
  | reply (messageId : MessageId) (draft : ReplyDraft) (ts : Nat) (env : Env)
  | claim (claimant : RecipientKey) (messageId : MessageId) (ts : Nat) (env : Env)
  | transition (fact : NotificationTransition) (ts : Nat) (env : Env)
  | fact (messageId : MessageId) (recipient : RecipientKey) (fact : NotificationFact) (ts : Nat)
      (env : Env)
  | requeue (messageId : MessageId) (recipient : RecipientKey)
      (priorAttemptId attemptId : NotificationAttemptId) (ts : Nat) (env : Env)
  | requeues (messageId : MessageId) (requeues : List NotificationRequeue) (ts : Nat) (env : Env)
  | clear (messageId : MessageId) (recipient : RecipientKey) (attemptId : NotificationAttemptId)
      (ts : Nat) (env : Env)
  | clears (operator : RecipientKey) (attemptIds : List NotificationAttemptId)
      (cutoffMs : Option Nat) (ts : Nat) (draw : Uuid) (env : Env)
  | withdraw (operator recipient : RecipientKey) (attemptId : NotificationAttemptId) (env : Env)
  | recover (order : MessageStore.IterationOrder) (env : NotificationAttemptId → Env)

namespace MessageStore

def performUnit {α : Type} (store : MessageStore) (plan : Except Failure (Plan α)) (env : Env) :
    MessageStore × Except Failure Unit :=
  ((store.perform plan env).1, (store.perform plan env).2.map fun _ => ())

def operate (store : MessageStore) : StoreOperation → MessageStore × Except Failure Unit
  | .accept messageId draft ts env =>
    store.performUnit (store.acceptAt messageId draft ts env.now) env
  | .reply messageId draft ts env =>
    store.performUnit (store.replyAt messageId draft ts env.now) env
  | .claim claimant messageId ts env =>
    store.performUnit (store.claimAt claimant messageId ts env.now) env
  | .transition fact ts env =>
    store.performUnit (.ok (store.appendNotificationTransitionFullAt fact ts env.now)) env
  | .fact messageId recipient fact ts env =>
    -- Nothing is read back: the fact may be about any entry.
    store.append (store.stateRow messageId.text (stamp ts env.now) "cyclopsd" [recipient.text]
      (.notification fact)) env
  | .requeue messageId recipient priorAttemptId attemptId ts env =>
    store.performUnit (.ok (store.requeueNotificationAt messageId recipient priorAttemptId attemptId
      ts env.now)) env
  | .requeues messageId requeues ts env =>
    store.performUnit (.ok (store.requeueNotificationsAt messageId requeues ts env.now)) env
  | .clear messageId recipient attemptId ts env =>
    store.performUnit (.ok (store.clearNotificationAt messageId recipient attemptId ts env.now)) env
  | .clears operator attemptIds cutoffMs ts draw env =>
    store.performUnit (liftMailbox (store.clearNotificationsAt operator attemptIds cutoffMs ts
      env.now draw)) env
  | .withdraw operator recipient attemptId env =>
    store.performUnit (liftMailbox (store.withdrawNotificationBeforeWrite operator recipient
      attemptId env.now)) env
  | .recover order env =>
    let recovered := store.recoverNotificationsAfterRestart order env
    (recovered.1, recovered.2.map fun _ => ())

def runOperations (store : MessageStore) (ops : List StoreOperation) : MessageStore :=
  ops.foldl (fun store op => (store.operate op).1) store

def anyRow (_ : MailboxProjection) (_ : LedgerLine) : Prop :=
  True

variable {store : MessageStore} {α : Type} {plan : Except Failure (Plan α)}

omit [DigestScheme] in
theorem StampedPlan.meets (h : store.StampedPlan plan) : store.Meets anyRow plan :=
  fun line result hp => ⟨h line result hp, trivial⟩

theorem Sound.performUnit {env : Env} (h : store.Sound anyRow workspaceId)
    (hs : store.StampedPlan plan) :
    (store.performUnit plan env).1.Sound anyRow workspaceId :=
  h.perform hs.meets

theorem Sound.operate (h : store.Sound anyRow workspaceId) (op : StoreOperation) :
    (store.operate op).1.Sound anyRow workspaceId := by
  cases op with
  | accept => exact h.performUnit stampedPlan_acceptCanonicalAt
  | reply => exact h.performUnit stampedPlan_replyAt
  | claim => exact h.performUnit stampedPlan_claimAt
  | transition fact ts env | requeue messageId recipient priorAttemptId attemptId ts env
  | requeues =>
    exact h.performUnit stampedPlan_append_stateRow
  | fact =>
    exact h.of_outcome trivial (h.aligned.append_outcome stamped_stateRow)
  | clear =>
    exact h.performUnit stampedPlan_clearNotificationAt
  | clears =>
    exact h.performUnit stampedPlan_clearNotificationsAt
  | withdraw =>
    exact h.performUnit stampedPlan_withdrawNotificationBeforeWrite
  | recover =>
    exact h.recoverNotifications fun _ r now => (stampedPlan_recoverNotification r now).meets

theorem sound_runOperations (workspaceId : WorkspaceId) (b : String) (ops : List StoreOperation) :
    ((empty workspaceId b).runOperations ops).Sound anyRow workspaceId :=
  Runs.foldl_invariant (Sound anyRow workspaceId) (fun _ op h => .operate h op) (.empty workspaceId b)

/-- After any operations the live projection is the replay of the rows they appended. -/
theorem live_projection_eq_replayed (workspaceId : WorkspaceId) (bootId : String)
    (ops : List StoreOperation) :
    let store := (empty workspaceId bootId).runOperations ops
    replay workspaceId store.writer.lines = .ok store.projection ∧
      ∃ q, replay workspaceId store.writer.records = .ok q := by
  have hs := sound_runOperations workspaceId bootId ops
  obtain ⟨q, hq, -⟩ := hs.records
  exact ⟨hs.journal.replay, q, hq.replay⟩

end MessageStore

end Cyclops
