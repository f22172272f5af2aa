import Cyclops.Daemon.Emission

/-!
# Past the write boundary

An attempt that crossed its write boundary and is not settled is in one of five states.
-/

namespace Cyclops

open Checked FiniteMap List MessageStore WorkerStep Board

/-- States of an attempt past its write boundary that nothing has settled. -/
def crossed (state : NotificationState) : Bool :=
  state matches .writing | .staged | .submitting | .submitted | .submittedUnverified

def SubmittedDoorbell (record : NotificationRecord) : Prop :=
  record.transport = .doorbell ∧
    (record.state = .submitted ∨ record.state = .submittedUnverified)

theorem SubmittedDoorbell.crossed {rec : NotificationRecord} (h : SubmittedDoorbell rec) :
    crossed rec.state = true := by
  rcases h.2 with hs | hs <;> rw [hs] <;> rfl

/-! ## Calm changes -/

variable {line : LedgerLine} {st : MessageStore} {env : Env} {now : Nat}
  {w : WorkspaceId} {context : NotificationContext} {step : WorkerStep}

namespace Board

variable {b b' b'' : Board} {key : EntryKey}

/-- No record of the entry is newly past its boundary, no submitted doorbell newly claimed. -/
structure Calm (key : EntryKey) (b b' : Board) : Prop where
  same : ∀ record, b'.record key = some record → crossed record.state = true →
    b.record key = some record
  receipt : ∀ record, b'.record key = some record → SubmittedDoorbell record →
    b'.Claimed key → b.Claimed key
  claimed : b.Claimed key → b'.Claimed key

theorem Calm.refl (key : EntryKey) (b : Board) : Calm key b b :=
  ⟨fun _ held _ => held, fun _ _ _ h => h, id⟩

theorem Calm.trans (h : Calm key b b') (h' : Calm key b' b'') : Calm key b b'' where
  same := fun rec held hp => h.same rec (h'.same rec held hp) hp
  receipt := fun rec held hs claimed =>
    h.receipt rec (h'.same rec held hs.crossed) hs (h'.receipt rec held hs claimed)
  claimed := h'.claimed ∘ h.claimed

/-- Actions that take no record of the entry past its write boundary. -/
def Quiet (key : EntryKey) : Action → Prop
  | .move key' record _ => key' = key → crossed record.state = false
  | _ => True

variable {r : NotificationRecord} {a : Action}

theorem same_act (hg : b.Guard false a) (hqu : Quiet key a)
    (held : (b.act a).record key = some r) (hp : crossed r.state = true) :
    b.record key = some r := by
  cases recorded_act hg held with
  | kept hk => exact hk
  | superseded _ hs =>
    rw [hs] at hp
    cases hp
  | started =>
    obtain ⟨-, -, -, ⟨line, hq⟩, -⟩ := hg
    rw [hq] at hp
    cases hp
  | moved => exact absurd hp (by simp [hqu rfl])
  | ended =>
    obtain ⟨current, -, he⟩ := hg
    cases he <;> cases hp

theorem receipt_act (hg : b.Guard false a)
    (held : (b.act a).record key = some r) (hsu : SubmittedDoorbell r)
    (hc : (b.act a).Claimed key) :
    b.Claimed key := by
  obtain ⟨at_, he⟩ := hc
  cases entered_act hg he with
  | kept hk => exact ⟨at_, hk⟩
  | filed _ hsa => cases hsa
  | settled _ hse =>
    have hs := hse.2 r held
    rcases hsu with ⟨hdo, hst | hst⟩ <;> (rw [hdo, hst] at hs; cases hs)
  | superseded _ hsa => cases hsa

theorem Calm.act (hg : b.Guard false a) (hq : Quiet key a) : Calm key b (b.act a) where
  same := fun _ held hp => same_act hg hq held hp
  receipt := fun _ held hs claimed => receipt_act hg held hs claimed
  claimed := fun ⟨at_, he⟩ => ⟨at_, act_entry_of_settled hg he nofun⟩

end Board

/-! ## Rows -/

section Rows

variable {p q : MailboxProjection} {key : EntryKey}

def QuietRow (key : EntryKey) (line : LedgerLine) : Prop :=
  ∀ fact, line.data = some (.notification (.notificationTransition fact)) →
    (fact.recipient, fact.messageId) = key → crossed fact.state = false

variable [DigestScheme]

theorem QuietRow.board (h : QuietRow key line) {m : PreparedMutation}
    (hm : p.prepareLineInner line false = .ok m) :
    Runs.Along act (fun _ => Quiet key) p.board (m.actions line) := by
  refine .of_forall fun a ha _ => ?_
  cases (accepted_of_prepare hm).2.2 with
  | message =>
    simp only [PreparedMutation.actions, mem_append, mem_singleton] at ha
    rcases ha with ha | rfl
    · split at ha
      · rw [mem_singleton.mp ha]
        trivial
      · cases ha
    · trivial
  | claim =>
    simp only [PreparedMutation.actions, mem_append, Option.mem_toList, mem_singleton,
      Option.map_eq_some_iff] at ha
    rcases ha with ⟨u, hu, rfl⟩ | rfl
    · obtain ⟨current, -, hne, rfl⟩ := claimSettlement_eq_some hu
      intro _
      rcases settledByClaim_cases hne with hs | hs <;> simp [settledRecord, hs, crossed]
    · trivial
  | @moved fact current hd =>
    rw [mem_singleton.mp ha]
    exact h fact hd
  | reminded =>
    rw [mem_singleton.mp ha]
    exact fun _ => rfl
  | requeuedAll =>
    obtain ⟨_, -, rfl⟩ := mem_map.mp ha
    trivial
  | started hd | requeued hd | withdrawn hd | deliveredDirect hd
  | resolvedWithoutAction | resolved | barrierRetired =>
    rw [mem_singleton.mp ha]; trivial
  | stagedCleared | ackTimeout =>
    rcases mem_cons.mp ha with rfl | ha
    · trivial
    · rw [mem_singleton.mp ha]; trivial
  | _ => cases ha

theorem Applies.calm (hp : Coherent p) (h : Applies false p line q) (hq : QuietRow key line) :
    Calm key p.board q.board := by
  obtain ⟨m, hm, hg, hb⟩ := h.board hp
  rw [hb]
  exact (hg.and (hq.board hm)).invariant (Calm key p.board)
    (fun b a hc hok => hc.trans (.act hok.1 hok.2)) (.refl key p.board)

namespace MessageStore

variable {ok : MailboxProjection → LedgerLine → Prop}

theorem Sound.perform_calm {α : Type} (h : st.Sound ok w) {plan : Except Failure (Plan α)}
    (hq : ∀ line r, plan = .ok (.append line r) → st.Stamped line ∧ QuietRow key line) :
    Calm key st.projection.board (st.perform plan env).1.projection.board := by
  have hpe : Performed st plan (st.perform plan env) :=
    h.aligned.performed fun line r hp => (hq line r hp).1
  generalize st.perform plan env = o at hpe ⊢
  cases hpe with
  | answered => exact .refl _ _
  | failed _ hpr => exact hpr ▸ .refl _ _
  | applied hpl ha => exact ha.calm h.reachable.coherent (hq _ _ hpl).2

end MessageStore

end Rows

/-! ## Operations -/

/-- The state to which a step takes its attempt past the boundary, and the transport it fixes. -/
def WorkerStep.boundary : WorkerStep → Option (NotificationState × Option NotificationTransport)
  | .recordWriting _ _ _ _ transport _ => some (.writing, some transport)
  | .recordWritingRaw => some (.writing, some .raw)
  | .recordSubmitted => some (.submitted, none)
  | .recordSubmittedUnverified => some (.submittedUnverified, none)
  | _ => none

def WorkerStep.crosses (step : WorkerStep) : Bool :=
  step.boundary.isSome

namespace NotificationContext

variable {e : EntryKey}

def key (context : NotificationContext) : EntryKey :=
  (context.recipient, context.messageId)

theorem Appends.quietRow (h : context.Appends st step line)
    (hq : step.crosses = true → context.key ≠ e) : QuietRow e line := by
  obtain ⟨fact, ⟨-, hda⟩, ⟨hr, hm, -⟩, hre⟩ := h
  intro fact' hd' hk
  rw [hda, Option.some.injEq, RowData.notification.injEq,
    NotificationFact.notificationTransition.injEq] at hd'
  subst hd'
  have hc : step.crosses = false := by
    by_contra hs
    exact hq (by simpa using hs) (by rw [NotificationContext.key, ← hr, ← hm, hk])
  cases step <;> simp only [Records] at hre
  case recordGating => rw [hre.1]; rfl
  case recordWriting | recordWritingRaw | recordSubmitted | recordSubmittedUnverified =>
    cases hc
  case recordNotified | recordMailboxNotified | settleSubmittedClaim | recordAttention =>
    rw [hre]; rfl
  case recordPreWriteBlock | recordPasteCommandUnwritten => rw [hre.1]; rfl

end NotificationContext

namespace Daemon

variable [DigestScheme] {d : Daemon} {op : Operation} {k : RecipientKey}

def apart (d : Daemon) (recipient : RecipientKey) : Operation → Bool
  | .restart _ _ _ => false
  | .worker index step _ =>
    !step.crosses || ((d.contexts[index]?).all fun context => context.recipient != recipient)
  | _ => true

omit [DigestScheme] in
theorem Emitted.quietRow (h : d.Emitted line op) (hap : d.apart k op = true)
    (m : MessageId) : QuietRow (k, m) line := by
  intro fact hda hk
  rcases h.transition hda with
    ⟨i, step, env, context, rfl, hc, ha⟩ | hqueued | hgating
  · refine ha.quietRow (fun hcr hs => ?_) fact hda hk
    simp only [Daemon.apart, hcr, hc, Bool.not_true, Bool.false_or, Option.all_some,
      bne_iff_ne] at hap
    exact hap (congrArg Prod.fst hs)
  · rw [hqueued]
    rfl
  · rw [hgating]
    rfl

/-- What happens elsewhere in the daemon is a calm change for every entry of the
recipient. -/
theorem step_calm (h : d.store.Sound Emits w) (hap : d.apart k op = true) (m : MessageId) :
    Calm (k, m) d.store.projection.board (d.step op).store.projection.board := by
  unfold step
  split
  · exact .refl _ _
  · split <;> exact .refl _ _
  · exact .refl _ _
  · cases hap
  · split
    · exact .refl _ _
    · next plan env hp =>
      refine h.perform_calm fun line r ha => ?_
      have he := plan_emitted h.reachable.coherent hp ha
      exact ⟨he.stamped, he.quietRow hap m⟩

end Daemon

/-! ## The steps of one worker -/

namespace NotificationContext

variable {current : NotificationRecord} {fact : NotificationTransition}

theorem owns_transitionRecord (ho : context.owns current = true) (hn : context.Names fact)
    (hg : fact.state ≠ .gating) : context.owns (transitionRecord line fact current) = true := by
  simp only [owns, Bool.and_eq_true, beq_iff_eq] at ho ⊢
  refine ⟨hn.2.2, ?_⟩
  rw [← ho.2]
  simp [NotificationRecord.executionEpoch, transitionRecord, hg]

variable {state : NotificationState} {transport : Option NotificationTransport}

/-- What a step has found when it takes its attempt past the boundary. It never
finds that done already. -/
theorem boundary_plan {planned : Plan Unit} (hs : step.boundary = some (state, transport))
    (h : context.plan st step now = .ok planned) :
    ∃ line r fact current, planned = .append line r ∧ TransitionRow st fact line ∧
      context.Names fact ∧ fact.state = state ∧ fact.transport = transport ∧
      context.Owned st.projection current := by
  cases step <;> simp only [boundary] at hs <;> obtain ⟨rfl, rfl⟩ := hs <;>
    obtain ⟨_, hp, rfl⟩ := discardAnswer_eq_ok h
  case recordWriting =>
    simp only [recordWriting, bind_eq_ok] at hp
    obtain ⟨_, -, current, hg, hp⟩ := hp
    unfold advanceNotificationWithTransport at hp
    split at hp
    · cases hp
    · cases hp
      exact ⟨_, _, _, current, rfl, transitionRow_append rfl, ⟨rfl, rfl, rfl⟩, rfl, rfl,
        (ownedGating_eq_ok hg).2.1⟩
  case recordWritingRaw =>
    simp only [recordWritingRaw, bind_eq_ok, pure_eq_ok] at hp
    obtain ⟨current, hg, rfl⟩ := hp
    exact ⟨_, _, _, current, rfl, transitionRow_append rfl, ⟨rfl, rfl, rfl⟩, rfl, rfl,
      (ownedGating_eq_ok hg).2.1⟩
  case recordSubmitted | recordSubmittedUnverified =>
    simp only [advanceLocked, bind_eq_ok, pure_eq_ok, ownedRecord_eq_ok] at hp
    obtain ⟨current, ho, rfl⟩ := hp
    exact ⟨_, _, _, current, rfl, transitionRow_append rfl, ⟨rfl, rfl, rfl⟩, rfl, rfl, ho⟩

structure Crosses (context : NotificationContext) (p q : MailboxProjection)
    (step : NotificationState × Option NotificationTransport)
    (current record : NotificationRecord) : Prop where
  owned : context.Owned p current
  moved : context.Owned q record
  state : record.state = step.1
  before : step.1 ≠ .writing → crossed current.state = true
  transport : record.transport = step.2.getD current.transport

variable [DigestScheme] {boundary : NotificationState × Option NotificationTransport}

theorem crosses_of_applies {p q : MailboxProjection} (hp : Coherent p)
    (hste : step.boundary = some boundary) (hap : Applies false p line q)
    (hda : line.data = some (.notification (.notificationTransition fact)))
    (hn : context.Names fact) (hst : fact.state = boundary.1)
    (ht : fact.transport = boundary.2) (ho : context.Owned p current) :
    context.Crosses p q boundary current (transitionRecord line fact current) := by
  have hb : boundary.1 = .writing ∧ boundary.2 ≠ none ∨
      (boundary.1 = .submitted ∨ boundary.1 = .submittedUnverified) ∧ boundary.2 = none := by
    cases step <;> cases hste <;> simp
  have hm : fact.state ≠ .queued ∧ fact.state ≠ .gating ∧ fact.state ≠ .blockedPreWrite ∧
      fact.isMailboxClose = false := by
    rcases hb with ⟨h, -⟩ | ⟨h | h, -⟩ <;> simp [hst, h, NotificationTransition.isMailboxClose]
  obtain ⟨f, hf, checked, hr⟩ := hap.transition hp hda hm.1
  rw [hn.1, hn.2.1] at hf hr
  obtain rfl : f = current := Option.some.inj (hf.symm.trans ho.1)
  refine ⟨ho, ⟨hr, owns_transitionRecord ho.2 hn hm.2.1⟩, hst, ?_, ?_⟩
  · intro hsu
    rcases transitionAllowed_live.mp checked.allowed with ha | ⟨-, hbl, -⟩
    · obtain ⟨hs, -⟩ := hb.resolve_left fun h => hsu h.1
      rw [← hst] at hs
      revert ha
      rcases hs with h | h <;> rw [h] <;> cases f.state <;> decide
    · exact absurd hbl hm.2.2.1
  · rcases hb with ⟨hw, hso⟩ | ⟨hs, hno⟩
    · obtain ⟨transport, ht'⟩ := Option.ne_none_iff_exists'.mp hso
      simp [transitionRecord, hst, hw, ht, ht']
    · have hne : fact.state ≠ .writing := by
        rw [hst]
        rcases hs with h | h <;> rw [h] <;> decide
      simp [transitionRecord, hne, hm.2.2.2, hno]

theorem performed_boundary (h : st.Sound Emits w) (hst : step.boundary = some boundary) :
    (∃ error, (st.perform (context.plan st step env.now) env).2 = .error error) ∧
        (st.perform (context.plan st step env.now) env).1.projection = st.projection ∨
      ∃ current record, context.Crosses st.projection
        (st.perform (context.plan st step env.now) env).1.projection boundary current
        record := by
  cases hp : context.plan st step env.now with
  | error error => exact .inl ⟨⟨error, rfl⟩, rfl⟩
  | ok =>
    obtain ⟨line, result, fact, current, rfl, ⟨hs, hda⟩, hn, hsta, ht, how⟩ := boundary_plan hst hp
    have ho : AppendOutcome st line (st.append line env) :=
      h.aligned.append_outcome hs
    unfold perform
    dsimp only
    generalize st.append line env = o at ho ⊢
    cases ho with
    | refused | unwritten | torn => exact .inl ⟨⟨_, rfl⟩, rfl⟩
    | applied hb healthy ha =>
      exact .inr ⟨current, _, crosses_of_applies h.reachable.coherent hst ha hda hn hsta ht how⟩

end NotificationContext

/-! ## Answers -/

namespace MessageStore

variable [DigestScheme] {α : Type}

theorem perform_adapter {plan : Except Failure (Plan α)} {e : NotificationAdapterError}
    (h : (st.perform plan env).2 = .error (.adapter e)) :
    plan = .error (.adapter e) ∧ (st.perform plan env).1 = st := by
  unfold perform at h ⊢
  split at h
  · exact ⟨congrArg _ (Except.error.inj h), rfl⟩
  · cases h
  · next line r =>
    unfold append at h
    split at h
    · next heq =>
      split at heq
      · cases heq; cases h
      · split at heq
        · cases heq; cases h
        · split at heq
          · cases heq; cases h
          · cases heq
    · unfold orRefuse at h
      split at h <;> cases h

end MessageStore

def WorkerStep.closes : WorkerStep → Option NotificationState
  | .recordNotified _ => some .notified
  | .recordAttention _ => some .attentionRequired
  | .recordPasteCommandUnwritten => some .blockedPreWrite
  | _ => none

namespace NotificationContext

variable {s : NotificationState} {c : NotificationRecord}

theorem alreadyTerminal_eq_some (h : context.alreadyTerminal st s = .ok (some c)) :
    context.current st = some c ∧ c.state = s := by
  unfold alreadyTerminal at h
  split at h
  · cases h
  · next f hf =>
    simp only [bind_eq_ok, refuseIf_eq_ok, exists_const] at h
    obtain ⟨-, h⟩ := h
    split at h
    · next hs =>
      cases h
      exact ⟨hf, hs⟩
    · simp only [bind_eq_ok, exists_const, pure_eq_ok, reduceCtorEq, and_false] at h

theorem alreadyTerminal_eq_error {e : Failure} (h : context.alreadyTerminal st s = .error e)
    (hc : context.current st = some c) (how : context.owns c = true) :
    crossed c.state = false := by
  by_contra hp
  have ho : c.state.isTerminal = false := by
    revert hp
    cases c.state <;> decide
  simp only [alreadyTerminal, hc, how, ho, refuseIf, Bool.true_eq_false, if_false] at h
  split at h <;> cases h

theorem closes_answer (hs : step.closes = some s) {v : Unit}
    (h : context.plan st step now = .ok (.answer v)) :
    ∃ c, context.current st = some c ∧ c.state = s := by
  cases step <;> simp only [closes, Option.some.injEq, reduceCtorEq] at hs <;>
    subst hs <;> obtain ⟨plan, hp, ha⟩ := discardAnswer_eq_ok h
  case recordNotified =>
    simp only [recordNotified, bind_eq_ok] at hp
    obtain ⟨_ | f, hf, hp⟩ := hp
    · cases hp
      cases ha
    · exact ⟨f, alreadyTerminal_eq_some hf⟩
  case recordAttention =>
    simp only [recordAttention, bind_eq_ok] at hp
    obtain ⟨_ | f, hf, hp⟩ := hp
    · simp only [advanceLocked, bind_eq_ok, pure_eq_ok] at hp
      obtain ⟨_, -, rfl⟩ := hp
      cases ha
    · exact ⟨f, alreadyTerminal_eq_some hf⟩
  case recordPasteCommandUnwritten =>
    simp only [recordPasteCommandUnwritten, bind_eq_ok, ownedRecord_eq_ok] at hp
    obtain ⟨f, ho, hp⟩ := hp
    split at hp
    · next hb => exact ⟨f, ho.1, hb.1⟩
    · simp only [bind_eq_ok, refuseIf_eq_ok, exists_const, pure_eq_ok] at hp
      obtain ⟨-, rfl⟩ := hp
      cases ha

theorem Appends.state_of_closes {line : LedgerLine} (hs : step.closes = some s)
    (h : context.Appends st step line) :
    ∃ fact, TransitionRow st fact line ∧ context.Names fact ∧ fact.state = s := by
  obtain ⟨fact, hro, hn, hr⟩ := h
  refine ⟨fact, hro, hn, ?_⟩
  cases step <;> simp only [closes, Option.some.injEq, reduceCtorEq] at hs <;>
    subst hs <;> simp only [Records] at hr
  case recordNotified => exact hr
  case recordAttention => exact hr
  case recordPasteCommandUnwritten => exact hr.1

theorem settleSubmittedClaim_cases {planned : Plan Bool}
    (h : context.settleSubmittedClaim st now = .ok planned) :
    ∃ c, context.Owned st.projection c ∧ ((c.state = .notified ∧ planned = .answer
          (st.projection.claimedByRecipient context.recipient context.messageId)) ∨
        (planned = .answer false ∧ (c.state = .submitted ∨ c.state = .submittedUnverified →
            st.projection.claimedByRecipient context.recipient context.messageId = false)) ∨
        ∃ line, ∃ r : MailboxProjection → Option NotificationRecord,
          planned = .append line fun p => (r p).map fun _ => true) := by
  simp only [settleSubmittedClaim, bind_eq_ok, ownedRecord_eq_ok] at h
  obtain ⟨c, ho, h⟩ := h
  refine ⟨c, ho, ?_⟩
  split at h
  · next hn => exact .inl ⟨hn, (pure_eq_ok.mp h).symm⟩
  · split at h
    · next hu =>
      exact .inr (.inl ⟨(pure_eq_ok.mp h).symm, fun hs =>
        hu.resolve_left (not_not_intro hs)⟩)
    · simp only [advanceLocked, bind_eq_ok, pure_eq_ok] at h
      obtain ⟨_, ⟨_, -, rfl⟩, rfl⟩ := h
      exact .inr (.inr ⟨_, _, rfl⟩)

theorem stamped_settleSubmittedClaim (line : LedgerLine) (r : MailboxProjection → Option Bool)
    (h : context.settleSubmittedClaim st now = .ok (.append line r)) :
    st.Stamped line := by
  obtain ⟨_, hr, -⟩ := settleSubmittedClaim_append h
  exact hr.1

variable [DigestScheme]

theorem performed_closes (h : st.Sound Emits w) (hs : step.closes = some s)
    (hok : (st.perform (context.plan st step env.now) env).2 = .ok ()) :
    ∃ rec, (st.perform (context.plan st step env.now) env).1.projection.notification
      context.recipient context.messageId = some rec ∧ rec.state = s := by
  have hsta : ∀ line result, context.plan st step env.now = .ok (.append line result) →
      st.Stamped line := by
    intro line result hp
    obtain ⟨_, hro, -⟩ := plan_append hp
    exact hro.1
  rcases (h.aligned.performed hsta).eq_ok hok with
    ⟨hp, hsto⟩ | ⟨line, result, hp, applies, -⟩
  · rw [hsto]
    exact closes_answer hs hp
  · obtain ⟨fact, ⟨-, hda⟩, hn, hst⟩ := (plan_append hp).state_of_closes hs
    have hm : fact.state ≠ .queued := by
      rw [hst]
      cases step <;> cases hs <;> nofun
    obtain ⟨c, -, -, hr⟩ := applies.transition h.reachable.coherent hda hm
    rw [hn.1, hn.2.1] at hr
    exact ⟨_, hr, hst⟩

theorem performed_conflict {f : NotificationState}
    (hs : step.closes = some .notified ∨ step.closes = some .attentionRequired)
    (he : (st.perform (context.plan st step env.now) env).2 =
      .error (.adapter (.terminalConflict f)))
    (hc : context.current st = some c) (ho : context.owns c = true) :
    crossed c.state = false := by
  have hp := (perform_adapter he).1
  cases step <;> simp only [closes, Option.some.injEq, reduceCtorEq,
    false_or] at hs
  case recordNotified verifiedBy =>
    cases ha : context.alreadyTerminal st .notified with
    | error => exact alreadyTerminal_eq_error ha hc ho
    | ok already =>
      simp only [plan, recordNotified, ha] at hp
      cases already <;> cases hp
  case recordAttention cause =>
    cases ha : context.alreadyTerminal st .attentionRequired with
    | error => exact alreadyTerminal_eq_error ha hc ho
    | ok already =>
      have how : context.ownedRecord st = .ok c :=
        ownedRecord_eq_ok.mpr ⟨hc, ho⟩
      simp only [plan, recordAttention, ha, advanceLocked, how] at hp
      cases already <;> cases hp

theorem performed_settled (h : st.Sound Emits w)
    (hok : (st.perform (context.settleSubmittedClaim st env.now) env).2 = .ok true) :
    ∃ rec, (st.perform (context.settleSubmittedClaim st env.now)
        env).1.projection.notification context.recipient context.messageId = some rec ∧
      rec.state = .notified := by
  rcases (h.aligned.performed stamped_settleSubmittedClaim).eq_ok hok with
    ⟨hp, hst⟩ | ⟨line, result, hp, applies, -⟩
  · obtain ⟨c, ho, ⟨hn, -⟩ | ⟨ha, -⟩ | ⟨_, _, ha⟩⟩ :=
      settleSubmittedClaim_cases hp
    · rw [hst]
      exact ⟨c, ho.1, hn⟩
    · cases ha
    · cases ha
  · obtain ⟨fact, ⟨-, hda⟩, hna, hs⟩ := settleSubmittedClaim_append hp
    have hn : fact.state = .notified := hs
    obtain ⟨c, -, -, hr⟩ :=
      applies.transition h.reachable.coherent hda (by rw [hn]; nofun)
    rw [hna.1, hna.2.1] at hr
    exact ⟨_, hr, hn⟩

theorem performed_unsettled (h : st.Sound Emits w)
    (hok : (st.perform (context.settleSubmittedClaim st env.now) env).2 = .ok false) :
    (st.perform (context.settleSubmittedClaim st env.now) env).1 = st ∧
      ∀ c, context.Owned st.projection c → c.state = .submitted ∨ c.state = .submittedUnverified →
        st.projection.claimedByRecipient context.recipient context.messageId = false := by
  rcases (h.aligned.performed stamped_settleSubmittedClaim).eq_ok hok with
    ⟨hp, hsto⟩ | ⟨line, result, hp, -, hr⟩
  · refine ⟨hsto, fun c ho hs => ?_⟩
    obtain ⟨f, hfo, hc⟩ := settleSubmittedClaim_cases hp
    obtain rfl : f = c := Option.some.inj (hfo.1.symm.trans ho.1)
    rcases hc with ⟨hn, -⟩ | ⟨-, hu⟩ | ⟨_, _, ha⟩
    · rw [hn] at hs
      rcases hs with hst | hst <;> cases hst
    · exact hu hs
    · cases ha
  · -- A settlement that appends answers that it settled.
    obtain ⟨_, -, ⟨-, ha⟩ | ⟨ha, -⟩ | ⟨_, result', ha⟩⟩ :=
      settleSubmittedClaim_cases hp
    · cases ha
    · cases ha
    · cases ha
      obtain ⟨_, -, hf⟩ := Option.map_eq_some_iff.mp hr
      cases hf

end NotificationContext

end Cyclops
