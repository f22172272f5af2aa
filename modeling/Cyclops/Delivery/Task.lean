import Cyclops.Delivery.Engine

/-!
# What the task of a delivery knows

At every point of the task, what is known of a record of its entry that is past the write boundary,
and of the handle in memory.
-/

namespace Cyclops

open Checked FiniteMap DeliveryHandle Daemon NotificationContext Board

def Daemon.board (d : Daemon) : Board :=
  d.store.projection.board

/-! ## Steps of a worker -/

section Record

variable [DigestScheme] {d d' : Daemon} {ctx : NotificationContext} {step : WorkerStep}
  {env : Env} {w : WorkspaceId}

structure Daemon.Kept (workspaceId : WorkspaceId) (context : NotificationContext)
    (d d' : Daemon) : Prop where
  sound : d'.store.Sound Emits workspaceId
  advances : Advances d.store.projection d'.store.projection
  others : ∀ key, context.key ≠ key → Board.Calm key d.board d'.board

theorem Daemon.Kept.refl (h : d.store.Sound Emits w) : d.Kept w ctx d :=
  ⟨h, .refl _, fun _ _ => .refl _ _⟩

theorem Daemon.perform_kept {α : Type} {plan : Except Failure (Plan α)} (h : d.store.Sound Emits w)
    (ha : ∀ line r, plan = .ok (.append line r) → ctx.Appends d.store step line) :
    d.Kept w ctx (d.perform plan env).1 ∧
      (step.crosses = false → Calm ctx.key d.board (d.perform plan env).1.board) := by
  have hm : d.store.Meets Emits plan := by
    intro line r hp
    obtain ⟨_, hr, -⟩ := ha line r hp
    exact ⟨hr.1, emits_worker (ha line r hp)⟩
  have hca : ∀ key, (step.crosses = true → ctx.key ≠ key) →
      Calm key d.board (d.perform plan env).1.board := by
    intro key hk
    refine h.perform_calm fun line r hp => ⟨(hm line r hp).1, ?_⟩
    exact (ha line r hp).quietRow hk
  exact ⟨⟨h.perform hm, h.perform_advances hm, fun key hk => hca key fun _ => hk⟩,
    fun hq => hca _ fun hc => by rw [hq] at hc; cases hc⟩

variable {o : Except Failure Unit} {e : NotificationAdapterError}

theorem Daemon.record_kept (h : d.store.Sound Emits w) (heq : d.record ctx step env = (d', o)) :
    d.Kept w ctx d' ∧ (step.crosses = false → Calm ctx.key d.board d'.board) := by
  have hk : d.Kept w ctx (d.record ctx step env).1 ∧
      (step.crosses = false → Calm ctx.key d.board (d.record ctx step env).1.board) :=
    perform_kept h fun _ _ => plan_append
  rw [heq] at hk
  exact hk

variable {record : NotificationRecord}

theorem Daemon.record_adapter (heq : d.record ctx step env = (d', .error (.adapter e))) :
    d' = d := by
  obtain ⟨rfl, he⟩ := Prod.mk.inj heq
  rw [(MessageStore.perform_adapter he).2]

theorem Daemon.record_boundary (h : d.store.Sound Emits w) (heq : d.record ctx step env = (d', o))
    {boundary : NotificationState × Option NotificationTransport}
    (hst : step.boundary = some boundary) :
    (∃ e, o = .error e) ∧ d'.board = d.board ∨
      ∃ c record, ctx.Crosses d.store.projection d'.store.projection boundary c
        record := by
  obtain ⟨rfl, rfl⟩ := Prod.mk.inj heq
  refine (performed_boundary h hst).imp_left ?_
  rintro ⟨he, hs⟩
  exact ⟨he, congrArg MailboxProjection.board hs⟩

end Record

/-! ## What is known -/

section Known

variable {b b' : Board} {handle : DeliveryHandle} {record : NotificationRecord}

def Point.Knows (b : Board) (context : NotificationContext) (record : NotificationRecord) :
    Point → Prop
  | .start | .recordGating | .gate | .block _ _ | .attempt _ => False
  | .paste (.doorbell _ _ _ _) | .stage (.doorbell _ _ _ _) _ | .submit _ | .recordSubmitted _ =>
    context.owns record = true ∧ record.transport = .doorbell
  | .markSubmitted | .settle => context.owns record = true ∧ SubmittedDoorbell record
  | .earlyReceipt | .awaitAck =>
    context.owns record = true ∧ SubmittedDoorbell record ∧ ¬ b.Claimed context.key
  | .paste .raw | .stage .raw _ | .unwritten | .submitRaw | .receipt _ | .attention _ =>
    context.owns record = true

def Point.Remembers (b : Board) (handle : DeliveryHandle) : Point → Prop
  | .attempt _ | .paste _ | .stage _ _ => handle.state = .pasting
  | .submit _ | .recordSubmitted _ | .markSubmitted => handle.state = .staged
  | .settle | .earlyReceipt | .awaitAck => handle.receiptIsResolved = true →
      (∀ record, b.record handle.notification.key = some record → crossed record.state = false) ∨
        b.Claimed handle.notification.key
  | _ => True

def Stage.Knows (b : Board) (context : NotificationContext) (record : NotificationRecord) :
    Stage → Prop
  | .running point => point.Knows b context record
  | .failed | .failAttention => context.owns record = true
  | _ => False

def Stage.Remembers (b : Board) (handle : DeliveryHandle) : Stage → Prop
  | .running point => point.Remembers b handle
  | _ => True

/-- The worker is at a stage that fits what the board holds of its entry. -/
structure Fits (b : Board) (handle : DeliveryHandle) (stage : Stage) : Prop where
  knows : ∀ record, b.record handle.notification.key = some record →
    crossed record.state = true → stage.Knows b handle.notification record
  remembers : stage.Remembers b handle

def Uncrossed (b : Board) (key : EntryKey) : Prop :=
  ∀ record, b.record key = some record → crossed record.state = false

theorem Uncrossed.calm {key : EntryKey} (h : Uncrossed b key) (hc : Calm key b b') :
    Uncrossed b' key := by
  intro record held
  by_contra hp
  rw [Bool.not_eq_false] at hp
  rw [h record (hc.same record held hp)] at hp
  cases hp

variable {stage : Stage} {point : Point}

theorem Uncrossed.fits (h : Uncrossed b handle.notification.key)
    (hr : stage.Remembers b handle) : Fits b handle stage :=
  ⟨fun record held hp => absurd hp (by rw [h record held]; nofun), hr⟩

theorem Fits.uncrossed (h : Fits b handle stage)
    (hn : ∀ record, ¬ stage.Knows b handle.notification record) :
    Uncrossed b handle.notification.key := by
  intro record held
  by_contra hp
  exact hn record (h.knows record held (by simpa using hp))

variable {ctx : NotificationContext}

theorem Point.Knows.calm (h : point.Knows b ctx record) (hca : Calm ctx.key b b')
    (held : b'.record ctx.key = some record) :
    point.Knows b' ctx record := by
  cases point with
  | earlyReceipt | awaitAck =>
    exact ⟨h.1, h.2.1, fun hc => h.2.2 (hca.receipt record held h.2.1 hc)⟩
  | paste a | stage a => cases a <;> exact h
  | _ => exact h

theorem Point.Knows.owns (h : point.Knows b ctx record) : ctx.owns record = true := by
  cases point with
  | paste a | stage a => cases a with
    | doorbell => exact h.1
    | raw => exact h
  | submit | recordSubmitted | markSubmitted | settle | earlyReceipt | awaitAck => exact h.1
  | unwritten | submitRaw | receipt | attention => exact h
  | _ => exact h.elim

theorem Point.Remembers.calm (h : point.Remembers b handle)
    (hc : Calm handle.notification.key b b') : point.Remembers b' handle := by
  cases point with
  | settle | earlyReceipt | awaitAck =>
    intro hr
    exact (h hr).imp (fun hu => Uncrossed.calm hu hc) hc.claimed
  | _ => exact h

theorem Fits.calm (h : Fits b handle stage) (hc : Calm handle.notification.key b b') :
    Fits b' handle stage where
  knows := by
    intro record held hp
    have hk := h.knows record (hc.same record held hp) hp
    cases stage with
    | running => exact .calm hk hc held
    | _ => exact hk
  remembers := by
    cases stage with
    | running => exact .calm h.remembers hc
    | _ => exact trivial

theorem Fits.owns (h : Fits b handle (.running point)) (record : NotificationRecord)
    (held : b.record handle.notification.key = some record)
    (hp : crossed record.state = true) : handle.notification.owns record = true :=
  Point.Knows.owns (h.knows record held hp)

theorem Fits.owns_calm (h : Fits b handle (.running point))
    (hc : Calm handle.notification.key b b') (record : NotificationRecord)
    (held : b'.record handle.notification.key = some record)
    (hp : crossed record.state = true) : handle.notification.owns record = true :=
  h.owns record (hc.same record held hp) hp

end Known

theorem writeStep_boundary (df : Option Nat) (a : Admission) : (writeStep df a).1.boundary =
      some (.writing, some (writeStep df a).2) := by
  cases a <;> rfl

/-! ## Sections of the task -/

def Next.stage : Next → Stage
  | .goOn point => .running point
  | _ => .returned

namespace DeliveryHandle

variable {hn hn' : DeliveryHandle} {b : Board} {rm : Nat}
  {af : List DeliveryState} {next : DeliveryState}

theorem advance_eq_some (h : hn.advance af next = some hn') :
    hn.state ∈ af ∧ hn' = { hn with state := next } := by
  unfold advance at h
  split at h
  · next hm => exact ⟨hm, (Option.some.inj h).symm⟩
  · cases h

theorem advance_of_mem (h : hn.state ∈ af) : hn.advance af next = some { hn with state := next } :=
  if_pos h

@[simp] theorem advanceAny_notification :
    (hn.advanceAny af next).notification = hn.notification := by
  unfold advanceAny advance
  split <;> rfl

theorem regateOrReturn_cases (af : List DeliveryState) :
    (hn.regateOrReturn af).1.notification = hn.notification ∧
      ∀ b, (hn.regateOrReturn af).2.stage.Remembers b (hn.regateOrReturn af).1 := by
  unfold regateOrReturn
  split
  · exact ⟨rfl, fun _ => trivial⟩
  · next hf =>
    obtain ⟨-, rfl⟩ := advance_eq_some hf
    split
    · exact ⟨rfl, fun _ => trivial⟩
    · next hs =>
      obtain ⟨-, rfl⟩ := advance_eq_some hs
      exact ⟨rfl, fun _ => trivial⟩

theorem failAttempt_cases (f : AttemptFailure) :
    (hn.failAttempt rm f).1.notification = hn.notification ∧
      ∀ b, (hn.failAttempt rm f).2.stage.Remembers b (hn.failAttempt rm f).1 := by
  unfold failAttempt
  split
  · exact regateOrReturn_cases _
  · split
    · exact regateOrReturn_cases _
    · split <;> exact ⟨rfl, fun _ => trivial⟩

theorem afterGate_cases (p : Bool) (o : GateOutcome) :
    (hn.afterGate p o).1.notification = hn.notification ∧
      ∀ b, (hn.afterGate p o).2.stage.Remembers b (hn.afterGate p o).1 := by
  unfold afterGate
  split
  · exact ⟨rfl, fun _ => trivial⟩
  · exact ⟨rfl, fun _ => trivial⟩
  · exact ⟨rfl, fun _ => trivial⟩
  · split
    · split
      · exact ⟨rfl, fun _ => trivial⟩
      · next hm =>
        obtain ⟨-, rfl⟩ := advance_eq_some hm
        exact ⟨rfl, fun _ => trivial⟩
    · dsimp only
      split
      · exact ⟨rfl, fun _ => trivial⟩
      · next hm =>
        obtain ⟨-, rfl⟩ := advance_eq_some hm
        exact ⟨rfl, fun _ => rfl⟩

end DeliveryHandle

section Sections

variable [DigestScheme] {d d' : Daemon} {handle hn' : DeliveryHandle} {next : Next}
  {w : WorkspaceId} {env : Env} {rm : Nat}

structure Leaves (workspaceId : WorkspaceId) (d : Daemon) (handle : DeliveryHandle)
    (result : Daemon × DeliveryHandle × Next) : Prop where
  kept : d.Kept workspaceId handle.notification result.1
  same : result.2.1.notification = handle.notification
  fits : result.2.2 ≠ .fault → Fits result.1.board result.2.1 result.2.2.stage

theorem Leaves.attention (hk : d.Kept w handle.notification d') (c : String)
    (ho : ∀ record, d'.board.record handle.notification.key = some record →
      crossed record.state = true → handle.notification.owns record = true) :
    Leaves w d handle (d', handle.failAttempt rm (.afterWrite c)) := by
  have hf : handle.failAttempt rm (.afterWrite c) = (handle, .goOn (.attention c)) := by
    simp [failAttempt, AttemptFailure.afterWrite, AttemptFailure.shouldRetry]
  rw [hf]
  exact ⟨hk, rfl, fun _ => ⟨ho, trivial⟩⟩

theorem Leaves.uncrossed {r : DeliveryHandle × Next} (hk : d.Kept w handle.notification d')
    (same : r.1.notification = handle.notification)
    (hu : Uncrossed d'.board handle.notification.key)
    (hr : r.2.stage.Remembers d'.board r.1) :
    Leaves w d handle (d', r) :=
  ⟨hk, same, fun _ =>
    (same ▸ hu : Uncrossed d'.board r.1.notification.key).fits hr⟩

variable {point : Point} {step : WorkerStep} {df : Option Nat} {a : Admission}

variable {p : Bool} {r : Daemon × DeliveryHandle × Next}

section

variable (hsound : d.store.Sound Emits w)

include hsound

theorem Daemon.record_uncrossed {ctx : NotificationContext} {s : NotificationState}
    (heq : d.record ctx step env = (d', .ok ())) (hs : step.closes = some s) :
    Uncrossed d'.board ctx.key := by
  obtain ⟨rfl, hok⟩ := Prod.mk.inj heq
  obtain ⟨f, hf, hst⟩ := performed_closes hsound hs hok
  intro record held
  cases hf.symm.trans held
  rw [hst]
  cases step <;> cases hs <;> rfl

theorem Leaves.closed {r : DeliveryHandle × Next} {s : NotificationState}
    (heq : d.record handle.notification step env = (d', .ok ())) (hs : step.closes = some s)
    (hsa : r.1.notification = handle.notification)
    (hr : r.2.stage.Remembers d'.board r.1) :
    Leaves w d handle (d', r) :=
  .uncrossed (record_kept hsound heq).1 hsa (record_uncrossed hsound heq hs) hr

theorem Leaves.conflict {f : NotificationState} (hf : Fits d.board handle (.running point))
    (heq : d.record handle.notification step env = (d', .error (.adapter (.terminalConflict f))))
    (hs : step.closes = some .notified ∨ step.closes = some .attentionRequired)
    (hr : next.stage.Remembers d'.board handle) :
    Leaves w d handle (d', handle, next) := by
  refine .uncrossed (record_kept hsound heq).1 rfl ?_ hr
  rw [record_adapter heq]
  intro record held
  by_contra hp
  have ho := hf.owns record held (by simpa using hp)
  exact hp (performed_conflict hs (Prod.mk.inj heq).2 held ho)

theorem Leaves.gaveUp {e : Failure} (hf : Fits d.board handle (.running point))
    (heq : d.record handle.notification step env = (d', .error e))
    (hs : step.crosses = false) (c : String) :
    Leaves w d handle (d', handle.failAttempt rm (.afterWrite c)) := by
  obtain ⟨hk, hc⟩ := record_kept hsound heq
  exact .attention hk _ (hf.owns_calm (hc hs))

variable (rm p)

theorem leaves_write (hf : Fits d.board handle (.running (.attempt a)))
    (h : handle.process rm p d (.attempt a) (.write df env) = some r) :
    Leaves w d handle r := by
  have hb : Uncrossed d.board handle.notification.key := hf.uncrossed fun _ hk => hk
  have hst := writeStep_boundary df a
  simp only [process] at h
  split at h
  · next d' heq =>
    cases h
    refine ⟨(record_kept hsound heq).1, rfl, fun _ =>
      ⟨fun record held _ => ?_, hf.remembers⟩⟩
    rcases record_boundary hsound heq hst with ⟨⟨_, he⟩, -⟩ | ⟨_, moved, hc⟩
    · cases he
    · cases hc.moved.1.symm.trans held
      cases a with
      | doorbell => exact ⟨hc.moved.2, hc.transport⟩
      | raw => exact hc.moved.2
  · next d' heq =>
    cases h
    have hs := record_adapter heq
    subst hs
    exact .uncrossed (.refl hsound) rfl hb trivial
  · next d' e _ heq =>
    cases h
    refine ⟨(record_kept hsound heq).1, rfl, fun _ =>
      ⟨fun record held hp => ?_, trivial⟩⟩
    rcases record_boundary hsound heq hst with ⟨-, hs⟩ | ⟨_, moved, hc⟩
    · rw [hs] at held
      rw [hb record held] at hp
      cases hp
    · cases hc.moved.1.symm.trans held
      exact hc.moved.2

theorem leaves_recordSubmitted {s : Bool} (hf : Fits d.board handle (.running (.recordSubmitted s)))
    (h : handle.process rm p d (.recordSubmitted s) (.store env) = some r) :
    Leaves w d handle r := by
  obtain ⟨st, hs, hst⟩ : ∃ st, (st = .submitted ∨ st = .submittedUnverified) ∧
        WorkerStep.boundary (if s then .recordSubmitted
          else .recordSubmittedUnverified) = some (st, none) := by
    cases s
    · exact ⟨_, .inr rfl, rfl⟩
    · exact ⟨_, .inl rfl, rfl⟩
  simp only [process] at h
  split at h
  · next d' heq =>
    cases h
    refine ⟨(record_kept hsound heq).1, rfl, fun _ =>
      ⟨fun record held _ => ?_, hf.remembers⟩⟩
    rcases record_boundary hsound heq hst with
      ⟨⟨_, he⟩, -⟩ | ⟨c, moved, hc⟩
    · cases he
    · cases hc.moved.1.symm.trans held
      -- The submit found a record past the boundary, so a doorbell.
      have hp : crossed c.state = true := hc.before (by
        rcases hs with rfl | rfl <;> nofun)
      have hdo := (hf.knows c hc.owned.1 hp).2
      exact ⟨hc.moved.2, hc.transport.trans hdo, hc.state ▸ hs⟩
  · next d' e heq =>
    cases h
    refine .attention (record_kept hsound heq).1 _ fun record held hpa => ?_
    rcases record_boundary hsound heq hst with ⟨-, hsa⟩ | ⟨_, moved, hc⟩
    · exact hf.owns record (hsa ▸ held) hpa
    · cases hc.moved.1.symm.trans held
      exact hc.moved.2

theorem leaves_settle {f : Bool} (hf : Fits d.board handle (.running .settle))
    (h : handle.process rm p d .settle (.early f env) = some r) :
    Leaves w d handle r := by
  obtain ⟨hk, hca⟩ : d.Kept w handle.notification
        (d.perform (handle.notification.settleSubmittedClaim d.store env.now) env).1 ∧ _ :=
    perform_kept hsound fun _ _ => settleSubmittedClaim_append
  simp only [process] at h
  split at h
  · next d' e heq =>
    cases h
    rw [heq] at hk hca
    exact .attention hk _ (hf.owns_calm (hca rfl))
  · next d' heq =>
    cases h
    obtain ⟨rfl, hok⟩ := Prod.mk.inj heq
    refine .uncrossed hk advanceAny_notification (fun record held => ?_) trivial
    obtain ⟨n, hn, hst⟩ := performed_settled hsound hok
    cases hn.symm.trans held
    rw [hst]
    rfl
  · next d' heq =>
    cases h
    obtain ⟨rfl, hok⟩ := Prod.mk.inj heq
    obtain ⟨hsto, hu⟩ := performed_unsettled hsound hok
    have hb : (d.perform (handle.notification.settleSubmittedClaim d.store env.now)
        env).1.board = d.board := congrArg (fun st => st.projection.board) hsto
    have hkn : ∀ record, d.board.record handle.notification.key = some record →
        crossed record.state = true → handle.notification.owns record = true ∧
          SubmittedDoorbell record ∧ ¬ d.board.Claimed handle.notification.key := by
      intro record held hp
      obtain ⟨ho, hs⟩ := hf.knows record held hp
      refine ⟨ho, hs, fun hcl => ?_⟩
      have hc := MailboxProjection.board_claimed.mp hcl
      rw [hu record ⟨held, ho⟩ hs.2] at hc
      cases hc
    refine ⟨hk, rfl, fun _ => ?_⟩
    rw [show board ⟨_, _, _⟩ = d.board from hb]
    cases f <;> exact ⟨hkn, hf.remembers⟩

variable {rm p}

theorem leaves_before {o : Except Failure Unit} (hf : Fits d.board handle (.running point))
    (hn : ∀ record, ¬ point.Knows d.board handle.notification record)
    (heq : d.record handle.notification step env = (d', o)) (hs : step.crosses = false)
    (hr : next.stage.Remembers d'.board handle) :
    Leaves w d handle (d', handle, next) := by
  obtain ⟨hk, hc⟩ := record_kept hsound heq
  exact .uncrossed hk rfl ((hf.uncrossed hn).calm (hc hs)) hr

/-- Each section of the task leaves what its next point knows. -/
theorem process_leaves {ans : Answer} (hf : Fits d.board handle (.running point))
    (h : handle.process rm p d point ans = some r) :
    Leaves w d handle r := by
  have hr : d.Kept w handle.notification d := .refl hsound
  unfold process at h
  split at h
  -- Up to the write boundary: no record is past it.
  · have hu := hf.uncrossed fun _ hk => hk
    split at h
    · cases h
      exact .uncrossed hr rfl hu trivial
    · next hm =>
      cases h
      obtain ⟨-, rfl⟩ := advance_eq_some hm
      exact .uncrossed hr rfl hu trivial
  · split at h <;> (next heq => cases h; exact leaves_before hsound hf (fun _ h => h) heq rfl trivial)
  · have hu := hf.uncrossed fun _ hk => hk
    split at h
    · cases h
      exact .uncrossed hr rfl hu trivial
    · next o _ _ _ =>
      cases h
      obtain ⟨hs, hre⟩ := @afterGate_cases handle p o
      exact .uncrossed hr hs hu (hre d.board)
  · split at h
    · next heq =>
      cases h
      exact leaves_before hsound hf (fun _ h => h) heq rfl trivial
    · next e heq =>
      cases h
      refine leaves_before hsound hf (fun _ h => h) heq rfl ?_
      split <;> exact trivial
  · next f =>
    cases h
    obtain ⟨hs, hre⟩ := @failAttempt_cases handle rm f.failure
    exact .uncrossed hr hs (hf.uncrossed fun _ hk => hk) (hre d.board)
  · exact leaves_write rm p hsound hf h
  -- The paste, and the handle that stages it.
  · cases h
    exact ⟨hr, rfl, fun _ => ⟨hf.owns, trivial⟩⟩
  · cases h
    exact .attention hr _ hf.owns
  · next a s =>
    cases h
    refine ⟨hr, rfl, fun _ => ⟨fun record held hpa => ?_, hf.remembers⟩⟩
    have hk := hf.knows record held hpa
    cases a <;> exact hk
  · split at h
    · next d' heq =>
      cases h
      obtain ⟨hs, hre⟩ := @failAttempt_cases handle rm .pasteCommandUnwritten
      exact .closed hsound heq rfl hs (hre d'.board)
    · next heq =>
      cases h
      exact .gaveUp hsound hf heq rfl _
  · have hp : handle.state = .pasting := hf.remembers
    rw [advance_of_mem (by simp [hp])] at h
    cases h
    exact ⟨hr, rfl, fun _ => ⟨hf.knows, rfl⟩⟩
  · have hp : handle.state = .pasting := hf.remembers
    rw [advance_of_mem (by simp [hp])] at h
    cases h
    exact ⟨hr, rfl, fun _ => ⟨hf.knows, trivial⟩⟩
  -- The submit key.
  · cases h
    exact .attention hr _ hf.owns
  · cases h
    exact .attention hr _ hf.owns
  · cases h
    exact ⟨hr, rfl, fun _ => ⟨hf.knows, hf.remembers⟩⟩
  · cases h
    exact .attention hr _ hf.owns
  · cases h
    exact ⟨hr, rfl, fun _ => ⟨hf.knows, trivial⟩⟩
  · exact leaves_recordSubmitted rm p hsound hf h
  · have hst : handle.state = .staged := hf.remembers
    rw [advance_of_mem (by simp [hst])] at h
    cases h
    exact ⟨hr, rfl, fun _ => ⟨hf.knows, fun hres => (nomatch hres)⟩⟩
  -- The receipt.
  · exact leaves_settle rm p hsound hf h
  · split at h
    · next d' heq =>
      split at h
      · next hm =>
        cases h
        obtain ⟨-, rfl⟩ := advance_eq_some hm
        exact .closed hsound heq rfl rfl trivial
      · cases h
        exact .closed hsound heq rfl rfl fun _ => .inl (record_uncrossed hsound heq rfl)
    · next heq =>
      cases h
      exact .conflict hsound hf heq (.inl rfl) trivial
    · next heq =>
      cases h
      exact .gaveUp hsound hf heq rfl _
  · split at h
    · next hres =>
      cases h
      refine .uncrossed hr rfl ?_ trivial
      rcases hf.remembers hres with hu | hc
      · exact hu
      · exact hf.uncrossed fun _ hk => hk.2.2 hc
    · cases h
  iterate 3
    cases h
    exact ⟨hr, rfl, fun _ => ⟨hf.owns, trivial⟩⟩
  · split at h
    · next heq =>
      cases h
      exact .closed hsound heq rfl advanceAny_notification trivial
    · next heq =>
      cases h
      exact .conflict hsound hf heq (.inl rfl) trivial
    · next heq =>
      cases h
      exact .gaveUp hsound hf heq rfl _
  · split at h
    · next heq =>
      cases h
      exact .closed hsound heq rfl advanceAny_notification trivial
    · next heq =>
      cases h
      exact .conflict hsound hf heq (.inr rfl) trivial
    · next heq =>
      cases h
      exact ⟨(record_kept hsound heq).1, advanceAny_notification, fun hn => absurd rfl hn⟩
  · cases h

end

end Sections

end Cyclops
