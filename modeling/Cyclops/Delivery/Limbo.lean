import Cyclops.Daemon.NextWake
import Cyclops.Delivery.Task

/-!
# No attempt in limbo

A worker forgets an attempt only when somebody else will see to it: its record is settled, needs
attention, or waits where the scheduler finds it.

Result: `released_attempts_rest`.
-/

namespace Cyclops

open Checked FiniteMap Engine Daemon MailboxService List Worker Uncrossed DeliveryHandle

/-! ## Answers of the scheduler -/

section Schedule

variable {st : MessageStore} {k : RecipientKey}

theorem resumable_eq_some {f r : NotificationRecord} (h : resumable f = some r) :
    f = r ∧ crossed r.state = false := by
  unfold resumable at h
  split at h
  · next hs =>
    cases h
    rcases hs with hs | hs <;> simp [hs, crossed]
  · cases h

structure Schedules (store : MessageStore) (recipient : RecipientKey)
    (plan : Plan (Option NotificationRecord)) : Prop where
  answers : ∀ record, plan = .answer (some record) →
    store.projection.board.record (recipient, record.messageId) = some record ∧
      crossed record.state = false
  appends : ∀ line result, plan = .append line result → store.Stamped line ∧
    ∃ m, Uncrossed store.projection.board (recipient, m) ∧
      ∀ q : MailboxProjection, result q = (q.notification recipient m).map some

theorem Schedules.none : Schedules st k (.answer none) :=
  ⟨fun _ h => absurd (Plan.answer.inj h) (Option.some_ne_none _).symm, fun _ _ h => by cases h⟩

theorem schedules_reopenOldestNotification (o : NotificationPreWriteObservation)
    (wr : Bool) (now : Nat) :
    Schedules st k (reopenOldestNotificationAfterRouteEvidence st k o wr now) := by
  unfold reopenOldestNotificationAfterRouteEvidence
  split
  · exact .none
  · split
    · exact .none
    · next messageId hf =>
      split
      · exact .none
      · next c hcurrent =>
        split
        · exact .none
        · next ho =>
          refine ⟨fun _ h => (by cases h), fun line res h => ?_⟩
          cases h
          refine ⟨MessageStore.stamped_stateRow, messageId, fun r held => ?_, fun _ => rfl⟩
          cases hcurrent.symm.trans held
          simp only [not_or, not_not] at ho
          rw [ho.1]
          rfl

variable [DigestScheme] {env : Env} {ws : WorkspaceId}

theorem schedules_prepareOldestNotification (hp : Coherent st.projection)
    (a : NotificationAttemptId) (now : Nat) :
    Schedules st k (prepareOldestNotification st k a now) := by
  unfold prepareOldestNotification
  split
  · exact .none
  · split
    · next found hf =>
      refine ⟨fun rec h => ?_, fun _ _ h => by cases h⟩
      obtain ⟨rfl, hb⟩ := resumable_eq_some (Plan.answer.inj h)
      obtain ⟨⟨⟨r, m⟩, held⟩, hc⟩ := claimedOperatorNotification_spec hf
      obtain ⟨rfl, rfl, -⟩ := hp.noted held
      exact ⟨hc.recipient ▸ held, hb⟩
    · split
      · exact .none
      · next messageId hfi =>
        split
        · next hn =>
          refine ⟨fun _ h => (by cases h), fun line res h => ?_⟩
          cases h
          refine ⟨MessageStore.stamped_stateRow, messageId, fun rec held => ?_, fun _ => rfl⟩
          cases hn.symm.trans held
        · next found hf =>
          refine ⟨fun rec h => ?_, fun _ _ h => by cases h⟩
          obtain ⟨rfl, hb⟩ := resumable_eq_some (Plan.answer.inj h)
          exact ⟨(hp.noted hf).2.1.symm ▸ hf, hb⟩

theorem scheduled_record {plan : Plan (Option NotificationRecord)}
    (h : st.Sound Emits ws) (hsc : Schedules st k plan)
    (hs : (st.perform (.ok plan) env).1.Sound Emits ws)
    (hc : ∀ m, Board.Calm (k, m) st.projection.board (st.perform (.ok plan) env).1.projection.board)
    {r : NotificationRecord} (hok : (st.perform (.ok plan) env).2 = .ok (some r)) :
    (st.perform (.ok plan) env).1.projection.board.record (k, r.messageId) =
        some r ∧ crossed r.state = false := by
  rcases (h.aligned.performed fun line result hp =>
      (hsc.appends line result (Except.ok.inj hp)).1).eq_ok hok with
    ⟨hp, hst⟩ | ⟨line, result, hp, -, hr⟩
  · rw [hst]
    exact hsc.answers r (Except.ok.inj hp)
  · obtain ⟨-, m, hu, hre⟩ := hsc.appends line result (Except.ok.inj hp)
    rw [hre, Option.map_eq_some_iff] at hr
    obtain ⟨f, held, hf⟩ := hr
    cases hf
    obtain ⟨-, rfl, -⟩ := hs.reachable.coherent.noted held
    exact ⟨held, hu.calm (hc _) r held⟩

end Schedule

/-! ## While the worker lives -/

def Worker.handles (worker : Worker) : List DeliveryHandle :=
  worker.current.toList ++ worker.queue

section Live

variable {b b' : Board} {k : RecipientKey}
  {p p' : List (MessageId × NotificationAttemptId)} {worker worker' : Option Worker}
  {w w' : Worker} {m : MessageId} {handle : DeliveryHandle}

def InHand (prepared : List (MessageId × NotificationAttemptId)) (worker : Option Worker)
    (m : MessageId) : Prop :=
  (∃ item ∈ prepared, item.1 = m) ∨
    ∃ w, worker = some w ∧ ∃ handle ∈ w.handles, handle.notification.messageId = m

def OnTask (worker : Option Worker) (m : MessageId) : Prop :=
  ∃ w, worker = some w ∧ ∃ handle, w.current = some handle ∧ handle.notification.messageId = m

/-- Only the attempt the worker has taken up may be past its write boundary. -/
structure Live (recipient : RecipientKey) (b : Board)
    (prepared : List (MessageId × NotificationAttemptId)) (worker : Option Worker) : Prop where
  mine : ∀ w, worker = some w → ∀ handle ∈ w.handles, handle.notification.recipient = recipient
  held : ∀ m, InHand prepared worker m → b.record (recipient, m) ≠ none
  rest : ∀ m, InHand prepared worker m → ¬ OnTask worker m → Uncrossed b (recipient, m)
  fits : ∀ w, worker = some w → ∀ handle, w.current = some handle → Fits b handle w.stage

theorem Worker.mem_handles_push (hm : x ∈ { w with queue := w.queue ++ [handle] }.handles) :
    x ∈ w.handles ∨ x = handle := by
  simpa [handles, or_assoc] using hm

theorem Worker.mem_handles (hcurrent : w.current = some handle) : handle ∈ w.handles :=
  mem_append_left _ (Option.mem_toList.mpr hcurrent)

theorem Live.key_eq (h : Live k b p (some w)) (hcurrent : w.current = some handle) :
    handle.notification.key = (k, handle.notification.messageId) := by
  rw [NotificationContext.key, h.mine w rfl handle (w.mem_handles hcurrent)]

theorem Live.uncrossed (h : Live k b p (some w)) (hcurrent : w.current = some handle)
    {s : Stage} (hs : w.stage = s)
    (hn : ∀ r, ¬ s.Knows b handle.notification r) :
    Uncrossed b handle.notification.key :=
  (h.fits w rfl handle hcurrent).uncrossed (hs ▸ hn)

theorem Live.nothing : Live k b [] none where
  mine := fun _ hw => by cases hw
  held := by rintro m (⟨_, ⟨⟩, -⟩ | ⟨_, ⟨⟩, -⟩)
  rest := by rintro m (⟨_, ⟨⟩, -⟩ | ⟨_, ⟨⟩, -⟩)
  fits := fun _ hw => by cases hw

theorem Live.next (h : Live k b p worker) (hc : ∀ m, ¬ OnTask worker m → Board.Calm (k, m) b b')
    (held : ∀ m, b.record (k, m) ≠ none → b'.record (k, m) ≠ none)
    (hw : ∀ m, InHand p' worker' m → InHand p worker m)
    (mine : ∀ w, worker' = some w → ∀ handle ∈ w.handles, handle.notification.recipient = k)
    (hd : ∀ m, OnTask worker m → ¬ OnTask worker' m → Uncrossed b' (k, m))
    (fits : ∀ w, worker' = some w → ∀ handle, w.current = some handle → Fits b' handle w.stage) :
    Live k b' p' worker' where
  mine := mine
  held := fun m hm => held m (h.held m (hw m hm))
  rest := by
    intro m hm ho
    by_cases hon : OnTask worker m
    · exact hd m hon ho
    · exact (h.rest m (hw m hm) hon).calm (hc m hon)
  fits := fits

theorem Live.calm (h : Live k b p worker) (hc : ∀ m, Board.Calm (k, m) b b')
    (held : ∀ m, b.record (k, m) ≠ none → b'.record (k, m) ≠ none) :
    Live k b' p worker := by
  refine h.next (fun m _ => hc m) held (fun _ hm => hm) h.mine
    (fun m hon ho => absurd hon ho) fun w hw handle hcurrent => ?_
  subst hw
  refine (h.fits w rfl handle hcurrent).calm ?_
  rw [h.key_eq hcurrent]
  exact hc _

theorem Live.within_of_handles (hh : ∀ handle ∈ w'.handles, ∃ old ∈ w.handles,
      old.notification = handle.notification) (hm : InHand p (some w') m) :
    InHand p (some w) m := by
  rcases hm with hi | ⟨_, hw, handle, hha, rfl⟩
  · exact .inl hi
  · cases hw
    obtain ⟨old, hold, hs⟩ := hh handle hha
    exact .inr ⟨w, rfl, old, hold, by rw [hs]⟩

theorem Live.rework (h : Live k b p (some w))
    (hc : ∀ m, ¬ OnTask (some w) m → Board.Calm (k, m) b b')
    (held : ∀ m, b.record (k, m) ≠ none → b'.record (k, m) ≠ none)
    (hh : ∀ handle ∈ w'.handles, ∃ old ∈ w.handles, old.notification = handle.notification)
    (hdr : ∀ handle, w.current = some handle →
      (∃ ha', w'.current = some ha' ∧ ha'.notification = handle.notification) ∨
        Uncrossed b' handle.notification.key)
    (hf : ∀ handle, w'.current = some handle → Fits b' handle w'.stage) :
    Live k b' p (some w') := by
  refine h.next hc held (fun m => Live.within_of_handles hh) ?_ ?_ ?_
  · rintro _ ⟨⟩ handle hha
    obtain ⟨old, hold, hs⟩ := hh handle hha
    rw [← hs]
    exact h.mine w rfl old hold
  · rintro _ ⟨_, ⟨⟩, handle, hcurrent, rfl⟩ ho
    rcases hdr handle hcurrent with ⟨ha', hc', hs⟩ | hu
    · exact absurd ⟨w', rfl, ha', hc', by rw [hs]⟩ ho
    · rw [h.key_eq hcurrent] at hu
      exact hu
  · rintro _ ⟨⟩
    exact hf

theorem Live.restage (h : Live k b p (some w)) (hcurrent : w'.current = w.current)
    (hq : w'.queue = w.queue)
    (hf : ∀ handle, w.current = some handle → Fits b handle w'.stage) :
    Live k b p (some w') := by
  have hh : w'.handles = w.handles := by
    unfold handles
    rw [hcurrent, hq]
  refine h.rework (fun _ _ => .refl _ _) (fun _ hm => hm)
    (fun handle hha => ⟨handle, hh ▸ hha, rfl⟩)
    (fun handle hold => .inl ⟨handle, hcurrent.trans hold, rfl⟩) fun handle hn => ?_
  exact hf handle (hcurrent ▸ hn)

theorem Live.finish (h : Live k b p (some w)) (hcurrent : w'.current = none)
    (hq : w'.queue = w.queue)
    (hr : ∀ handle, w.current = some handle → Uncrossed b handle.notification.key) :
    Live k b p (some w') := by
  refine h.rework (fun _ _ => .refl _ _) (fun _ hm => hm) (fun handle hh => ⟨handle, ?_, rfl⟩)
    (fun handle hold => .inr (hr handle hold)) fun handle hn => ?_
  · rw [handles, hcurrent, hq] at hh
    exact mem_append_right _ hh
  · rw [hcurrent] at hn
    cases hn

theorem Worker.currentOrNext_eq_none (hn : w.currentOrNext = (none, w')) :
    w.current = none ∧ w' = w := by
  unfold currentOrNext at hn
  split at hn
  · cases hn
  · cases hn
  · next hcurrent _ =>
    cases hn
    exact ⟨hcurrent, rfl⟩

theorem Live.currentOrNext (h : Live k b p (some w))
    (hn : w.currentOrNext = (some handle, w')) {stage : Stage}
    (hf : Fits b handle w.stage ∨ Uncrossed b handle.notification.key → Fits b handle stage) :
    Live k b p (some { w' with stage }) := by
  unfold Worker.currentOrNext at hn
  split at hn
  · next _ _ hcurrent =>
    cases hn
    refine h.restage rfl rfl fun ha' hc' => ?_
    cases hcurrent.symm.trans hc'
    exact hf (.inl (h.fits w rfl _ hcurrent))
  · next _ _ queue hcurrent hq =>
    cases hn
    have hme : handle ∈ w.handles := by
      rw [handles, hq]
      exact mem_append_right _ mem_cons_self
    refine h.rework (fun _ _ => .refl _ _) (fun _ hm => hm) (fun ha' hh' => ⟨ha', ?_, rfl⟩)
      (fun old hold => absurd (hcurrent.symm.trans hold) nofun) fun ha' hne => ?_
    · rw [handles, hcurrent, hq]
      simpa [handles] using hh'
    · cases hne
      refine hf (.inr ?_)
      have hr := h.rest handle.notification.messageId (.inr ⟨w, rfl, handle, hme, rfl⟩) (by
        rintro ⟨_, ⟨⟩, old, hold, -⟩
        exact absurd (hcurrent.symm.trans hold) nofun)
      rw [NotificationContext.key, h.mine w rfl handle hme]
      exact hr
  · cases hn

theorem Live.idle (h : Live k b p (some w)) (hcurrent : w.current = none) : Live k b p none := by
  refine h.next (fun _ _ => .refl _ _) (fun _ hm => hm) ?_ (fun _ hw => by cases hw) ?_
    (fun _ hw => by cases hw)
  · rintro m (hi | ⟨_, hw, -⟩)
    · exact .inl hi
    · cases hw
  · rintro m ⟨_, ⟨⟩, handle, hold, -⟩ -
    exact absurd (hcurrent.symm.trans hold) nofun

theorem Live.hand (h : Live k b p worker)
    (mine : ∀ w, worker' = some w → ∀ handle ∈ w.handles, handle.notification.recipient = k)
    (held : ∀ m, InHand p' worker' m → InHand p worker m ∨
      b.record (k, m) ≠ none ∧ Uncrossed b (k, m))
    (hsa : ∀ w', worker' = some w' → ∀ handle, w'.current = some handle →
      ∃ w, worker = some w ∧ w.current = some handle ∧ w.stage = w'.stage)
    (hk : ∀ m, OnTask worker m → OnTask worker' m) :
    Live k b p' worker' where
  mine := mine
  held := fun m hm => (held m hm).elim (h.held m) And.left
  rest := fun m hm ho => (held m hm).elim
    (fun hold => h.rest m hold fun hon => ho (hk m hon)) And.right
  fits := by
    intro w' hw' handle hcurrent
    obtain ⟨w, hw, hold, hs⟩ := hsa w' hw' handle hcurrent
    rw [← hs]
    exact h.fits w hw handle hold

end Live

/-! ## Sections of the worker -/

section Sections

variable [DigestScheme] {cfg : EngineConfig} {e : Engine} {w w' : Worker}
  {handle : DeliveryHandle} {ws : WorkspaceId}

/-- What somebody else sees to. -/
def Release.Rests (release : Release) : Prop :=
  ∃ record, release.record = some record ∧
    (record.state.isTerminal = true ∨ record.state = .attentionRequired ∨
      record.state = .queued ∨ record.state = .gating ∨ record.state = .blockedPreWrite)

omit [DigestScheme] in
theorem rests_of_uncrossed {s : NotificationState} (h : crossed s = false) :
    s.isTerminal = true ∨ s = .attentionRequired ∨ s = .queued ∨ s = .gating ∨
      s = .blockedPreWrite := by
  revert h
  cases s <;> simp [crossed, NotificationState.isTerminal]

def Worker.Stopped (worker : Worker) : Prop :=
  worker.stage = .halted ∨ worker.faulted = true ∧ worker.stage = .returned

omit [DigestScheme] in
theorem Worker.Stopped.restage {next : Stage} (hst : w.Stopped) : Worker.Stopped (match w.stage with
    | .running _ => { w with stage := next }
    | _ => w) := by
  rcases hst with hs | ⟨hf, hs⟩
  · simp [Stopped, hs]
  · simp [Stopped, hf, hs]

structure Engine.Inv (workspaceId : WorkspaceId) (cfg : EngineConfig) (e : Engine) : Prop where
  sound : e.daemon.store.Sound Emits workspaceId
  released : ∀ release ∈ e.released, release.Rests
  live : (∃ w, e.worker = some w ∧ w.Stopped) ∨
    Live cfg.recipient e.daemon.board e.prepared e.worker

theorem Engine.Inv.stopped (h : e.Inv ws cfg) (hs : w.Stopped) :
    { e with worker := some w }.Inv ws cfg :=
  ⟨h.sound, h.released, .inl ⟨w, rfl, hs⟩⟩

theorem Engine.Inv.working {worker : Option Worker} (h : e.Inv ws cfg)
    (live : Live cfg.recipient e.daemon.board e.prepared worker) :
    { e with worker }.Inv ws cfg :=
  ⟨h.sound, h.released, .inr live⟩

theorem Engine.Inv.release (h : e.Inv ws cfg)
    (live : Live cfg.recipient e.daemon.board e.prepared (some w))
    (hcurrent : w.current = some handle)
    (hres : Uncrossed e.daemon.board handle.notification.key) :
    (e.release w handle).Inv ws cfg where
  sound := h.sound
  released := by
    intro release hre
    rcases mem_append.mp hre with hold | hn
    · exact h.released release hold
    · obtain rfl := mem_singleton.mp hn
      have hh := live.held handle.notification.messageId
        (.inr ⟨w, rfl, handle, w.mem_handles hcurrent, rfl⟩)
      rw [← live.key_eq hcurrent] at hh
      obtain ⟨r, hr⟩ := Option.ne_none_iff_exists'.mp hh
      exact ⟨r, hr, rests_of_uncrossed (hres r hr)⟩
  live := by
    refine .inr (live.finish rfl rfl fun ha' hc' => ?_)
    cases hcurrent.symm.trans hc'
    exact hres

section

variable (h : e.Inv ws cfg) (live : Live cfg.recipient e.daemon.board e.prepared (some w))
    (hcurrent : w.current = some handle)

include h live hcurrent

theorem Engine.Inv.worked {daemon : Daemon} (kept : e.daemon.Kept ws handle.notification daemon)
    (hh : ∀ handle ∈ w'.handles, ∃ old ∈ w.handles, old.notification = handle.notification)
    (hdr : (∃ ha', w'.current = some ha' ∧ ha'.notification =
      handle.notification) ∨ Uncrossed daemon.board handle.notification.key)
    (fits : ∀ handle, w'.current = some handle → Fits daemon.board handle w'.stage) :
    { e with daemon, worker := some w' }.Inv ws cfg where
  sound := kept.sound
  released := h.released
  live := by
    refine .inr (live.rework (fun m ho => kept.others _ fun hk =>
        ho ⟨w, rfl, handle, hcurrent, congrArg Prod.snd hk⟩)
      (fun m => kept.advances.held h.sound.reachable) hh (fun old hold => ?_) fits)
    cases hcurrent.symm.trans hold
    exact hdr

theorem Engine.Inv.follow {daemon : Daemon} {ha' : DeliveryHandle} {next : Next}
    (leaves : Leaves ws e.daemon handle (daemon, ha', next)) :
    { e with daemon, worker := some (w.follow ha' next) }.Inv ws cfg := by
  have hs : ha'.notification = handle.notification := leaves.same
  have hold : ∀ x ∈ ha' :: w.queue, ∃ old ∈ w.handles, old.notification = x.notification := by
    intro x hx
    rcases mem_cons.mp hx with rfl | hx
    · exact ⟨handle, w.mem_handles hcurrent, hs.symm⟩
    · exact ⟨x, mem_append_right _ hx, rfl⟩
  cases next with
  | goOn | done =>
    refine h.worked live hcurrent leaves.kept hold (.inl ⟨ha', rfl, hs⟩) fun x hx => ?_
    cases hx
    exact leaves.fits nofun
  | handBack =>
    refine h.worked live hcurrent leaves.kept hold (.inr ?_) nofun
    rw [← congrArg NotificationContext.key hs]
    exact (leaves.fits nofun).uncrossed fun _ hk => hk
  | fault => exact ⟨leaves.kept.sound, h.released, .inl ⟨_, rfl, .inr ⟨rfl, rfl⟩⟩⟩

theorem Engine.Inv.recoverFailedJob (hst : w.stage = .failed)
    (hc : ∀ r, handle.notification.current e.daemon.store = some r →
      handle.notification.owns r = true → r.state ≠ .submittedUnverified)
    (kept : Bool) :
    { e with worker := some (e.recoverFailedJob w handle kept) }.Inv ws cfg := by
  have hf := live.fits w rfl handle hcurrent
  rw [hst] at hf
  -- The worker keeps the attempt, with another count of recoveries.
  have hk : ∀ {ha' : DeliveryHandle} {stage : Stage},
      ha'.notification = handle.notification → Fits e.daemon.board ha' stage →
      { e with worker := some { w with current := some ha', stage } }.Inv ws cfg := by
    intro ha' stage hsa hf'
    refine h.worked live hcurrent (.refl h.sound) ?_ (.inl ⟨ha', rfl, hsa⟩) fun x hx => ?_
    · intro x hx
      rcases mem_cons.mp hx with rfl | hx
      · exact ⟨handle, w.mem_handles hcurrent, hsa.symm⟩
      · exact ⟨x, mem_append_right _ hx, rfl⟩
    · cases hx
      exact hf'
  have hr : ∀ {ha' : DeliveryHandle} {stage : Stage} {r : NotificationRecord},
      handle.notification.current e.daemon.store = some r → crossed r.state = false →
      ha'.notification = handle.notification → (∀ b, stage.Remembers b ha') →
      { e with worker := some { w with current := some ha', stage } }.Inv ws cfg := by
    intro ha' stage r held hb hsa hre
    refine hk hsa (fits (fun o ho => ?_) (hre _))
    rw [hsa] at ho
    cases held.symm.trans ho
    exact hb
  unfold Engine.recoverFailedJob
  split
  · exact h.stopped (.inl rfl)
  · next r held =>
    split
    · next hfo =>
      refine hk rfl ⟨fun o ho hp => ?_, trivial⟩
      cases held.symm.trans ho
      exact absurd (hf.knows r held hp) (by simp [Stage.Knows, hfo])
    · next how =>
      rw [Bool.not_eq_false] at how
      split
      case h_1 | h_2 =>
        all_goals
          next hs =>
          have hb : crossed r.state = false := by rw [hs]; rfl
          split
          · split
            · exact hr held hb rfl fun _ => trivial
            · exact h.stopped (.inl rfl)
          · exact hr held hb rfl fun _ => trivial
      case h_3 | h_4 | h_5 | h_6 => exact hk rfl ⟨hf.knows, trivial⟩
      case h_11 hs => exact absurd hs (hc r held how)
      all_goals
        next hs =>
        exact hr held (by rw [hs]; rfl) rfl fun _ => trivial

theorem Engine.Inv.recoverWith {step : WorkerStep} {env : Env} {next : Stage}
    {obsolete : Failure → Bool} (hn : ∀ b, next.Remembers b handle)
    (recorded : ∀ daemon outcome, e.daemon.record handle.notification step env = (daemon,
      outcome) → (∀ error, outcome = .error error → obsolete error = true) →
      Uncrossed daemon.board handle.notification.key) :
    (e.recoverWith w handle step env next obsolete).Inv ws cfg := by
  have hs : ∀ {daemon outcome} {stage : Stage},
      e.daemon.record handle.notification step env = (daemon, outcome) →
      (∀ error, outcome = .error error → obsolete error = true) →
      (∀ b, stage.Remembers b handle) →
      { e with daemon, worker := some { w with stage } }.Inv ws cfg := by
    intro daemon outcome stage heq ho hst
    refine h.worked live hcurrent (record_kept h.sound heq).1
      (fun x hx => ⟨x, hx, rfl⟩) (.inl ⟨handle, hcurrent, rfl⟩) fun x hx => ?_
    cases hcurrent.symm.trans hx
    exact fits (recorded daemon outcome heq ho) (hst _)
  unfold Engine.recoverWith
  split
  · next daemon heq => exact hs heq nofun hn
  · next daemon error heq =>
    split
    · next ho =>
      refine hs heq (fun other hot => ?_) fun _ => trivial
      cases hot
      exact ho
    · exact ⟨(record_kept h.sound heq).1.sound, h.released, .inl ⟨_, rfl, .inl rfl⟩⟩

end

theorem Engine.Inv.work (h : e.Inv ws cfg)
    (live : Live cfg.recipient e.daemon.board e.prepared (some w)) (answer : Answer)
    (careful : ∀ kept, answer = .replace kept → w.stage = .failed →
      ∀ handle, w.current = some handle →
      ∀ record, handle.notification.current e.daemon.store = some record →
      handle.notification.owns record = true → record.state ≠ .submittedUnverified) :
    (e.work cfg w answer).Inv ws cfg := by
  unfold Engine.work
  split
  · next hs =>
    split
    · split
      · next hi => exact h.working (live.idle hi.1)
      · exact h
    · split
      · next hn =>
        exact h.working (live.idle (currentOrNext_eq_none hn).1)
      · next hn =>
        refine h.working (live.currentOrNext hn fun hf => fits ?_ trivial)
        refine hf.elim (fun hl => hl.uncrossed fun _ hk => ?_) id
        rw [hs] at hk
        exact hk
  · next hs hcurrent =>
    split
    · exact h
    · next hp =>
      have hf := live.fits w rfl _ hcurrent
      rw [hs] at hf
      exact h.follow live hcurrent (process_leaves h.sound hf hp)
  · next hs =>
    split
    · exact h.stopped (.inl rfl)
    · split
      · next hcurrent =>
        exact h.release live hcurrent (live.uncrossed hcurrent hs fun _ hk => hk)
      · next hcurrent =>
        refine h.working (live.restage rfl rfl fun handle hso => ?_)
        exact absurd (hcurrent.symm.trans hso) nofun
  · next kept hs hcurrent =>
    exact h.recoverFailedJob live hcurrent hs (careful kept rfl hs _ hcurrent) kept
  iterate 2
    next hs hcurrent =>
    refine h.recoverWith live hcurrent (fun _ => trivial) fun daemon outcome heq _ => ?_
    exact (live.uncrossed hcurrent hs fun _ hk => hk).calm ((record_kept h.sound heq).2 rfl)
  · next hs hcurrent =>
    refine h.recoverWith live hcurrent (fun _ => trivial) fun daemon outcome heq ho => ?_
    match outcome with
    | .error error => exact absurd (ho error rfl) nofun
    | .ok () => exact record_uncrossed h.sound heq rfl
  · next hs hcurrent =>
    exact h.release live hcurrent (live.uncrossed hcurrent hs fun _ hk => hk)
  · exact h

end Sections

/-! ## Events -/

section Events

variable {cfg : EngineConfig} {e : Engine}

@[simp] theorem Engine.resolve_notification {handle : DeliveryHandle} {v : Bool} :
    (e.resolve cfg v handle).notification = handle.notification := by
  unfold resolve
  split <;> split <;> simp

theorem Fits.resolve {handle : DeliveryHandle} {stage : Stage}
    (h : Fits e.daemon.board handle stage)
    (hm : handle.notification.recipient = cfg.recipient) (v : Bool) :
    Fits e.daemon.board (e.resolve cfg v handle) stage := by
  have hs : handle.state = .pasting ∨ handle.state = .staged →
      (e.resolve cfg v handle).state = handle.state := by
    rintro (hs | hs) <;> unfold Engine.resolve <;> split <;> split <;>
      simp [advanceAny, advance, hs]
  have hre : (e.resolve cfg v handle).receiptIsResolved = true →
      handle.receiptIsResolved = true ∨ Uncrossed e.daemon.board handle.notification.key ∨
        e.daemon.board.Claimed handle.notification.key := by
    unfold Engine.resolve
    split
    · split
      · next hrec =>
        intro _
        rcases hrec with hb | hn
        · exact .inl (by simp [receiptIsResolved, hb])
        · obtain ⟨r, held, hreco⟩ := (Option.any_eq_true _ _).mp hn
          refine .inr (.inl fun o ho => ?_)
          cases held.symm.trans ho
          rw [beq_iff_eq.mp (Bool.and_eq_true_iff.mp hreco).2]
          rfl
      · exact .inl
    · split
      · next hc =>
        intro _
        refine .inr (.inr ?_)
        rw [NotificationContext.key, hm]
        exact MailboxProjection.board_claimed.mpr hc.2
      · exact .inl
  constructor
  · rw [resolve_notification]
    exact h.knows
  · cases stage with
    | running point =>
      have hr : point.Remembers e.daemon.board handle := h.remembers
      cases point with
      | attempt | paste | stage =>
        exact (hs (.inl hr)).trans hr
      | submit | recordSubmitted | markSubmitted =>
        exact (hs (.inr hr)).trans hr
      | settle | earlyReceipt | awaitAck =>
        intro hno
        rw [resolve_notification]
        exact (hre hno).elim hr id
      | _ => exact trivial
    | _ => exact trivial

variable [DigestScheme] {w : Worker} {workspaceId : WorkspaceId}

section

variable (h : e.Inv workspaceId cfg)

include h

theorem Engine.Inv.map {f : Worker → Worker} (hst : ∀ w, w.Stopped → (f w).Stopped)
    (hf : ∀ w, e.worker = some w → Live cfg.recipient e.daemon.board e.prepared (some w) →
      { e with worker := some (f w) }.Inv workspaceId cfg) :
    { e with worker := e.worker.map f }.Inv workspaceId cfg := by
  rcases h.live with ⟨w, hw, hs⟩ | live
  · rw [hw]
    exact h.stopped (hst w hs)
  · match hw : e.worker with
    | none =>
      rw [hw] at live
      exact h.working live
    | some w => exact hf w hw (hw ▸ live)

theorem Engine.Inv.map_stage (live : Live cfg.recipient e.daemon.board e.prepared (some w))
    {stage : Stage} (fits : ∀ handle, w.current = some handle → Fits e.daemon.board handle w.stage →
      Fits e.daemon.board handle stage) :
    { e with worker := some { w with stage } }.Inv workspaceId cfg :=
  h.working (live.restage rfl rfl fun handle hcurrent =>
    fits handle hcurrent (live.fits w rfl handle hcurrent))

theorem Engine.Inv.schedule {plan : Plan (Option NotificationRecord)} {env : Env} (op : Operation)
    (hop : (e.daemon.perform (.ok plan) env).1 = e.daemon.step op)
    (ha : e.daemon.apart cfg.recipient op = true)
    (hsc : Schedules e.daemon.store cfg.recipient plan) :
    (e.schedule (e.daemon.perform (.ok plan) env)).Inv workspaceId cfg := by
  have hs : (e.daemon.perform (.ok plan) env).1.store.Sound Emits workspaceId := by
    rw [hop]
    exact sound_step h.sound _
  have hc : ∀ m, Board.Calm (cfg.recipient, m) e.daemon.board
      (e.daemon.perform (.ok plan) env).1.board := by
    rw [hop]
    exact step_calm h.sound ha
  refine ⟨hs, h.released, h.live.imp_right fun live => ?_⟩
  have hl := live.calm hc fun m => by
    rw [hop]
    exact (step_advances h.sound op).held h.sound.reachable
  refine hl.hand hl.mine (fun m hm => ?_) (fun w hw handle hcurrent => ⟨w, hw, hcurrent, rfl⟩)
    fun _ hon => hon
  rcases hm with ⟨item, hi, rfl⟩ | hwo
  · simp only [Engine.schedule] at hi
    split at hi
    · next r hok =>
      rcases mem_append.mp hi with hold | hne
      · exact .inl (.inl ⟨item, hold, rfl⟩)
      · obtain rfl := mem_singleton.mp hne
        obtain ⟨held, hb⟩ := scheduled_record h.sound hsc hs hc hok
        refine .inr ⟨fun hn => ?_, fun o ho => ?_⟩
        · exact absurd (held.symm.trans hn) nofun
        · cases held.symm.trans ho
          exact hb
    · exact .inl (.inl ⟨item, hi, rfl⟩)
  · exact .inl (.inr hwo)

theorem Engine.Inv.enqueue (i : Nat) {item : MessageId × NotificationAttemptId}
    (hi : e.prepared[i]? = some item) :
    ({ e with prepared := e.prepared.eraseIdx i }.enqueue cfg item.1 item.2).Inv
      workspaceId cfg := by
  have he : ∀ {m worker}, InHand (e.prepared.eraseIdx i) worker m →
      InHand e.prepared worker m := fun hm =>
    hm.imp_left fun ⟨item, hme, heq⟩ => ⟨item, mem_of_mem_eraseIdx hme, heq⟩
  have hdr : { e with prepared := e.prepared.eraseIdx i }.Inv workspaceId cfg :=
    ⟨h.sound, h.released, h.live.imp_right fun live =>
      live.hand live.mine (fun m hm => .inl (he hm))
        (fun w hw handle hcurrent => ⟨w, hw, hcurrent, rfl⟩) fun _ hon => hon⟩
  have hp : InHand e.prepared e.worker item.1 :=
    .inl ⟨item, mem_of_getElem? hi, rfl⟩
  unfold Engine.enqueue
  split
  · exact hdr
  · split
    · next hn =>
      have live := h.live.resolve_left fun ⟨w, hwo, _⟩ => nomatch hn.symm.trans hwo
      refine hdr.working (live.hand ?_ ?_ ?_ ?_)
      · rintro _ ⟨⟩ handle hh
        obtain rfl := mem_singleton.mp hh
        rfl
      · rintro m (hme | ⟨_, ⟨⟩, handle, hh, rfl⟩)
        · exact .inl (he (.inl hme))
        · obtain rfl := mem_singleton.mp hh
          exact .inl hp
      · rintro _ ⟨⟩ handle hcurrent
        cases hcurrent
      · rintro m ⟨w, hw, -⟩
        exact absurd (hn.symm.trans hw) nofun
    · next worker hwo =>
      split
      · exact hdr.stopped (.inl rfl)
      · next hg =>
        split
        · exact hdr
        · next hwe =>
          have live := h.live.resolve_left fun ⟨w, hsa, hs⟩ => by
            cases hwo.symm.trans hsa
            exact hs.elim hg fun hf => hwe hf.1
          refine hdr.working (live.hand ?_ ?_ ?_ ?_)
          · rintro _ ⟨⟩ handle hh
            rcases worker.mem_handles_push hh with hold | rfl
            · exact live.mine worker hwo handle hold
            · rfl
          · rintro m (hme | ⟨_, ⟨⟩, handle, hh, rfl⟩)
            · exact .inl (he (.inl hme))
            · rcases worker.mem_handles_push hh with hold | rfl
              · exact .inl (.inr ⟨worker, hwo, handle, hold, rfl⟩)
              · exact .inl hp
          · rintro _ ⟨⟩ handle hcurrent
            exact ⟨worker, hwo, hcurrent, rfl⟩
          · rintro m ⟨w, hw, handle, hcurrent, hm⟩
            cases hwo.symm.trans hw
            exact ⟨_, rfl, handle, hcurrent, hm⟩

theorem Engine.Inv.work_stopped (hst : w.Stopped) (ans : Answer) :
    (e.work cfg w ans).Inv workspaceId cfg := by
  unfold Engine.work
  rcases hst with hs | ⟨hf, hs⟩
  · simp only [hs]
    exact h
  · split
    case h_3 =>
      rw [if_pos hf]
      exact h.stopped (.inl rfl)
    case h_9 => exact h
    all_goals
      simp only [hs, reduceCtorEq] at *

theorem Engine.Inv.step {event : EngineEvent} (careful : e.Careful event) :
    (e.step cfg event).Inv workspaceId cfg := by
  have hda := fun op => sound_step h.sound op
  cases event with simp only [Engine.step]
  | daemon op =>
    split
    · next apart =>
      refine ⟨hda op, h.released, h.live.imp_right fun live => ?_⟩
      exact live.calm (step_calm h.sound apart) fun m =>
        (step_advances h.sound op).held h.sound.reachable
    · exact h
  | restart => exact ⟨hda _, h.released, .inr .nothing⟩
  | prepare attemptId env =>
    exact h.schedule (.prepareOldestNotification cfg.recipient attemptId env)
      (by simp only [perform, Daemon.step, plan, MessageStore.perform_discardAnswer]) rfl
      (schedules_prepareOldestNotification h.sound.reachable.coherent attemptId env.now)
  | reopen observation writeReady env =>
    exact h.schedule (.reopenOldestNotification cfg.recipient observation writeReady env)
      (by simp only [perform, Daemon.step, plan, MessageStore.perform_discardAnswer]) rfl
      (schedules_reopenOldestNotification observation writeReady env.now)
  | enqueue index =>
    split
    · exact h
    · next hit => exact h.enqueue index hit
  | resolve verified =>
    refine h.map (fun _ hst => hst) fun w hw live => ?_
    refine h.working (live.rework (fun _ _ => .refl _ _) (fun _ hm => hm) ?_ ?_ ?_)
    · intro x hx
      rcases mem_append.mp hx with hcurrent | hq
      · obtain ⟨old, hold, rfl⟩ := Option.map_eq_some_iff.mp (Option.mem_toList.mp hcurrent)
        exact ⟨old, w.mem_handles hold, resolve_notification.symm⟩
      · exact ⟨x, mem_append_right _ hq, rfl⟩
    · intro handle hcurrent
      exact .inl ⟨_, congrArg (Option.map _) hcurrent, resolve_notification⟩
    · intro x hx
      obtain ⟨old, hold, rfl⟩ := Option.map_eq_some_iff.mp hx
      exact (live.fits w rfl old hold).resolve (live.mine w rfl old (w.mem_handles hold)) verified
  | pause | resume | stop => exact ⟨h.sound, h.released, h.live⟩
  | work answer =>
    split
    · exact h
    · next w hw =>
      rcases h.live with ⟨w', hsa, hst⟩ | live
      · cases hw.symm.trans hsa
        exact h.work_stopped hst answer
      refine h.work (hw ▸ live) answer ?_
      rintro kept rfl hs handle hcurrent record held ho
      refine careful (by simp [hw, hs]) (handle, record) ?_ ho
      simp [currentRecord, hw, hcurrent, held]
  | fail =>
    refine h.map (fun _ hst => hst.restage) fun w hw live => ?_
    split
    · next hs =>
      refine h.map_stage live fun handle hcurrent hfi => ⟨fun record held past => ?_, trivial⟩
      rw [hs] at hfi
      exact Point.Knows.owns (hfi.knows record held past)
    · exact h.working live
  | cut =>
    split
    · next hsto =>
      refine h.map (fun _ hst => hst.restage) fun w hw live => ?_
      split
      · next hs =>
        refine h.map_stage live fun handle hcurrent hfi => ?_
        refine fits (fun record held => ?_) trivial
        have held : handle.notification.current e.daemon.store = some record := held
        refine careful hsto (by simp [hw, hs, Stage.isRunning]) (handle, record) ?_
        simp [currentRecord, hw, hcurrent, held]
      · exact h.working live
    · exact h
  | loopFails =>
    refine h.map (fun w hst => ?_) fun w hw live => ?_
    · rcases hst with hs | ⟨hf, hs⟩
      · simp [Stopped, Stage.ofLoop, hs]
      · simp [Stopped, Stage.ofLoop, hf, hs]
    split
    · exact h.working live
    · next hl =>
      split
      · exact h.stopped (.inl rfl)
      · unfold recoverOuterWorker
        split
        · next hn =>
          refine h.working (live.currentOrNext hn fun hfi => ?_)
          refine hfi.elim (fun hold => ⟨fun record held past => ?_, trivial⟩)
            fun hr => fits hr trivial
          have hk := hold.knows record held past
          cases hs : w.stage with
          | running => exact absurd (by rw [hs]; rfl) hl
          | failed | failAttention =>
            rw [hs] at hk
            exact hk
          | _ =>
            rw [hs] at hk
            exact hk.elim
        · next hn =>
          obtain ⟨hcurrent, rfl⟩ := currentOrNext_eq_none hn
          split
          · refine h.working (live.restage rfl rfl fun handle hso => ?_)
            exact absurd (hso.symm.trans hcurrent) (Option.some_ne_none _)
          · exact h.stopped (.inl rfl)
  | loopCut =>
    split
    · exact h.map (fun _ _ => .inl rfl) fun w _ _ => h.stopped (.inl rfl)
    · exact h

end

/-- In a careful run every handle is forgotten with its attempt settled, in need of attention, or
where a later pass resumes it. -/
theorem released_attempts_rest (workspaceId : WorkspaceId) (bootId : String) (cfg : EngineConfig)
    (events : List EngineEvent)
    (careful : Runs.Along (step cfg) Engine.Careful (boot (start workspaceId bootId) []) events) :
    ∀ release ∈ ((boot (start workspaceId bootId) []).run cfg events).released, release.Rests := by
  have hi := careful.invariant (Inv workspaceId cfg) (fun e ev h hc => h.step hc)
    ⟨.empty workspaceId bootId, fun _ hm => (by cases hm), .inr .nothing⟩
  exact hi.released

end Events

/-! ## Runs with a release -/

def sampleConfig : EngineConfig := ⟨sampleWorker.key, 1⟩

/-- A task is prepared, handed to the worker and pasted into the pane. -/
def pastedEvents (stagingVerified : Bool) : List EngineEvent := [
  .daemon (.replaceDirectory [sampleWorker]),
  .daemon (sampleTask "one" sampleDraw 1),
  .prepare sampleAttempt ⟨3, .written⟩,
  .enqueue 0,
  .work .go,
  .work .go,
  .work (.store ⟨4, .written⟩),
  .work (.gate (.proceed (.doorbell ⟨1, 1, Nat.one_pos, Nat.one_pos⟩
    ⟨2, 2, Nat.two_pos, Nat.two_pos⟩ ⟨3, 3, Nat.succ_pos 2, Nat.succ_pos 2⟩ "manifest"))),
  .work (.write none ⟨5, .written⟩),
  .work (.paste (.pasted stagingVerified))]

def submittedEvents (stagingVerified : Bool) : List EngineEvent :=
  pastedEvents stagingVerified ++ [.work .go, .work (.submit .sent), .work (.store ⟨6, .written⟩)]

def releasedStates (events : List EngineEvent) : List (Option NotificationState) :=
  letI := constantDigests
  ((boot (start sampleWorkspace "boot") []).run sampleConfig events).released.map
    fun release => release.record.map (·.state)

def recoveredEvents : List EngineEvent :=
  submittedEvents true ++ [.fail, .work (.replace true), .work (.store ⟨7, .written⟩), .work .go]

theorem recovered_attempt_rests :
    releasedStates recoveredEvents = [some .attentionRequired] ∧
      ∀ release ∈ (@Engine.run constantDigests sampleConfig
        (boot (start sampleWorkspace "boot") []) recoveredEvents).released,
        release.Rests := by
  let := constantDigests
  have hc : Runs.Along (step sampleConfig) Careful
      (boot (start sampleWorkspace "boot") []) recoveredEvents := by
    decide +kernel
  exact ⟨by decide +kernel, released_attempts_rest sampleWorkspace "boot" sampleConfig
    recoveredEvents hc⟩

/-- The first of two failing runs: a task that fails after a submit without verification is
forgotten there. -/
theorem unverified_submit_abandoned :
    releasedStates (submittedEvents false ++ [.fail, .work (.replace true), .work .go]) =
      [some .submittedUnverified] := by
  decide +kernel

/-- The second failing run: a task cut by the shutdown after its paste is forgotten while it writes.
-/
theorem shutdown_abandons_write :
    releasedStates (pastedEvents true ++ [.stop, .cut, .work .go]) = [some .writing] := by
  decide +kernel

end Cyclops
