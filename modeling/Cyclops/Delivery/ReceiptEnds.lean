import Cyclops.Delivery.Receipt
import Mathlib.Data.Bool.Basic

/-!
# Every answered receipt wait ends

A run of `await_ack` is an infinite sequence of turns: time passes, the armed timer is weakly fair,
and every turn does what its branch allows.

Result: `receipt_wait_ends`.
-/

namespace Cyclops.Receipt

open Progress WaitState AckClock Option Nat

/-! ## Runs -/

namespace AckTurn

def isTimer (turn : AckTurn) : Bool :=
  turn.branch matches .timer _

def isPane (turn : AckTurn) : Bool :=
  turn.branch matches .pane _ _

def pass? (turn : AckTurn) : Option Pass :=
  match turn.branch with
  | .idle | .notified _ => none
  | .timer pass | .event _ _ pass | .pane _ pass => some pass

/-- A change or output of the pane, or a lag of the daemon's stream found with the
session's watcher live. -/
def isCue (paneId : String) (turn : AckTurn) : Bool :=
  match turn.branch with
  | .pane (.ok (.paneChanged id dead)) _ => id = paneId && !dead
  | .pane (.ok (.outputActivity id)) _ => id = paneId
  | .event .lagged live _ => live
  | _ => false

def connected (paneId : String) (turn : AckTurn) : Bool :=
  match turn.branch with
  | .event _ live _ => live
  | .pane (.error .closed) _ | .pane (.ok .disconnected) _ => false
  | .pane (.ok (.paneRemoved id)) _ => id ≠ paneId
  | .pane (.ok (.paneChanged id dead)) _ => !(id = paneId && dead)
  | _ => true

end AckTurn

def TimerDue (s : WaitState) (turn : AckTurn) : Prop :=
  s.ended = none ∧ s.clock.nextTarget.any (·.1 ≤ turn.now) = true

/-- The turn looks at the pane, with these readings, from the state `s'`. -/
def Looks (paneId : String) (s : WaitState) (turn : AckTurn) (s' : WaitState) (pass : Pass) :
    Prop :=
  s.ended = none ∧ turn.resolved = false ∧ s.branch paneId turn = .looks s' pass

def FrozenPass (paneId : String) (s : WaitState) (turn : AckTurn) : Prop :=
  s.ended = none ∧ turn.resolved = false ∧
    match s.branch paneId turn with
    | .looks s' pass => receiptCheckpointPass s'.clock pass = .freeze
    | .stays _ => False

/-- A branch is only taken when it is ready, and a pass takes time. -/
@[mk_iff]
structure Ready (s : WaitState) (turn : AckTurn) : Prop where
  timer : turn.isTimer = true → TimerDue s turn
  pane : turn.isPane = true → s.attached = true
  pass : turn.pass?.all (turn.now ≤ ·.done) = true

instance (s : WaitState) (turn : AckTurn) : Decidable (TimerDue s turn) :=
  inferInstanceAs (Decidable (_ ∧ _))

instance (s : WaitState) (turn : AckTurn) : Decidable (Ready s turn) :=
  decidable_of_iff' _ (ready_iff s turn)

def waits (paneId : String) (s : WaitState) (turns : Nat → AckTurn) : Nat → WaitState :=
  run (awaitAckTurn paneId) s turns

/-- A run of `await_ack` on a steady pane, with finitely many frozen passes. -/
structure SteadyRun (paneId : String) (s : WaitState) (turns : Nat → AckTurn) : Prop where
  ready : ∀ n, (waits paneId s turns n).ended = none → Ready (waits paneId s turns n) (turns n)
  monotone : ∀ n, (turns n).now ≤ (turns (n + 1)).now
  passes : ∀ instant, ∃ n, instant ≤ (turns n).now
  fair : WeakFair (fun n => TimerDue (waits paneId s turns n) (turns n))
    (fun n => (turns n).isTimer = true)
  connected : ∀ n, (turns n).connected paneId = true
  steady : ∀ n pass, (turns n).pass? = some pass → pass.Steady
  /-- Every mode change between two looks is announced on the way. -/
  announced : ∀ m n s₁ s₂ p q, m < n → Looks paneId (waits paneId s turns m) (turns m) s₁ p →
    Looks paneId (waits paneId s turns n) (turns n) s₂ q →
    (p.detection.bind (·.writeBlock) = some "pane_in_mode" ↔
      ¬ q.detection.bind (·.writeBlock) = some "pane_in_mode") →
    ∃ k pass, m < k ∧ k ≤ n ∧ (turns k).branch = .pane (.ok (.paneChanged paneId false)) pass
  finitelyFrozen : ∃ bound, ∀ n, bound ≤ n → ¬ FrozenPass paneId (waits paneId s turns n) (turns n)

def Answered (paneId : String) (s : WaitState) (turns : Nat → AckTurn) : Prop :=
  ∀ n, FrozenPass paneId (waits paneId s turns n) (turns n) →
    ((turns n).isTimer = true →
      (waits paneId s turns n).clock.next < (waits paneId s turns n).clock.checkpoints.length) ∧
    ∃ m, n < m ∧ (turns m).isCue paneId = true

/-! ## One turn -/

namespace WaitState

def Returned (s : WaitState) : Prop :=
  ∃ outcome, s.ended = some (.returned outcome)

structure Waiting (s : WaitState) : Prop where
  open_ : s.ended = none
  attached : s.attached = true
  bounded : s.clock.next ≤ s.clock.checkpoints.length

theorem returns_returned (s : WaitState) (o : AckOutcome) : (s.returns o).Returned :=
  ⟨o, rfl⟩

theorem settle_cases {s : WaitState} {pass : Pass} (hste : pass.Steady) :
    (s.settle pass).Returned ∨ (receiptCheckpointPass s.clock pass = .freeze ∧
        s.settle pass = { s with clock := s.clock.freeze pass.done }) ∨
      (s.settle pass = s ∧ s.clock.expired pass.done = false) := by
  unfold settle
  rcases @receiptCheckpointPass_steady s.clock pass hste with
    hs | hs | hs | hs | ⟨hs, he⟩ <;> rw [hs]
  · exact .inr (.inl ⟨rfl, rfl⟩)
  · exact .inl (returns_returned s _)
  · exact .inl (returns_returned s _)
  · exact .inl (returns_returned s _)
  · exact .inr (.inr ⟨rfl, he⟩)

end WaitState

/-- What is left of the ladder: the checkpoints ahead, and the hook phase, whose end
adds one. -/
def AckClock.rank (clock : AckClock) : Nat :=
  clock.checkpoints.length - clock.next + if clock.hookDeadline.isSome then 2 else 0

theorem AckClock.endHookPhase_rank {c : AckClock} {now t : Nat}
    (hook : c.hookDeadline = some t) (hb : c.next ≤ c.checkpoints.length) :
    (c.endHookPhase now).rank < c.rank := by
  have hl := @endHookPhase_length c now hb
  have hf : c.next ≤ (c.endHookPhase now).next := Nat.le_add_right _ _
  have ended : (c.endHookPhase now).hookDeadline = none := rfl
  simp only [rank, hook, ended, isSome_some, isSome_none,
    if_true, Bool.false_eq_true, if_false]
  omega

theorem AckClock.advanceCheckpoint_rank {c : AckClock} (ha : c.next < c.checkpoints.length) :
    c.advanceCheckpoint.rank < c.rank := by
  have hf : c.checkpoints.length - (c.next + 1) < c.checkpoints.length - c.next := by omega
  exact Nat.add_lt_add_right hf _

open WaitState

/-- What one turn does to the wait. -/
inductive Effect (paneId : String) (s : WaitState) (turn : AckTurn) (s' : WaitState) : Prop
  | returns : s'.Returned → Effect paneId s turn s'
  | stays : s' = s → turn.isTimer = false →
      (s.clock.frozen = true → turn.isCue paneId = false) → Effect paneId s turn s'
  | fires : s'.Waiting → s.clock.frozen = false → s'.clock.frozen = false →
      s'.clock.rank < s.clock.rank → Effect paneId s turn s'
  | thaws : s'.Waiting → s.clock.frozen = true → s'.clock.frozen = false →
      Effect paneId s turn s'
  | freezes : s'.Waiting → FrozenPass paneId s turn → Effect paneId s turn s'

section

variable {p : String} {s s' : WaitState} {turn : AckTurn} {pass : Pass}

theorem awaitAckTurn_of_stays (open_ : s.ended = none)
    (unresolved : turn.resolved = false) (hm : s.branch p turn = .stays s') :
    s.awaitAckTurn p turn = s' := by
  simp [awaitAckTurn, open_, unresolved, hm]

theorem Looks.frozenPass (hl : Looks p s turn s' pass)
    (hf : receiptCheckpointPass s'.clock pass = .freeze) : FrozenPass p s turn := by
  obtain ⟨ho, unresolved, hm⟩ := hl
  exact ⟨ho, unresolved, by rw [hm]; exact hf⟩

theorem Looks.awaitAckTurn_eq (hl : Looks p s turn s' pass) :
    s.awaitAckTurn p turn = s'.settle pass := by
  simp [awaitAckTurn, hl.1, hl.2.1, hl.2.2]

theorem Looks.effect (hl : Looks p s turn s' pass) (hste : pass.Steady)
    (ho : receiptCheckpointPass s'.clock pass = .freeze → s'.Waiting)
    (hw : s'.clock.expired pass.done = false → Effect p s turn s') :
    Effect p s turn (s.awaitAckTurn p turn) := by
  rw [hl.awaitAckTurn_eq]
  obtain hr | ⟨hf, hs⟩ | ⟨hs, he⟩ := @settle_cases s' pass hste
  · exact .returns hr
  · rw [hs]
    have hwai := ho hf
    exact .freezes ⟨hwai.open_, hwai.attached, by simpa using hwai.bounded⟩ (hl.frozenPass hf)
  · rw [hs]
    exact hw he

section

variable (hwa : s.Waiting) (unresolved : turn.resolved = false)

include hwa unresolved

theorem Effect.of_still (hm : s.branch p turn = .stays s) (ht : turn.isTimer = false)
    (hu : s.clock.frozen = true → turn.isCue p = false) :
    Effect p s turn (s.awaitAckTurn p turn) :=
  .stays (awaitAckTurn_of_stays hwa.open_ unresolved hm) ht hu

theorem timer_effect (branch : turn.branch = .timer pass) (hr : Ready s turn) (hste : pass.Steady)
    (hs : FrozenPass p s turn → s.clock.next < s.clock.checkpoints.length) :
    Effect p s turn (s.awaitAckTurn p turn) := by
  obtain ⟨-, armed⟩ := hr.timer (by simp [AckTurn.isTimer, branch])
  obtain ⟨t, hook, armed, due⟩ : ∃ t hook, s.clock.nextTarget = some (t, hook) ∧ t ≤ turn.now := by
    simpa [any_eq_true] using armed
  have running : s.clock.frozen = false := by
    by_contra hf
    simp [nextTarget, hf] at armed
  cases hp : s.clock.hookDeadline with
  | some =>
    have hm : s.branch p turn = .stays { s with clock := s.clock.endHookPhase turn.now } := by
      simp [WaitState.branch, branch, AckClock.nextTarget, running, hp]
    rw [awaitAckTurn_of_stays hwa.open_ unresolved hm]
    have hlad := @endHookPhase_length s.clock turn.now hwa.bounded
    have hb : (s.clock.endHookPhase turn.now).next
        ≤ (s.clock.endHookPhase turn.now).checkpoints.length := by omega
    exact .fires ⟨hwa.open_, hwa.attached, hb⟩ running running (endHookPhase_rank hp hwa.bounded)
  | none =>
    have hai : (s.clock.checkpoints[s.clock.next]?).getD s.clock.deadline = t := by
      simp [nextTarget, running, hp] at armed
      exact armed.1
    have hl : Looks p s turn { s with clock := s.clock.advanceCheckpoint } pass :=
      ⟨hwa.open_, unresolved, by
        simp [WaitState.branch, branch, AckClock.nextTarget, running, hp]⟩
    refine hl.effect hste (fun hf => ?_) (fun he => ?_)
    · have ha := hs (hl.frozenPass hf)
      exact ⟨hwa.open_, hwa.attached, ha⟩
    · -- Past the last checkpoint the timer is the deadline, and the pass would expire.
      have ha : s.clock.next < s.clock.checkpoints.length := by
        by_contra hsp
        have hd : s.clock.deadline = t := by
          simpa [List.getElem?_eq_none (Nat.le_of_not_lt hsp)] using hai
        have hdo : turn.now ≤ pass.done := by simpa [AckTurn.pass?, branch] using hr.pass
        have hla : s.clock.deadline ≤ pass.done := by omega
        have hen : s.clock.advanceCheckpoint.expired pass.done = true := by
          rw [expired, show s.clock.advanceCheckpoint.frozen = false from running]
          exact decide_eq_true hla
        simp [hen] at he
      exact .fires ⟨hwa.open_, hwa.attached, ha⟩ running running (advanceCheckpoint_rank ha)

theorem recheck_effect (ht : turn.isTimer = false) (hste : pass.Steady)
    (hm : s.branch p turn = s.thaw turn.now (.looks · pass)) :
    Effect p s turn (s.awaitAckTurn p turn) := by
  obtain ⟨t, thaw, running, next, hl⟩ :=
    @unfreeze_eq s.clock turn.now hwa.bounded
  have hlo : Looks p s turn { s with clock := t } pass :=
    ⟨hwa.open_, unresolved, by simp [hm, WaitState.thaw, thaw]⟩
  have hw : Waiting { s with clock := t } :=
    ⟨hwa.open_, hwa.attached, by simpa [next, hl] using hwa.bounded⟩
  refine hlo.effect hste (fun _ => hw) (fun _ => ?_)
  cases hf : s.clock.frozen with
  | true => exact .thaws hw hf running
  | false =>
    have hs : t = s.clock := by
      simpa [unfreeze_of_running hf] using thaw.symm
    exact .stays (by rw [hs]) ht (by simp [hf])

theorem event_effect {ev : DaemonEvent} (branch : turn.branch = .event ev true pass) :
    Effect p s turn (s.awaitAckTurn p turn) := by
  have ht : turn.isTimer = false := by simp [AckTurn.isTimer, branch]
  cases ev with
  | session =>
    exact .of_still hwa unresolved (by simp [WaitState.branch, branch, hwa.attached]) ht
      (by simp [AckTurn.isCue, branch])
  | other =>
    exact .of_still hwa unresolved (by simp [WaitState.branch, branch]) ht
      (by simp [AckTurn.isCue, branch])
  | lagged =>
    cases frozen : s.clock.frozen with
    | false =>
      exact .of_still hwa unresolved (by simp [WaitState.branch, branch, frozen]) ht
        (by simp [frozen])
    | true =>
      obtain ⟨t, thaw, running, next, hl⟩ :=
        @unfreeze_eq s.clock turn.now hwa.bounded
      have hm : s.branch p turn = .stays { s with attached := true, clock := t } := by
        simp [WaitState.branch, branch, frozen, WaitState.thaw, thaw]
      rw [awaitAckTurn_of_stays hwa.open_ unresolved hm]
      exact .thaws ⟨hwa.open_, rfl, by simpa [next, hl] using hwa.bounded⟩ frozen running

theorem pane_effect {ev : Except RecvError PaneEvent}
    (branch : turn.branch = .pane ev pass) (hc : turn.connected p = true)
    (hste : pass.Steady) :
    Effect p s turn (s.awaitAckTurn p turn) := by
  have ht : turn.isTimer = false := by simp [AckTurn.isTimer, branch]
  cases hs : receiptPaneStep ev p s.clock.frozen with
  | recheck =>
    exact recheck_effect hwa unresolved ht hste (by simp [WaitState.branch, branch, hs])
  | ignore =>
    refine .of_still hwa unresolved (by simp [WaitState.branch, branch, hs]) ht fun hf => ?_
    unfold receiptPaneStep at hs
    grind [AckTurn.isCue]
  | rebound | freeze =>
    unfold receiptPaneStep at hs
    grind [AckTurn.connected]

end

theorem awaitAckTurn_effect (hw : s.Waiting) (hr : Ready s turn)
    (hc : turn.connected p = true) (hste : ∀ pass, turn.pass? = some pass → pass.Steady)
    (hs : FrozenPass p s turn → turn.isTimer = true → s.clock.next < s.clock.checkpoints.length) :
    Effect p s turn (s.awaitAckTurn p turn) := by
  cases resolved : turn.resolved with
  | true =>
    have ht : s.awaitAckTurn p turn = s.returns .resolved := by
      simp [awaitAckTurn, hw.open_, resolved]
    exact .returns (ht ▸ returns_returned s _)
  | false =>
    cases hb : turn.branch with
    | idle =>
      exact .of_still hw resolved (by simp [branch, hb])
        (by simp [AckTurn.isTimer, hb]) (by simp [AckTurn.isCue, hb])
    | notified f =>
      cases f with
      | true =>
        have hm : s.branch p turn = .stays (s.returns .resolved) := by
          simp [branch, hb]
        rw [awaitAckTurn_of_stays hw.open_ resolved hm]
        exact .returns (returns_returned s _)
      | false =>
        exact .of_still hw resolved (by simp [branch, hb])
          (by simp [AckTurn.isTimer, hb]) (by simp [AckTurn.isCue, hb])
    | timer pass =>
      exact timer_effect hw resolved hb hr (hste pass (by simp [AckTurn.pass?, hb]))
        fun hf => hs hf (by simp [AckTurn.isTimer, hb])
    | event ev live =>
      have ha : live = true := by simpa [AckTurn.connected, hb] using hc
      exact event_effect hw resolved (ha ▸ hb)
    | pane ev pass =>
      exact pane_effect hw resolved hb hc (hste pass (by simp [AckTurn.pass?, hb]))

end

/-! ## Whole runs -/

section

variable {pid : String} {s : WaitState} {turns : Nat → AckTurn}

theorem WaitState.Returned.persists {turn : AckTurn} (hr : s.Returned) :
    (s.awaitAckTurn pid turn).Returned := by
  obtain ⟨o, he⟩ := hr
  exact ⟨o, by simp [awaitAckTurn, he]⟩

theorem SteadyRun.effect (hs : SteadyRun pid s turns) (han : Answered pid s turns)
    {n : Nat} (hw : (waits pid s turns n).Waiting) :
    Effect pid (waits pid s turns n) (turns n) (waits pid s turns (n + 1)) :=
  awaitAckTurn_effect hw (hs.ready n hw.open_) (hs.connected n) (hs.steady n) fun hf => (han n hf).1

def Owed (paneId : String) (s : WaitState) (turns : Nat → AckTurn) (n : Nat) : Prop :=
  (waits paneId s turns n).Returned ∨ ((waits paneId s turns n).Waiting ∧
    ((waits paneId s turns n).clock.frozen = true → ∃ m, n ≤ m ∧ (turns m).isCue paneId = true))

def Unfrozen (paneId : String) (s : WaitState) (turns : Nat → AckTurn) (n : Nat) : Prop :=
  (waits paneId s turns n).Returned ∨
    ((waits paneId s turns n).Waiting ∧ (waits paneId s turns n).clock.frozen = false)

section

variable (hst : SteadyRun pid s turns) (ha : Answered pid s turns)

include hst ha

/-- The induction is on the turns: a cue that is ahead stays ahead until it comes. -/
theorem owed_always (hw : s.Waiting) (hr : s.clock.frozen = false) (n : Nat) :
    Owed pid s turns n := by
  induction n with
  | zero => exact .inr ⟨hw, fun hf => absurd hf (by simp [waits, run, hr])⟩
  | succ n ih =>
    obtain hre | ⟨hw, ho⟩ := ih
    · exact .inl hre.persists
    · cases hst.effect ha hw with
      | returns hre => exact .inl hre
      | stays hs _ hu =>
        refine .inr ⟨hs ▸ hw, fun hf => ?_⟩
        rw [hs] at hf
        obtain ⟨m, le, hc⟩ := ho hf
        have hl : m ≠ n := by
          rintro rfl
          simp [hu hf] at hc
        exact ⟨m, by omega, hc⟩
      | fires hw _ hr | thaws hw _ hr =>
        exact .inr ⟨hw, fun hf => by simp [hr] at hf⟩
      | freezes hw hf => exact .inr ⟨hw, fun _ => (ha n hf).2⟩

theorem Unfrozen.next {n : Nat} (ho : ¬ FrozenPass pid (waits pid s turns n) (turns n))
    (hu : Unfrozen pid s turns n) : Unfrozen pid s turns (n + 1) := by
  obtain hre | ⟨hw, hr⟩ := hu
  · exact .inl hre.persists
  · cases hst.effect ha hw with
    | returns hre => exact .inl hre
    | stays hs => exact .inr ⟨hs ▸ hw, hs ▸ hr⟩
    | fires hw _ hr | thaws hw _ hr => exact .inr ⟨hw, hr⟩
    | freezes _ hf => exact absurd hf ho

theorem eventually_unfrozen (hw : s.Waiting) (hru : s.clock.frozen = false) :
    ∃ n, ∀ m, n ≤ m → Unfrozen pid s turns m ∧
      ¬ FrozenPass pid (waits pid s turns m) (turns m) := by
  obtain ⟨b, ho⟩ := hst.finitelyFrozen
  have hre : ∃ n, b ≤ n ∧ Unfrozen pid s turns n := by
    obtain hr | ⟨he, how⟩ := owed_always hst ha hw hru b
    · exact ⟨b, le_refl _, .inl hr⟩
    cases hf : (waits pid s turns b).clock.frozen with
    | false => exact ⟨b, le_refl _, .inr ⟨he, hf⟩⟩
    | true =>
      obtain ⟨m, le, hc⟩ := how hf
      obtain hr | ⟨ht, -⟩ := owed_always hst ha hw hru m
      · exact ⟨m, le, .inl hr⟩
      cases hst.effect ha ht with
      | returns hr => exact ⟨m + 1, by omega, .inl hr⟩
      | stays hsa _ hun =>
        refine ⟨m, le, .inr ⟨ht, ?_⟩⟩
        by_contra hs
        simp [hun (by simpa using hs)] at hc
      | fires hw _ hru | thaws hw _ hru =>
        exact ⟨m + 1, by omega, .inr ⟨hw, hru⟩⟩
      | freezes _ hf => exact absurd hf (ho m le)
  obtain ⟨n, after, hu⟩ := hre
  have hk : ∀ m, n ≤ m → Unfrozen pid s turns m :=
    persists (fun m le => .next hst ha (ho m (by omega))) hu
  exact ⟨n, fun m le => ⟨hk m le, ho m (by omega)⟩⟩

end

theorem nextTarget_of_running {c : AckClock} (hr : c.frozen = false) :
    ∃ t hook, c.nextTarget = some (t, hook) := by
  unfold nextTarget
  cases c.hookDeadline <;> simp [hr]

/-- While the clock runs, the armed timer comes due and fires, and the ladder gets
shorter or the wait is over. -/
theorem ladder_drops (hste : SteadyRun pid s turns) (han : Answered pid s turns)
    {n : Nat} (hw : (waits pid s turns n).Waiting)
    (hr : (waits pid s turns n).clock.frozen = false)
    (ho : ∀ m, n ≤ m → ¬ FrozenPass pid (waits pid s turns m) (turns m)) :
    ∃ m, n ≤ m ∧ ((waits pid s turns m).Returned ∨
      (waits pid s turns m).clock.rank < (waits pid s turns n).clock.rank) := by
  obtain ⟨t, hook, armed⟩ := nextTarget_of_running hr
  have hm : ∀ m, n ≤ m → waits pid s turns m = waits pid s turns n →
      (waits pid s turns (m + 1) = waits pid s turns n ∧ (turns m).isTimer = false) ∨
      ((waits pid s turns (m + 1)).Returned ∨
        (waits pid s turns (m + 1)).clock.rank < (waits pid s turns n).clock.rank) := by
    intro m le hs
    cases @SteadyRun.effect _ _ _ hste han m (hs ▸ hw) with
    | returns hre => exact .inr (.inl hre)
    | stays hst ht => exact .inl ⟨hst.trans hs, ht⟩
    | fires _ _ _ hl => exact .inr (.inr (hs ▸ hl))
    | thaws _ hf => rw [hs, hr] at hf; cases hf
    | freezes _ hf => exact absurd hf (ho m le)
  refine hste.fair.leads (p := fun m => waits pid s turns m = waits pid s turns n)
    (fun m le hs _ => (hm m le hs).imp_left And.left) (fun m le hs ht => ?_) ?_ rfl
  · refine (hm m le hs).resolve_left fun hst => ?_
    simp [hst.2] at ht
  · obtain ⟨k, hd⟩ := hste.passes t
    refine ⟨max n k, le_max_left _ _, fun m ha hs => ?_⟩
    have hla : (turns k).now ≤ (turns m).now :=
      persists (p := fun j => (turns k).now ≤ (turns j).now)
        (fun j _ le => le_trans le (hste.monotone j)) (le_refl _) m (by omega)
    have hp : t ≤ (turns m).now := by omega
    exact ⟨hs ▸ hw.open_, by simp [hs, armed, hp]⟩

end

/-- Every receipt wait whose frozen passes are answered returns. -/
theorem receipt_wait_ends (paneId : String) (submitAt now : Nat) (hookWindow : Option Nat)
    (turns : Nat → AckTurn)
    (steady : SteadyRun paneId (start submitAt hookWindow true now) turns)
    (answered : Answered paneId (start submitAt hookWindow true now) turns) :
    ∃ n outcome, (waits paneId (start submitAt hookWindow true now) turns n).ended
      = some (.returned outcome) := by
  have hw : (start submitAt hookWindow true now).Waiting :=
    ⟨rfl, rfl, zero_le _⟩
  obtain ⟨n, hs⟩ := eventually_unfrozen steady answered hw rfl
  obtain ⟨m, -, hr⟩ := @eventually_of_rank
    (fun m => (waits paneId (start submitAt hookWindow true now) turns m).Returned)
    (fun m => (waits paneId (start submitAt hookWindow true now) turns m).clock.rank)
    n fun m le => by
      obtain hr | ⟨hw, hru⟩ := (hs m le).1
      · exact ⟨m, le_refl _, .inl hr⟩
      · exact ladder_drops steady answered hw hru fun j ha =>
          (hs j (by omega)).2
  exact ⟨m, hr⟩

/-! ## Turns followed by silence -/

section

variable {paneId : String} {s : WaitState} {t : List AckTurn} {since : Nat}

def silence (since n : Nat) : AckTurn :=
  { now := since + n, branch := .idle }

theorem silence_still (s : WaitState) (n : Nat) : s.awaitAckTurn paneId (silence since n) = s := by
  simp [awaitAckTurn, silence, branch]

@[mk_iff]
structure SteadyTurn (paneId : String) (s : WaitState) (turn : AckTurn) : Prop where
  ready : Ready s turn
  connected : turn.connected paneId = true
  steady : turn.pass?.all (fun pass => pass.Steady ∧
    pass.detection.bind (·.writeBlock) ≠ some "pane_in_mode") = true

instance (s : WaitState) (turn : AckTurn) : Decidable (SteadyTurn paneId s turn) :=
  decidable_of_iff' _ (steadyTurn_iff paneId s turn)

theorem Looks.pass? {turn : AckTurn} {s' : WaitState} {pass : Pass}
    (hl : Looks paneId s turn s' pass) : turn.pass? = some pass := by
  obtain ⟨-, -, hm⟩ := hl
  unfold branch thaw at hm
  unfold AckTurn.pass?
  grind

theorem SteadyTurn.pass {turn : AckTurn} {pass : Pass} (hs : SteadyTurn paneId s turn)
    (hr : turn.pass? = some pass) :
    pass.Steady ∧ pass.detection.bind (·.writeBlock) ≠ some "pane_in_mode" := by
  simpa [hr] using hs.steady

theorem silence_steady (s : WaitState) (n : Nat) : SteadyTurn paneId s (silence since n) :=
  ⟨⟨nofun, nofun, rfl⟩, rfl, rfl⟩

theorem SteadyRun.of_turns (hal : Runs.Along (awaitAckTurn paneId) (SteadyTurn paneId) s t)
    (hor : t.Pairwise (·.now ≤ ·.now)) (hb : ∀ turn ∈ t, turn.now ≤ since)
    (hd : (t.foldl (awaitAckTurn paneId) s).ended ≠ none ∨
      (t.foldl (awaitAckTurn paneId) s).clock.frozen = true) :
    SteadyRun paneId s (followed t (silence since)) := by
  have he := followed_along hal (silence_still _) (@silence_steady paneId since _)
  have haf : ∀ {n}, t.length ≤ n → waits paneId s (followed t (silence since)) n
      = t.foldl (awaitAckTurn paneId) s := run_followed_idle (silence_still _)
  refine ⟨fun n _ => (he n).ready, fun n => ?_, fun i => ?_, fun n due => ?_,
    fun n => (he n).connected, fun n pass hr => ((he n).pass hr).1, ?_, ?_⟩
  · by_cases hl : n + 1 < t.length
    · rw [followed_of_lt hl, followed_of_lt (lt_of_succ_lt hl)]
      exact List.pairwise_iff_getElem.mp hor _ _ _ hl (lt_succ_self n)
    · rw [followed_of_le (n := n + 1) (by omega)]
      by_cases lt : n < t.length
      · rw [followed_of_lt lt]
        exact le_trans (hb _ (List.getElem_mem lt)) (le_add_right _ _)
      · rw [followed_of_le (by omega)]
        exact Nat.add_le_add_left (Nat.le_succ n) since
  · refine ⟨max t.length i, ?_⟩
    rw [followed_of_le (le_max_left _ _)]
    simp only [silence]
    omega
  · obtain ⟨ho, ha⟩ := due (max n t.length) (le_max_left _ _)
    rw [haf (le_max_right _ _)] at ho ha
    obtain hen | hf := hd
    · exact absurd ho hen
    · simp [nextTarget, hf] at ha
  · intro m n _ _ p q _ first hse hs
    have out := ((he m).pass first.pass?).2
    exact absurd (hs.mpr ((he n).pass hse.pass?).2) out
  · refine ⟨t.length, fun n le => ?_⟩
    rw [followed_of_le le]
    exact fun hf => hf.2.2

end

def look (stale : Bool) (evidence : Evidence) (done : Nat) : Pass where
  watcherLive := true
  detection := some { state := .idle, decidedBy := "screen", stale }
  sameWatcher := true
  resolved := false
  evidence
  done

def answeredTurns : List AckTurn :=
  [{ now := 250, branch := .timer (look true .absent 260) },
   { now := 300, branch := .pane (.ok (.paneChanged "%1" false)) (look false .absent 310) },
   { now := 1000, branch := .timer (look false .confirmed 1010) }]

def quietTurns : List AckTurn :=
  [{ now := 250, branch := .timer (look true .absent 260) }]

/-- The last checkpoint and the deadline's own look fail, and then the pane changes. -/
def spentTurns : List AckTurn :=
  [{ now := 6000, branch := .timer (look false .absent 6000) },
   { now := 6000, branch := .timer (look true .absent 6010) },
   { now := 6100, branch := .event .lagged true (look false .absent 6100) },
   { now := 6100, branch := .timer (look true .absent 6110) },
   { now := 6200, branch := .pane (.ok (.paneChanged "%1" false)) (look false .absent 6210) }]

theorem answeredTurns_steady : SteadyRun "%1" (start 0 none true 0)
    (followed answeredTurns (silence 1000)) :=
  .of_turns (by decide) (by decide) (by decide) (.inl (by decide))

theorem answeredTurns_answered : Answered "%1" (start 0 none true 0)
    (followed answeredTurns (silence 1000)) := by
  intro n hf
  match n with
  | 0 => exact ⟨fun _ => by decide, 1, by decide, rfl⟩
  | 1 =>
    have hw : ReceiptStep.wait = .freeze := hf.2.2
    cases hw
  | 2 =>
    have hd : ReceiptStep.deliver = .freeze := hf.2.2
    cases hd
  | n + 3 => exact absurd hf.2.2 id

/-- The frozen wait that was answered returns. -/
theorem answered_wait_returns : ∃ n outcome,
    (waits "%1" (start 0 none true 0) (followed answeredTurns (silence 1000)) n).ended
      = some (.returned outcome) :=
  receipt_wait_ends "%1" 0 0 none _ answeredTurns_steady answeredTurns_answered

/-- A frozen pass that is not answered leaves the wait in its loop forever. -/
theorem quiet_pane_hangs :
    (∃ turns, SteadyRun "%1" (start 0 none true 0) turns ∧
      ∀ n, (waits "%1" (start 0 none true 0) turns n).ended = none) ∧
    (∃ turns, SteadyRun "%1" (start 0 (some 6000) true 0) turns ∧
      ∃ n, (waits "%1" (start 0 (some 6000) true 0) turns n).ended = some .panicked) := by
  refine ⟨⟨followed quietTurns (silence 260), ?_, fun n => ?_⟩,
    ⟨followed spentTurns (silence 6200), ?_, 5, ?_⟩⟩
  · exact .of_turns (by decide) (by decide) (by decide) (.inr (by decide))
  · cases n with
    | zero => rfl
    | succ n =>
      have hs := @run_followed_idle _ _ (awaitAckTurn "%1") (start 0 none true 0)
        quietTurns (silence 260) (silence_still _) (n + 1) (le_add_left _ _)
      rw [waits, hs]
      decide
  · exact .of_turns (by decide) (by decide) (by decide) (.inl (by decide))
  · decide

end Cyclops.Receipt
