import Cyclops.Delivery.ReceiptEnds

/-!
# The time that counts against a receipt

A receipt wait gives up on time in which the pane could be observed.

Result: `observable_time_counts`.
-/

namespace Cyclops.Receipt

open WaitState AckClock List

/-! ## The clock of one turn -/

@[simp] def AckMove.state : AckMove → WaitState
  | .stays s | .looks s _ => s

def WaitState.beforeLook (paneId : String) (s : WaitState) (turn : AckTurn) : WaitState :=
  if s.ended.isSome || turn.resolved then s else (s.branch paneId turn).state

namespace AckClock

def stoodStill (clock : AckClock) (now : Nat) (clock' : AckClock) : Nat :=
  match clock.frozenAt with
  | some since => if clock'.frozen then 0 else now - since
  | none => 0

def distances (clock : AckClock) : List Int :=
  (clock.checkpoints.drop clock.next).map fun (checkpoint : Nat) =>
    (clock.deadline : Int) - checkpoint

/-- The clocks give up at the same instant and look at the same distances from it. -/
def SameLadder (clock clock' : AckClock) : Prop :=
  clock'.deadline = clock.deadline ∧ clock'.distances = clock.distances

/-- A timer passes the checkpoints behind it; the end of the hook phase looks at once. -/
def Fired (clock : AckClock) (now : Nat) (clock' : AckClock) : Prop :=
  clock'.deadline = clock.deadline ∧ ∃ k, clock'.distances = clock.distances.drop k ∨
    clock'.distances = ((clock.deadline : Int) - now) :: clock.distances.drop k

/-- What a turn can do to the clock before it looks at the pane. -/
inductive Moves (clock : AckClock) (turn : AckTurn) : AckClock → Prop
  | stays : Moves clock turn clock
  | freezes : Moves clock turn (clock.freeze turn.now)
  | thaws {clock' : AckClock} : clock.unfreeze turn.now = some clock' → Moves clock turn clock'
  | fires {clock' : AckClock} : clock.frozen = false → turn.isTimer = true →
      clock.Fired turn.now clock' → Moves clock turn clock'

variable {clock c' : AckClock} {turn : AckTurn} {now : Nat}

theorem sameLadder_freeze : clock.SameLadder (clock.freeze now) := by
  unfold freeze
  split <;> exact ⟨rfl, rfl⟩

theorem unfreeze_cases (ht : clock.unfreeze now = some c') :
    c'.distances = clock.distances ∧ (clock.frozenAt = none ∧ c' = clock ∨
        ∃ since, clock.frozenAt = some since ∧ c'.frozen = false ∧
          c'.deadline = clock.deadline + (now - since)) := by
  unfold unfreeze at ht
  split at ht
  · next running =>
    cases ht
    exact ⟨rfl, .inl ⟨running, rfl⟩⟩
  · next since frozen =>
    split at ht
    · next bounded =>
      cases ht
      refine ⟨?_, .inr ⟨since, frozen, rfl, rfl⟩⟩
      -- The checkpoints ahead and the deadline move by the same time.
      simp only [distances, drop_left' (length_take_of_le bounded), map_map]
      refine map_congr_left fun c _ => ?_
      simp only [Function.comp_apply]
      omega
    · cases ht

theorem drop_insertIdx {α : Type*} {a : α} {n : Nat} {l : List α} (hi : n ≤ l.length) :
    (l.insertIdx n a).drop n = a :: l.drop n := by
  induction n generalizing l with
  | zero => simp
  | succ n ih =>
    cases l with
    | nil => simp at hi
    | cons => simpa using ih (by simpa using hi)

theorem fired_endHookPhase : clock.Fired now (clock.endHookPhase now) := by
  refine ⟨rfl, clock.passedCheckpoints now, ?_⟩
  by_cases hi : clock.next + clock.passedCheckpoints now ≤ clock.checkpoints.length
  · exact .inr (by simp [distances, endHookPhase, drop_insertIdx hi])
  · have hs : clock.checkpoints.length < clock.next + clock.passedCheckpoints now := by omega
    exact .inl (by simp [distances, endHookPhase, insertIdx_of_length_lt hs])

theorem fired_advanceCheckpoint : clock.Fired now clock.advanceCheckpoint :=
  ⟨rfl, 1, .inl (by simp [distances, advanceCheckpoint])⟩

theorem Moves.distances (hm : clock.Moves turn c') : c'.distances = clock.distances ∨
      clock.frozen = false ∧ turn.isTimer = true ∧ clock.Fired turn.now c' := by
  cases hm with
  | stays => exact .inl rfl
  | freezes => exact .inl sameLadder_freeze.2
  | thaws ht => exact .inl (unfreeze_cases ht).1
  | fires hr timer hf => exact .inr ⟨hr, timer, hf⟩

theorem Moves.deadline (hm : clock.Moves turn c') :
    c'.deadline = clock.deadline + clock.stoodStill turn.now c' := by
  unfold stoodStill
  cases hm with
  | stays => cases since : clock.frozenAt <;> simp [frozen, since]
  | freezes => cases since : clock.frozenAt <;> simp [freeze, frozen, since]
  | thaws ht =>
    obtain ⟨-, ⟨hr, hs⟩ | ⟨since, frozen, thawed, hd⟩⟩ := unfreeze_cases ht
    · simp [hr, hs]
    · simp [frozen, thawed, hd]
  | fires hr _ hf =>
    have hn : clock.frozenAt = none := by simpa [frozen] using hr
    simp [hn, hf.1]

end AckClock

/-! ## Runs -/

def timedTurn (paneId : String) (run : WaitState × Nat) (turn : AckTurn) : WaitState × Nat :=
  (run.1.awaitAckTurn paneId turn,
    run.2 + run.1.clock.stoodStill turn.now (run.1.beforeLook paneId turn).clock)

variable {paneId : String} {s : WaitState} {turn : AckTurn} {pass : Pass}

theorem thaw_clock {t : WaitState → AckMove} (hk : ∀ s, (t s).state = s) :
    s.clock.Moves turn (s.thaw turn.now t).state.clock := by
  unfold thaw
  split
  · exact .stays
  · next thaw =>
    rw [hk]
    exact .thaws thaw

theorem branch_clock (paneId : String) (s : WaitState) (turn : AckTurn) :
    s.clock.Moves turn (s.branch paneId turn).state.clock := by
  unfold branch
  cases branch : turn.branch with
  | idle => exact .stays
  | notified resolved => cases resolved <;> exact .stays
  | timer =>
    have timer : turn.isTimer = true := by simp [AckTurn.isTimer, branch]
    unfold nextTarget
    cases running : s.clock.frozen with
    | true => exact .stays
    | false =>
      cases s.clock.hookDeadline with
      | some => exact .fires running timer fired_endHookPhase
      | none => exact .fires running timer fired_advanceCheckpoint
  | event ev =>
    cases ev with
    | session =>
      dsimp only
      split_ifs
      · exact .stays
      · exact .freezes
      · exact thaw_clock (s := { s with attached := true }) fun _ => rfl
      · exact .stays
    | lagged =>
      dsimp only
      split_ifs
      · exact thaw_clock (s := { s with attached := true }) fun _ => rfl
      · exact .stays
    | other => exact .stays
  | pane =>
    dsimp only
    split
    · exact thaw_clock fun _ => rfl
    · exact .stays
    · exact .freezes
    · exact .stays

theorem beforeLook_clock (paneId : String) (s : WaitState) (turn : AckTurn) :
    s.clock.Moves turn (s.beforeLook paneId turn).clock := by
  unfold beforeLook
  split
  · exact .stays
  · exact branch_clock paneId s turn

theorem settle_sameLadder (pass : Pass) : s.clock.SameLadder (s.settle pass).clock := by
  unfold settle
  split
  case h_5 => exact sameLadder_freeze
  all_goals exact ⟨rfl, rfl⟩

theorem awaitAckTurn_sameLadder :
    (s.beforeLook paneId turn).clock.SameLadder (s.awaitAckTurn paneId turn).clock := by
  unfold beforeLook awaitAckTurn
  cases s.ended.isSome with
  | true => exact ⟨rfl, rfl⟩
  | false =>
    cases turn.resolved with
    | true => exact ⟨rfl, rfl⟩
    | false =>
      cases s.branch paneId turn with
      | stays => exact ⟨rfl, rfl⟩
      | looks s' pass => exact settle_sameLadder pass

/-- Over a run, the deadline is the submit key's, moved by the time the clock stood still. -/
theorem timedTurns_deadline {run : WaitState × Nat} {sa : Nat} (t : List AckTurn)
    (credited : run.1.clock.deadline = sa + screenAckDeadline + run.2) :
    (t.foldl (timedTurn paneId) run).1.clock.deadline =
      sa + screenAckDeadline + (t.foldl (timedTurn paneId) run).2 := by
  induction t generalizing run with
  | nil => exact credited
  | cons turn t ih =>
    refine ih ?_
    simp only [timedTurn]
    rw [awaitAckTurn_sameLadder.1, (beforeLook_clock ..).deadline, credited, Nat.add_assoc _ run.2]

theorem expire_cases {clock : AckClock} (he : receiptCheckpointPass clock pass = .expire) :
    pass.watcherLive = true ∧
      receiptRefreshStep pass.sameWatcher pass.detection pass.resolved = .observe ∧
      pass.evidence = .absent ∧ clock.frozen = false ∧ clock.deadline ≤ pass.done := by
  unfold receiptCheckpointPass at he
  cases hl : pass.watcherLive with
  | false => simp [hl] at he
  | true =>
    cases refresh : receiptRefreshStep pass.sameWatcher pass.detection pass.resolved with
    | observe =>
      cases evidence : pass.evidence with
      | absent =>
        refine ⟨rfl, rfl, rfl, ?_⟩
        cases late : clock.expired pass.done with
        | true => simpa [expired] using late
        | false => simp [hl, refresh, evidence, late, checkpointStep] at he
      | _ => simp [hl, refresh, evidence, checkpointStep] at he
    | _ => simp [hl, refresh] at he

theorem settle_timeout (hb : s.ended ≠ some (.returned .timeout))
    (ht : (s.settle pass).ended = some (.returned .timeout)) :
    receiptCheckpointPass s.clock pass = .expire := by
  cases step : receiptCheckpointPass s.clock pass with
  | expire => rfl
  | _ => simp [settle, step, returns, hb] at ht

theorem branch_ended (ho : s.ended = none) :
    (s.branch paneId turn).state.ended ≠ some (.returned .timeout) := by
  unfold branch thaw
  repeat' split
  all_goals simp [returns, ho]

theorem timeout_looks (open_ : s.ended = none)
    (ht : (s.awaitAckTurn paneId turn).ended = some (.returned .timeout)) :
    ∃ l pass, Looks paneId s turn l pass ∧ receiptCheckpointPass l.clock pass = .expire := by
  have hb := @branch_ended paneId s turn open_
  cases unresolved : turn.resolved with
  | true => simp [awaitAckTurn, open_, unresolved, returns] at ht
  | false =>
    cases hm : s.branch paneId turn with
    | stays =>
      rw [awaitAckTurn_of_stays open_ unresolved hm] at ht
      exact absurd ht (by simpa [hm] using hb)
    | looks s' pass =>
      have looks : Looks paneId s turn s' pass := ⟨open_, unresolved, hm⟩
      rw [looks.awaitAckTurn_eq] at ht
      exact ⟨s', pass, looks, settle_timeout (by simpa [hm] using hb) ht⟩

theorem branch_of_frozen (hf : s.clock.frozen = true) (ht : turn.isTimer = true) :
    s.branch paneId turn = .stays s := by
  unfold AckTurn.isTimer at ht
  unfold branch
  split at ht
  · next branch => simp [branch, nextTarget, hf]
  · cases ht

/-- A wait times out only on observable time, after a look that found nothing; a frozen clock lets no
timer pass; and only a timer on a running clock moves the checkpoints against the deadline. -/
theorem observable_time_counts (paneId : String) (submitAt : Nat) (hookWindow : Option Nat)
    (attached : Bool) (now : Nat) (turns : List AckTurn) (turn : AckTurn) :
    let run := turns.foldl (timedTurn paneId) (start submitAt hookWindow attached now, 0)
    let next := timedTurn paneId run turn
    (run.1.ended = none → next.1.ended = some (.returned .timeout) →
      ∃ looked pass, Looks paneId run.1 turn looked pass ∧ pass.watcherLive = true ∧
        receiptRefreshStep pass.sameWatcher pass.detection pass.resolved = .observe ∧
        pass.evidence = .absent ∧ looked.clock.frozen = false ∧
        screenAckDeadline ≤ pass.done - submitAt - next.2) ∧
    (run.1.clock.frozen = true → turn.isTimer = true → turn.resolved = false → next = run) ∧
    (next.1.clock.distances = run.1.clock.distances ∨
      run.1.clock.frozen = false ∧ turn.isTimer = true ∧
        run.1.clock.Fired turn.now next.1.clock) := by
  intro run next
  have hm := beforeLook_clock paneId run.1 turn
  have hl : (run.1.beforeLook paneId turn).clock.SameLadder next.1.clock :=
    awaitAckTurn_sameLadder
  refine ⟨fun ho ht => ?_, fun hf timer unresolved => ?_, ?_⟩
  · obtain ⟨looked, pass, looks, he⟩ := timeout_looks ho ht
    obtain ⟨live, observed, absent, running, hla⟩ := expire_cases he
    refine ⟨looked, pass, looks, live, observed, absent, running, ?_⟩
    have before : run.1.beforeLook paneId turn = looked := by
      simp [beforeLook, looks.1, looks.2.1, looks.2.2]
    have hst : (start submitAt hookWindow attached now).clock.deadline =
        submitAt + screenAckDeadline + 0 := by
      cases attached <;> rfl
    have hc : next.1.clock.deadline = submitAt + screenAckDeadline + next.2 := by
      simpa using @timedTurns_deadline paneId _ _ (turns ++ [turn]) hst
    rw [hl.1, before] at hc
    omega
  · have hs := @branch_of_frozen paneId run.1 turn hf timer
    have turned : run.1.awaitAckTurn paneId turn = run.1 := by
      simp [awaitAckTurn, unresolved, hs]
    have before : run.1.beforeLook paneId turn = run.1 := by
      simp [beforeLook, hs]
    have none : run.1.clock.stoodStill turn.now run.1.clock = 0 := by
      unfold stoodStill
      split <;> simp [hf]
    simp [next, timedTurn, turned, before, none]
  · obtain hsa | ⟨running, timer, hfi⟩ := hm.distances
    · exact .inl (hl.2.trans hsa)
    · exact .inr ⟨running, timer, hl.1.trans hfi.1, hl.2 ▸ hfi.2⟩

/-- A look at a pane that is there and shows no receipt. -/
def samplePass (done : Nat) : Pass :=
  ⟨true, some { state := .idle, decidedBy := "screen" }, true, false, .absent, done⟩

/-- The pane is out of sight for a second, and the wait times out a second later for it. -/
theorem sample_wait_times_out :
    let frozen := timedTurn "%1" (start 0 none true 0, 0)
      ⟨100, false, .pane (.ok .disconnected) (samplePass 100)⟩
    let back : AckTurn := ⟨1100, false, .pane (.ok (.paneChanged "%1" false)) (samplePass 1100)⟩
    let last : AckTurn := ⟨6000, false, .timer (samplePass 6000)⟩
    let run := timedTurn "%1" frozen back
    (timedTurn "%1" run last).1.ended = some (.returned .timeout) ∧
      (∃ looked pass, Looks "%1" run.1 last looked pass ∧ pass.evidence = .absent ∧
        screenAckDeadline ≤ pass.done - 0 - (timedTurn "%1" run last).2) ∧
      (timedTurn "%1" run last).2 = 1000 ∧
      timedTurn "%1" frozen last = frozen := by
  intro frozen back last run
  have hend : (timedTurn "%1" run last).1.ended = some (.returned .timeout) := by decide
  obtain ⟨htimeout, -⟩ := observable_time_counts "%1" 0 none true 0
    [⟨100, false, .pane (.ok .disconnected) (samplePass 100)⟩, back] last
  obtain ⟨looked, pass, hl, -, -, he, -, ht⟩ := htimeout (by decide) hend
  obtain ⟨-, hstill, -⟩ := observable_time_counts "%1" 0 none true 0
    [⟨100, false, .pane (.ok .disconnected) (samplePass 100)⟩] last
  exact ⟨hend, ⟨looked, pass, hl, he, ht⟩, by decide, hstill (by decide) (by decide) rfl⟩

end Cyclops.Receipt
