import Cyclops.Daemon.Acceptance

/-!
# The wait for first dispositions, in time

The wait reads the projection, and reads it again after each change event, until every head it
observes has been read past its waiting states, the stream is closed, or the deadline passes.

Result: `receipt_wait_lossless`.
-/

namespace Cyclops

open List

def reached (requireWake : Bool) (dispositions : List MessageDisposition)
    (head : RecipientKey × ScheduledHead) : Bool :=
  (dispositions.find? fun disposition => disposition.recipient = head.1).any
    (hasFirstDurableDisposition · head.2 requireWake)

/-- Where the wait stands in its loop. -/
inductive WaitPhase where
  | reading
  | checking
  | waiting
  | lastRead
  | returned (answer : List MessageDisposition) (time : Nat)

def WaitPhase.rank : WaitPhase → Nat
  | reading => 4
  | checking => 3
  | waiting => 2
  | lastRead => 1
  | returned _ _ => 0

structure ReceiptWait where
  projection : List MessageDisposition
  now : Nat
  queue : List Recv := []
  closed : Bool := false
  pending : List (RecipientKey × ScheduledHead)
  phase : WaitPhase := .reading
  reads : List (List MessageDisposition) := []
  silent : Bool := false

/-- What workers, the stream, the clock and the wait itself can do next. -/
inductive WaitOp where
  | commit (projection : List MessageDisposition)
  | changed
  | unrelated
  | lag (lost : Nat)
  | close
  | tick (time : Nat)
  | run

namespace ReceiptWait

variable (deadline : Nat) (requireWake : Bool)

/-- One step of `observe_first_durable_dispositions_with`. -/
def run (s : ReceiptWait) : ReceiptWait :=
  match s.phase with
  | .reading =>
    let pending := stillPending requireWake s.projection s.pending
    { s with
      pending
      reads := s.projection :: s.reads
      phase := if pending.isEmpty then .returned s.projection s.now else .checking }
  | .checking => { s with phase := if deadline ≤ s.now then .lastRead else .waiting }
  | .waiting =>
    match s.queue with
    | .messagesChanged :: rest | .lagged :: rest => { s with queue := rest, phase := .reading }
    | .otherEvent :: rest => { s with queue := rest }
    | .closed :: _ => { s with phase := .lastRead }
    | [] => if s.closed ∨ deadline ≤ s.now then { s with phase := .lastRead } else s
  | .lastRead =>
    { s with reads := s.projection :: s.reads, phase := .returned s.projection s.now }
  | .returned _ _ => s

def step (s : ReceiptWait) : WaitOp → ReceiptWait
  | .commit projection => { s with projection, silent := true }
  | .changed => { s with queue := s.queue ++ [.messagesChanged], silent := false }
  | .unrelated => { s with queue := s.queue ++ [.otherEvent] }
  | .lag lost => { s with queue := .lagged :: s.queue.drop lost }
  | .close => { s with closed := true }
  | .tick time => { s with now := s.now + time }
  | .run => s.run deadline requireWake

structure Sound (heads : List (RecipientKey × ScheduledHead)) (s : ReceiptWait) : Prop where
  pending : (∀ answer time, s.phase ≠ .returned answer time) → s.pending =
    heads.filter fun head => s.reads.all fun read => !reached requireWake read head
  read : s.phase = .checking ∨ s.phase = .waiting → s.pending ≠ [] ∧ (s.silent = true ∨
    .messagesChanged ∈ s.queue ∨ .lagged ∈ s.queue ∨ s.projection ∈ s.reads)
  queue : .closed ∉ s.queue
  lastRead : s.phase = .lastRead → s.closed = true ∨ deadline ≤ s.now
  returned : ∀ answer time, s.phase = .returned answer time → s.reads.head? = some answer ∧
    time ≤ s.now ∧ (time < deadline → s.closed = true ∨
      ∀ head ∈ heads, ∃ read ∈ s.reads, reached requireWake read head = true)

/-- The deadline has passed, or every head has been read there or is there now, with no commit
left unannounced. -/
def Due (heads : List (RecipientKey × ScheduledHead)) (s : ReceiptWait) : Prop :=
  deadline ≤ s.now ∨ s.silent = false ∧ ∀ head ∈ heads,
    reached requireWake s.projection head = true ∨
      ∃ read ∈ s.reads, reached requireWake read head = true

def fuel (s : ReceiptWait) : Nat :=
  3 * s.queue.length + s.phase.rank

variable {d : Nat} {r : Bool} {heads : List (RecipientKey × ScheduledHead)}
  {s : ReceiptWait}

theorem stillPending_eq {p : List MessageDisposition}
    {pending : List (RecipientKey × ScheduledHead)} :
    stillPending r p pending = pending.filter fun head => !reached r p head := by
  refine filter_congr fun ⟨k, head⟩ _ => ?_
  cases hf : p.find? fun disposition => disposition.recipient = k <;> simp [reached, hf]

theorem Sound.run (h : Sound d r heads s) : Sound d r heads (s.run d r) := by
  unfold ReceiptWait.run
  split
  · next hp =>
    have hs : stillPending r s.projection s.pending = heads.filter fun head =>
        (s.projection :: s.reads).all fun read => !reached r read head := by
      rw [stillPending_eq, h.pending (by simp [hp]), filter_filter]
      rfl
    dsimp only
    split
    · next he =>
      refine ⟨fun _ => hs, nofun, h.queue, nofun, ?_⟩
      rintro _ _ ⟨⟩
      rw [hs, List.isEmpty_iff, filter_eq_nil_iff] at he
      refine ⟨rfl, le_rfl, fun _ => .inr fun head hh => ?_⟩
      by_contra hn
      exact he head hh (by simpa using hn)
    · next he =>
      refine ⟨fun _ => hs, fun _ => ⟨?_, .inr (.inr (.inr mem_cons_self))⟩, h.queue, nofun, nofun⟩
      exact fun hn => he (isEmpty_iff.mpr hn)
  · next hp =>
    have hs := h.pending (by simp [hp])
    have hr := h.read (.inl hp)
    split
    · next hd => exact ⟨fun _ => hs, nofun, h.queue, fun _ => .inr hd, nofun⟩
    · exact ⟨fun _ => hs, fun _ => hr, h.queue, nofun, nofun⟩
  · next hp =>
    have hs := h.pending (by simp [hp])
    have hr := h.read (.inr hp)
    have hq := h.queue
    split
    · next hc =>
      rw [hc] at hq
      exact ⟨fun _ => hs, nofun, not_mem_of_not_mem_cons hq, nofun, nofun⟩
    · next hc =>
      rw [hc] at hq
      exact ⟨fun _ => hs, nofun, not_mem_of_not_mem_cons hq, nofun, nofun⟩
    · next hc =>
      rw [hc] at hq hr
      refine ⟨fun _ => hs, fun _ => ⟨hr.1, ?_⟩, not_mem_of_not_mem_cons hq, ?_, ?_⟩
      · simpa using hr.2
      · simp [hp]
      · simp [hp]
    · next hc => simp [hc] at hq
    · split
      · next hd => exact ⟨fun _ => hs, nofun, hq, fun _ => hd, nofun⟩
      · exact h
  · next hp =>
    refine ⟨fun hn => absurd rfl (hn _ _), nofun, h.queue, nofun, ?_⟩
    rintro _ _ ⟨⟩
    exact ⟨rfl, le_rfl, fun hlt => .inl ((h.lastRead hp).resolve_right hlt.not_ge)⟩
  · exact h

theorem Sound.step (h : Sound d r heads s) (op : WaitOp) : Sound d r heads (s.step d r op) := by
  cases op with
  | commit p =>
    exact ⟨h.pending, fun hp => ⟨(h.read hp).1, .inl rfl⟩, h.queue, h.lastRead, h.returned⟩
  | changed =>
    refine ⟨h.pending, fun hp => ⟨(h.read hp).1, ?_⟩, ?_, h.lastRead, h.returned⟩
    · simp [ReceiptWait.step]
    · simpa [ReceiptWait.step] using h.queue
  | unrelated =>
    refine ⟨h.pending, fun hp => ⟨(h.read hp).1, ?_⟩, ?_, h.lastRead, h.returned⟩
    · simpa [ReceiptWait.step] using (h.read hp).2
    · simpa [ReceiptWait.step] using h.queue
  | lag n =>
    refine ⟨h.pending, fun hp => ⟨(h.read hp).1, ?_⟩, ?_, h.lastRead, h.returned⟩
    · simp [ReceiptWait.step]
    · simpa [ReceiptWait.step] using fun hm => h.queue (mem_of_mem_drop hm)
  | close =>
    refine ⟨h.pending, h.read, h.queue, fun _ => .inl rfl, fun a t hp => ?_⟩
    exact ⟨(h.returned a t hp).1, (h.returned a t hp).2.1, fun _ => .inl rfl⟩
  | tick n =>
    refine ⟨h.pending, h.read, h.queue, fun hp => ?_, fun a t hp => ?_⟩
    · exact (h.lastRead hp).imp_right (Nat.le_add_right_of_le ·)
    · obtain ⟨ha, ht, hr⟩ := h.returned a t hp
      exact ⟨ha, Nat.le_add_right_of_le ht, hr⟩
  | run => exact h.run

/-! ## The wait returns -/

theorem run_around (s : ReceiptWait) : (s.run d r).now = s.now ∧
    (s.run d r).projection = s.projection ∧
    (s.run d r).silent = s.silent ∧
    ∀ read ∈ s.reads, read ∈ (s.run d r).reads := by
  unfold ReceiptWait.run
  repeat' split
  all_goals exact ⟨rfl, rfl, rfl, fun _ hm => by simp [hm]⟩

theorem Due.run (h : Due d r heads s) : Due d r heads (s.run d r) := by
  obtain ⟨hn, hp, hs, hr⟩ := @run_around d r s
  rw [Due, hn, hp, hs]
  refine h.imp_right fun ⟨hs, hh⟩ => ⟨hs, fun head hm => (hh head hm).imp_right ?_⟩
  rintro ⟨read, hread, hre⟩
  exact ⟨read, hr read hread, hre⟩

theorem Sound.run_fuel (h : Sound d r heads s)
    (hd : Due d r heads s) (hn : ∀ ans time, s.phase ≠ .returned ans time) :
    (s.run d r).fuel < s.fuel := by
  cases hp : s.phase with
  | reading =>
    simp only [ReceiptWait.run, fuel, hp]
    split <;> simp [WaitPhase.rank]
  | checking =>
    simp only [ReceiptWait.run, fuel, hp]
    split <;> simp [WaitPhase.rank]
  | lastRead => simp [ReceiptWait.run, fuel, hp, WaitPhase.rank]
  | returned a t => exact absurd hp (hn a t)
  | waiting =>
    simp only [ReceiptWait.run, hp]
    split
    · next hq => simp [fuel, hp, hq, WaitPhase.rank]; omega
    · next hq => simp [fuel, hp, hq, WaitPhase.rank]; omega
    · next hq => simp [fuel, hp, hq]
    · simp [fuel, hp, WaitPhase.rank]
    · next hq =>
      split
      · simp [fuel, hp, WaitPhase.rank]
      · next hw =>
        -- an idle wait has read the projection, so that a pending head is not there yet
        obtain ⟨hne, hr⟩ := h.read (.inr hp)
        obtain ⟨hs, hh⟩ := hd.resolve_left fun hle => hw (.inr hle)
        have hm : s.projection ∈ s.reads := by simpa [hs, hq] using hr
        obtain ⟨head, hhead⟩ := exists_mem_of_ne_nil _ hne
        rw [h.pending hn, mem_filter, all_eq_true] at hhead
        have hno (read : List MessageDisposition) (hread : read ∈ s.reads) :
            reached r read head ≠ true := by
          simpa using hhead.2 read hread
        rcases hh head hhead.1 with hre | ⟨read, hread, hre⟩
        · exact absurd hre (hno _ hm)
        · exact absurd hre (hno _ hread)

theorem Sound.returns (h : Sound d r heads s) (hd : Due d r heads s) : ∃ n answer time,
    ((ReceiptWait.run d r)^[n] s).phase = .returned answer time ∧ time ≤ s.now := by
  induction hf : s.fuel using Nat.strong_induction_on generalizing s with
  | _ f ih =>
    by_cases hn : ∃ answer time, s.phase = .returned answer time
    · obtain ⟨answer, time, hp⟩ := hn
      exact ⟨0, answer, time, hp, (h.returned _ _ hp).2.1⟩
    · have hlt := h.run_fuel hd fun a t hp => hn ⟨a, t, hp⟩
      obtain ⟨n, answer, time, hp, ht⟩ := ih _ (hf ▸ hlt) h.run hd.run rfl
      exact ⟨n + 1, answer, time, hp, ht.trans_eq (run_around s).1⟩

end ReceiptWait

/-- After any interleaving the wait has returned what it read last, early only for a reason, and
returns without the clock once it has one. -/
theorem receipt_wait_lossless (deadline : Nat) (requireWake : Bool) (messageId : MessageId)
    (outcomes : List (RecipientKey × RecipientScheduleOutcome))
    (projection : List MessageDisposition) (now : Nat) (ops : List WaitOp) :
    let heads := pendingHeads messageId outcomes
    let s := ops.foldl (ReceiptWait.step deadline requireWake) { projection, now, pending := heads }
    (∀ answer time, s.phase = .returned answer time → s.reads.head? = some answer ∧
      (time < deadline → s.closed = true ∨
        ∀ head ∈ heads, ∃ read ∈ s.reads, reached requireWake read head = true)) ∧
    (deadline ≤ s.now ∨ (s.silent = false ∧ ∀ head ∈ heads,
        reached requireWake s.projection head = true ∨
          ∃ read ∈ s.reads, reached requireWake read head = true) →
      ∃ n answer time, ((ReceiptWait.run deadline requireWake)^[n] s).phase =
        .returned answer time ∧ time ≤ s.now) := by
  intro heads s
  have h : ReceiptWait.Sound deadline requireWake heads s :=
    Runs.foldl_invariant (ReceiptWait.Sound deadline requireWake heads) (fun _ op h => h.step op)
      ⟨fun _ => by simp, by simp, not_mem_nil, nofun, nofun⟩
  refine ⟨fun answer time hp => ?_, h.returns⟩
  obtain ⟨ha, -, he⟩ := h.returned answer time hp
  exact ⟨ha, he⟩

/-- The head is blocked and announced while the wait is idle, which then returns it at once. -/
theorem announced_state_returned :
    let k := sampleWorker.key
    let head : ScheduledHead := ⟨sampleMessage, sampleAttempt⟩
    let found (state : NotificationState) : List MessageDisposition :=
      [⟨k, "worker", some sampleAttempt, none, some state, .ofState state, none, none, none, none,
        none⟩]
    let s := [WaitOp.run, .run, .commit (found .blockedPreWrite), .changed].foldl
      (ReceiptWait.step 5 false) { projection := found .queued, now := 0, pending := [(k, head)] }
    let returned := [WaitOp.run, .run].foldl (ReceiptWait.step 5 false) s
    s.phase = .waiting ∧
      (∃ n answer time, ((ReceiptWait.run 5 false)^[n] s).phase = .returned answer time ∧
        time ≤ 0) ∧
      returned.phase = .returned (found .blockedPreWrite) 0 ∧
      returned.reads.head? = some (found .blockedPreWrite) := by
  intro k head found s returned
  let outcomes := [(k, RecipientScheduleOutcome.workerOwned head true)]
  obtain ⟨-, hreturns⟩ := receipt_wait_lossless 5 false sampleMessage outcomes (found .queued) 0
    [WaitOp.run, .run, .commit (found .blockedPreWrite), .changed]
  obtain ⟨hread, -⟩ := receipt_wait_lossless 5 false sampleMessage outcomes (found .queued) 0
    [WaitOp.run, .run, .commit (found .blockedPreWrite), .changed, .run, .run]
  refine ⟨rfl, hreturns (.inr ⟨rfl, ?_⟩), rfl, (hread _ 0 rfl).1⟩
  intro h hm
  cases mem_singleton.mp hm
  exact .inl rfl

/-- The head is blocked and gates again before the wait is scheduled. -/
theorem passing_state_missed :
    let k := sampleWorker.key
    let head : ScheduledHead := ⟨sampleMessage, sampleAttempt⟩
    let found (state : NotificationState) : List MessageDisposition :=
      [⟨k, "worker", some sampleAttempt, none, some state, .ofState state, none, none, none, none,
        none⟩]
    let ops := [WaitOp.commit (found .blockedPreWrite), .changed, .commit (found .gating), .changed]
    let s := (ops ++ replicate 9 WaitOp.run).foldl (ReceiptWait.step 5 false)
      { projection := found .queued, now := 0, pending := [(k, head)] }
    reached false (found .blockedPreWrite) (k, head) = true ∧ s.silent = false ∧ s.now = 0 ∧
      s.phase = .waiting ∧ s.run 5 false = s := by
  exact ⟨rfl, rfl, rfl, rfl, rfl⟩

end Cyclops
