import Cyclops.Lib.Runs
import Cyclops.Proto.Identity

/-!
# The refresh gate

A client shows one whole snapshot of a workspace and is told by edges that it has changed.

Result: `actions_need_current_snapshot`.
-/

namespace Cyclops

open List Nat Option

structure WorkspaceHead where
  workspaceId : WorkspaceId
  workspaceSeq : Nat

structure RefreshRequest where
  generation : UInt64
  request : UInt64
deriving DecidableEq

/-- The connection to the daemon. -/
inductive Link where
  | connecting
  | connected
  | lost
deriving DecidableEq

/-- Connection state and freshness of the whole snapshot. The counters wrap. -/
structure RefreshGate where
  dirty : Bool := false
  inFlight : Option RefreshRequest := none
  link : Link := .connecting
  generation : UInt64 := 0
  nextRequest : UInt64 := 0
  workspaceId : Option WorkspaceId := none
  workspaceSeq : Option Nat := none
  snapshotCurrent : Bool := false

namespace RefreshGate

variable (gate : RefreshGate)

def mayMutate : Bool :=
  gate.link = .connected && gate.snapshotCurrent

def invalidateGeneration : RefreshGate :=
  { gate with generation := gate.generation + 1, snapshotCurrent := false }

def markDirty : RefreshGate :=
  { gate with dirty := true }.invalidateGeneration

def moved (changed : WorkspaceHead) : RefreshGate :=
  { gate with
    workspaceId := some changed.workspaceId
    workspaceSeq := some changed.workspaceSeq
    dirty := true
    snapshotCurrent := false }

/-- A durable messaging fact changed. The answer is whether there is a gap to expose. -/
def messagesChanged (changed : WorkspaceHead) : RefreshGate × Bool :=
  if gate.workspaceId.any (· ≠ changed.workspaceId) then
    (gate.invalidateGeneration.moved changed, true)
  else
    match gate.workspaceSeq with
    | none => (gate.moved changed, false)
    | some workspaceSeq =>
      if changed.workspaceSeq ≤ workspaceSeq then (gate, false)
      else if workspaceSeq + 1 < changed.workspaceSeq then
        (gate.invalidateGeneration.moved changed, true)
      else (gate.moved changed, false)

def connected : RefreshGate :=
  { gate with
    link := .connected
    dirty := true
    inFlight := none
    workspaceId := none
    workspaceSeq := none }.invalidateGeneration

def disconnected : RefreshGate :=
  { gate with link := .lost, inFlight := none }.invalidateGeneration

def reconnecting : RefreshGate × Bool :=
  if gate.link ≠ .lost then (gate, false)
  else ({ gate with link := .connecting, snapshotCurrent := false }, true)

def begin : RefreshGate × Option RefreshRequest :=
  if gate.link ≠ .connected ∨ gate.dirty = false ∨ gate.inFlight.isSome then (gate, none)
  else
    let request := ⟨gate.generation, gate.nextRequest + 1⟩
    ({ gate with
        snapshotCurrent := false
        dirty := false
        nextRequest := gate.nextRequest + 1
        inFlight := some request }, some request)

/-- Accept a snapshot only for the current request and event horizon. -/
def finishSnapshot (request : RefreshRequest) (snapshot : WorkspaceHead) : RefreshGate × Bool :=
  if gate.inFlight ≠ some request then (gate, false)
  else if request.generation ≠ gate.generation ∨
      gate.workspaceId.any (· ≠ snapshot.workspaceId) ∨
      gate.workspaceSeq.any (snapshot.workspaceSeq < ·) then
    ({ gate with inFlight := none, dirty := true }, false)
  else
    ({ gate with
        inFlight := none
        workspaceId := some snapshot.workspaceId
        workspaceSeq := some snapshot.workspaceSeq
        snapshotCurrent := true }, true)

def finishFailed (request : RefreshRequest) (link : Link) : RefreshGate × Bool :=
  if gate.inFlight ≠ some request then (gate, false)
  else if request.generation ≠ gate.generation then ({ gate with inFlight := none }, false)
  else ({ gate with inFlight := none, link, snapshotCurrent := false }, true)

def finishFailure (request : RefreshRequest) : RefreshGate × Bool :=
  gate.finishFailed request .lost

def finishSnapshotFailure (request : RefreshRequest) : RefreshGate × Bool :=
  gate.finishFailed request gate.link

end RefreshGate

/-! ## What happened on a connection -/

/-- The workspace that was named last, and the highest sequence named since. -/
def horizon : List WorkspaceHead → Option (WorkspaceId × Nat)
  | [] => none
  | head :: older => some (head.workspaceId, match horizon older with
    | some (workspaceId, seq) =>
      if workspaceId = head.workspaceId then max seq head.workspaceSeq else head.workspaceSeq
    | none => head.workspaceSeq)

/-- An edge jumps if it names another workspace, or leaves out a sequence after those named. -/
def jumps (heads : List WorkspaceHead) (changed : WorkspaceHead) : Bool :=
  (horizon heads).any fun (workspaceId, seq) =>
    workspaceId ≠ changed.workspaceId || seq + 1 < changed.workspaceSeq

/-- What can happen to a gate; `invalidate` is a change outside the journal. -/
inductive GateOp where
  | connect
  | disconnect
  | reconnect
  | invalidate
  | edge (changed : WorkspaceHead)
  | fetch
  | answer (request : RefreshRequest) (snapshot : WorkspaceHead)
  | fail (request : RefreshRequest)
  | failSnapshot (request : RefreshRequest)

structure GateLog where
  gate : RefreshGate := {}
  /-- The last accepted snapshot and its request. -/
  accepted : Option (RefreshRequest × WorkspaceHead) := none
  /-- The fetches of this connection since the last invalidation or jump. -/
  fresh : List RefreshRequest := []
  /-- The edges and accepted snapshots of this connection, the latest first. -/
  heads : List WorkspaceHead := []
  outstanding : List RefreshRequest := []
  /-- The last fetch failed, and nothing has happened to it before. -/
  failed : Bool := false

namespace GateLog

def failing (s : GateLog) (request : RefreshRequest) (gate : RefreshGate) : GateLog :=
  { s with
    gate
    outstanding := s.outstanding.erase request
    failed := s.failed || (request ∈ s.outstanding && request ∈ s.fresh) }

/-- One event; whether an edge jumps is read off the heads, not off the gate's answer. -/
def step (s : GateLog) : GateOp → GateLog
  | .connect => ⟨s.gate.connected, s.accepted, [], [], [], false⟩
  | .disconnect => ⟨s.gate.disconnected, s.accepted, [], s.heads, [], false⟩
  | .reconnect => { s with gate := s.gate.reconnecting.1 }
  | .invalidate => { s with gate := s.gate.markDirty, fresh := [], failed := false }
  | .edge changed =>
    { s with
      gate := (s.gate.messagesChanged changed).1
      heads := changed :: s.heads
      fresh := if jumps s.heads changed then [] else s.fresh
      failed := s.failed && !jumps s.heads changed }
  | .fetch =>
    match s.gate.begin with
    | (_, none) => s
    | (gate, some request) =>
      { s with
        gate
        fresh := request :: s.fresh
        outstanding := request :: s.outstanding
        failed := false }
  | .answer request snapshot =>
    match s.gate.finishSnapshot request snapshot with
    | (gate, false) => { s with gate, outstanding := s.outstanding.erase request }
    | (gate, true) =>
      { s with
        gate
        accepted := some (request, snapshot)
        heads := snapshot :: s.heads
        outstanding := s.outstanding.erase request }
  | .fail request => s.failing request (s.gate.finishFailure request).1
  | .failSnapshot request => s.failing request (s.gate.finishSnapshotFailure request).1

end GateLog

def RefreshGate.Knows (gate : RefreshGate) (heads : List WorkspaceHead) : Prop :=
  gate.workspaceId = (horizon heads).map Prod.fst ∧ gate.workspaceSeq = (horizon heads).map Prod.snd

/-- The state of a gate after `n` events against what happened on its connection. -/
structure GateLog.Sound (n : Nat) (s : GateLog) : Prop where
  outstanding : s.outstanding = s.gate.inFlight.toList
  /-- A running fetch that has gone stale is followed by another. -/
  running : ∀ r, s.gate.inFlight = some r → s.gate.link = .connected ∧
    (r ∉ s.fresh ∨ r.generation ≠ s.gate.generation → s.gate.dirty = true)
  counted : s.gate.generation.toNat ≤ n
  /-- Until the generations wrap, a running fetch of this one is fresh. -/
  begun : n < 2 ^ 64 → ∀ r, s.gate.inFlight = some r →
    r.generation.toNat ≤ s.gate.generation.toNat ∧
      (r.generation = s.gate.generation → r ∈ s.fresh)
  current : s.gate.snapshotCurrent = true → s.gate.link = .connected ∧
    ∃ r head, s.accepted = some (r, head) ∧ (n < 2 ^ 64 → r ∈ s.fresh) ∧
      s.gate.workspaceId = some head.workspaceId ∧ s.gate.workspaceSeq = some head.workspaceSeq
  known : s.gate.Knows s.heads
  owed : s.gate.link = .connected → s.gate.inFlight = none → s.gate.snapshotCurrent = false →
    s.gate.dirty = true ∨ s.failed = true

section

variable {α : Type} [DecidableEq α] {running : Option α} {l : List α} {r : α}

theorem erase_stale (h : l = running.toList) (hr : running ≠ some r) : l.erase r = l := by
  refine erase_of_not_mem fun hm => hr ?_
  rwa [h, mem_toList] at hm

theorem erase_running (h : l = running.toList) (hr : running = some r) : l.erase r = [] := by
  simp [h, hr]

end

/-! ## Heads and generations -/

theorem le_horizon {heads : List WorkspaceHead} {w : WorkspaceId} {seq : Nat}
    (h : horizon heads = some (w, seq)) :
    ∀ e ∈ heads.takeWhile (·.workspaceId = w), e.workspaceSeq ≤ seq := by
  induction heads generalizing w seq with
  | nil => exact nofun
  | cons head older ih =>
    obtain ⟨rfl, rfl⟩ := Prod.mk.inj (some_inj.mp h)
    rw [takeWhile_cons_of_pos (by simp), forall_mem_cons]
    cases older with
    | nil => exact ⟨le_rfl, nofun⟩
    | cons last rest =>
      obtain ⟨seq', hlast⟩ : ∃ seq', horizon (last :: rest) = some (last.workspaceId, seq') :=
        ⟨_, rfl⟩
      simp only [hlast]
      split
      · next hsame =>
        exact ⟨le_max_right .., fun e he => (ih hlast e (hsame ▸ he)).trans (le_max_left ..)⟩
      · next hother =>
        rw [takeWhile_cons_of_neg (by simpa using hother)]
        exact ⟨le_rfl, nofun⟩

theorem toNat_next_le (g : UInt64) : (g + 1).toNat ≤ g.toNat + 1 :=
  mod_le _ _

theorem lt_next {g : UInt64} {n : Nat} (hg : g.toNat ≤ n) (hn : n + 1 < 2 ^ 64) :
    g.toNat < (g + 1).toNat := by
  rw [UInt64.toNat_add, mod_eq_of_lt]
  · exact lt_succ_self _
  · exact (succ_le_succ hg).trans_lt hn

namespace RefreshGate

variable {gate : RefreshGate} {heads : List WorkspaceHead}

/-- The gate's answer is whether the edge jumps, and a jump starts a new generation. -/
theorem messagesChanged_spec (h : gate.Knows heads) (c : WorkspaceHead) :
    (gate.messagesChanged c).2 = jumps heads c ∧ (gate.messagesChanged c).1.Knows (c :: heads) ∧
      ((gate.messagesChanged c).1 = gate ∧ jumps heads c = false ∨ (gate.messagesChanged c).1 =
        (if jumps heads c then gate.invalidateGeneration else gate).moved c) := by
  obtain ⟨hw, hs⟩ := h
  cases hh : horizon heads with
  | none => simp [messagesChanged, jumps, Knows, horizon, moved, hw, hs, hh]
  | some last =>
    obtain ⟨w, seq⟩ := last
    by_cases hsame : w = c.workspaceId
    · by_cases hold : c.workspaceSeq ≤ seq
      · simp [messagesChanged, jumps, Knows, horizon, hw, hs, hh, hsame, hold]
        omega
      · by_cases hgap : seq + 1 < c.workspaceSeq
        · simp [messagesChanged, jumps, Knows, horizon, moved, hs, hh, hold, hgap]
          omega
        · simp [messagesChanged, jumps, Knows, horizon, moved, hw, hs, hh, hsame, hold, hgap]
          omega
    · simp [messagesChanged, jumps, Knows, horizon, moved, hw, hh, hsame]

end RefreshGate

namespace GateLog

variable {s : GateLog} {r : RefreshRequest} {n : Nat}

variable (h : s.Sound n)
include h

theorem Sound.mono : s.Sound (n + 1) :=
  { h with
    counted := h.counted.trans (le_succ n)
    begun := fun hn => h.begun (lt_of_succ_lt hn)
    current := fun hc => by
      obtain ⟨hl, r, head, ha, hf, hw⟩ := h.current hc
      exact ⟨hl, r, head, ha, fun hn => hf (lt_of_succ_lt hn), hw⟩ }

theorem Sound.counted_next : (s.gate.generation + 1).toNat ≤ n + 1 :=
  (toNat_next_le _).trans (succ_le_succ h.counted)

theorem Sound.begun_next (hn : n + 1 < 2 ^ 64) (hr : s.gate.inFlight = some r)
    {f : List RefreshRequest} : r.generation.toNat ≤ (s.gate.generation + 1).toNat ∧
      (r.generation = s.gate.generation + 1 → r ∈ f) := by
  have hlt := (h.begun (lt_of_succ_lt hn) r hr).1.trans_lt (lt_next h.counted hn)
  exact ⟨hlt.le, fun he => absurd (congrArg UInt64.toNat he) hlt.ne⟩

theorem Sound.edge (c : WorkspaceHead) : (s.step (.edge c)).Sound (n + 1) := by
  obtain ⟨-, hknown, ⟨hsame, hj⟩ | hnew⟩ := RefreshGate.messagesChanged_spec h.known c
  · -- An edge that is behind what the gate knows.
    rw [hsame] at hknown
    simpa [GateLog.step, hsame, hj] using { h.mono with known := hknown }
  · rw [hnew] at hknown
    simp only [GateLog.step, hnew]
    cases hj : jumps s.heads c with
    | true =>
      exact ⟨h.outstanding, fun r hr => ⟨(h.running r hr).1, fun _ => rfl⟩, h.counted_next,
        fun hn r hr => h.begun_next hn hr, nofun, hknown, fun _ _ _ => .inl rfl⟩
    | false =>
      exact ⟨h.outstanding, fun r hr => ⟨(h.running r hr).1, fun _ => rfl⟩, h.mono.counted,
        h.mono.begun, nofun, hknown, fun _ _ _ => .inl rfl⟩

theorem Sound.answer (r : RefreshRequest) (snapshot : WorkspaceHead) :
    (s.step (.answer r snapshot)).Sound n := by
  by_cases hr : s.gate.inFlight = some r
  swap
  · simpa [GateLog.step, RefreshGate.finishSnapshot, hr, erase_stale h.outstanding hr] using h
  have hout := erase_running h.outstanding hr
  obtain ⟨hl, -⟩ := h.running r hr
  by_cases hok : r.generation ≠ s.gate.generation ∨
      s.gate.workspaceId.any (· ≠ snapshot.workspaceId) ∨
      s.gate.workspaceSeq.any (snapshot.workspaceSeq < ·)
  · rw [GateLog.step, RefreshGate.finishSnapshot, if_neg (not_not.mpr hr), if_pos hok]
    exact ⟨hout, nofun, h.counted, fun _ => nofun, h.current, h.known, fun _ _ _ => .inl rfl⟩
  · rw [GateLog.step, RefreshGate.finishSnapshot, if_neg (not_not.mpr hr), if_neg hok]
    simp only [not_or, not_not, Bool.not_eq_true, Option.any_eq_false, decide_eq_false_iff_not,
      not_lt] at hok
    obtain ⟨hg, hw, hs⟩ := hok
    refine ⟨hout, nofun, h.counted, fun _ => nofun,
      fun _ => ⟨hl, r, snapshot, rfl, fun hn => (h.begun hn r hr).2 hg, rfl, rfl⟩, ⟨rfl, ?_⟩, nofun⟩
    -- The snapshot is of the workspace named last, and not behind it.
    cases hh : horizon s.heads with
    | none => simp [horizon, hh]
    | some last =>
      have hs' := hs last.2 (by rw [h.known.2, hh]; rfl)
      simp [horizon, hh, hs']

theorem Sound.failing (r : RefreshRequest) (link : Link) :
    (s.failing r (s.gate.finishFailed r link).1).Sound n := by
  unfold RefreshGate.finishFailed GateLog.failing
  by_cases hr : s.gate.inFlight = some r
  swap
  · have hout : r ∉ s.outstanding := by simpa [h.outstanding] using hr
    simpa [hr, hout, erase_stale h.outstanding hr] using h
  have hout := erase_running h.outstanding hr
  obtain ⟨-, hd⟩ := h.running r hr
  rw [if_neg (not_not.mpr hr)]
  split
  · next hg =>
    exact ⟨hout, nofun, h.counted, fun _ => nofun, h.current, h.known,
      fun _ _ _ => .inl (hd (.inr hg))⟩
  · refine ⟨hout, nofun, h.counted, fun _ => nofun, nofun, h.known, fun _ _ _ => ?_⟩
    by_cases hf : r ∈ s.fresh
    · exact .inr (by simp [h.outstanding, hr, hf])
    · exact .inl (hd (.inl hf))

theorem Sound.step (op : GateOp) : (s.step op).Sound (n + 1) := by
  cases op with
  | connect =>
    exact ⟨rfl, nofun, h.counted_next, fun _ => nofun, nofun, ⟨rfl, rfl⟩, fun _ _ _ => .inl rfl⟩
  | disconnect => exact ⟨rfl, nofun, h.counted_next, fun _ => nofun, nofun, h.known, nofun⟩
  | reconnect =>
    simp only [GateLog.step, RefreshGate.reconnecting]
    split
    · exact h.mono
    · next hl =>
      refine ⟨h.outstanding, fun r hr => ?_, h.mono.counted, h.mono.begun, nofun, h.known, nofun⟩
      exact absurd (h.running r hr).1 (by simp_all)
  | invalidate =>
    exact ⟨h.outstanding, fun r hr => ⟨(h.running r hr).1, fun _ => rfl⟩, h.counted_next,
      fun hn r hr => h.begun_next hn hr, nofun, h.known, fun _ _ _ => .inl rfl⟩
  | edge c => exact h.edge c
  | fetch =>
    by_cases hb : s.gate.link ≠ .connected ∨ s.gate.dirty = false ∨ s.gate.inFlight.isSome
    · rw [GateLog.step, RefreshGate.begin, if_pos hb]
      exact h.mono
    · rw [GateLog.step, RefreshGate.begin, if_neg hb]
      simp only [not_or, not_not, Bool.not_eq_true, isSome_eq_false_iff, isNone_iff_eq_none] at hb
      obtain ⟨hl, -, hn⟩ := hb
      refine ⟨?_, ?_, h.mono.counted, ?_, nofun, h.known, nofun⟩
      · rw [h.outstanding, hn]
        rfl
      · rintro _ ⟨⟩
        exact ⟨hl, fun hstale => absurd hstale (by simp)⟩
      · rintro - _ ⟨⟩
        exact ⟨le_rfl, fun _ => mem_cons_self⟩
  | answer r snapshot => exact (h.answer r snapshot).mono
  | fail r => exact (h.failing r .lost).mono
  | failSnapshot r => exact (h.failing r s.gate.link).mono

theorem Sound.run (ops : List GateOp) : (ops.foldl GateLog.step s).Sound (n + ops.length) := by
  induction ops generalizing s n with
  | nil => exact h
  | cons op ops ih =>
    rw [length_cons, add_comm ops.length, ← add_assoc]
    exact ih (h.step op)

end GateLog

/-- Actions are offered only on the last accepted snapshot, requested on this connection after the
last invalidation and the last jump, and not behind an edge of its workspace; the gate reports
exactly the jumps; one fetch is out at most, and one is owed unless the last one failed. -/
theorem actions_need_current_snapshot (ops : List GateOp) :
    let s := ops.foldl GateLog.step {}
    (s.gate.mayMutate = true → s.gate.link = .connected ∧ ∃ r head, s.accepted = some (r, head) ∧
      (ops.length < 2 ^ 64 → r ∈ s.fresh) ∧
      ∀ e ∈ s.heads.takeWhile (·.workspaceId = head.workspaceId),
        e.workspaceSeq ≤ head.workspaceSeq) ∧
    (∀ changed, (s.gate.messagesChanged changed).2 = jumps s.heads changed) ∧
    s.outstanding.length ≤ 1 ∧
    (s.gate.link = .connected → s.outstanding = [] → s.gate.snapshotCurrent = false →
      s.gate.dirty = true ∨ s.failed = true) := by
  intro s
  have hstart : GateLog.Sound 0 {} :=
    ⟨rfl, nofun, le_rfl, fun _ => nofun, nofun, ⟨rfl, rfl⟩, nofun⟩
  have h : s.Sound ops.length := zero_add ops.length ▸ hstart.run ops
  refine ⟨fun hm => ?_, fun c => (RefreshGate.messagesChanged_spec h.known c).1, ?_,
    fun hl ho => h.owed hl ?_⟩
  · obtain ⟨-, hc⟩ := Bool.and_eq_true_iff.mp hm
    obtain ⟨hl, r, head, ha, hf, hw, hs⟩ := h.current hc
    refine ⟨hl, r, head, ha, hf, le_horizon ?_⟩
    obtain ⟨⟨w, seq⟩, hh, hw'⟩ := map_eq_some_iff.mp (h.known.1.symm.trans hw)
    obtain rfl : seq = head.workspaceSeq := by simpa [h.known.2, hh] using hs
    rw [hh, ← hw']
  · rw [h.outstanding]
    cases s.gate.inFlight <;> simp
  · simpa [h.outstanding] using ho

/-- After a change of the workspace, an edge of the one before may be ahead of the snapshot. -/
theorem edge_of_other_workspace_ahead :
    let a : WorkspaceId := ⟨⟨1, by decide⟩⟩
    let b : WorkspaceId := ⟨⟨2, by decide⟩⟩
    let ops : List GateOp :=
      [.connect, .edge ⟨a, 2⟩, .edge ⟨b, 1⟩, .fetch, .answer ⟨2, 1⟩ ⟨b, 1⟩]
    let s := ops.foldl GateLog.step {}
    s.gate.mayMutate = true ∧ s.accepted = some (⟨2, 1⟩, ⟨b, 1⟩) ∧
      ∃ e, .edge e ∈ ops ∧ 1 < e.workspaceSeq := by
  intro a b
  exact ⟨rfl, rfl, ⟨a, 2⟩, mem_cons_of_mem _ mem_cons_self, by decide⟩

end Cyclops
