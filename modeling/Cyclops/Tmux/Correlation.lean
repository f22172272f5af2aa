import Cyclops.Lib.Runs
import Cyclops.Tmux.Pipe

/-!
# Which reply goes to whom

A caller knows its reply by its place in the queue.

Result: `replies_reach_callers`.
-/

namespace Cyclops.Tmux

open FiniteMap TextLines Runs List Nat AList ReplySlot Command

namespace CommandPipe

/-! ## What an event can do -/

/-- The moves of the pipe. -/
inductive Moves (pipe : CommandPipe) (event : PipeEvent) : CommandPipe → Prop
  | same : Moves pipe event pipe
  | closing (ended : Bool) : Moves pipe event { pipe with closed := true, ended }
  | task {task : Nat} {next : Phase} {permits : Nat}
      (before : ∀ command written, pipe.tasks.lookup task ≠ some (.writing command written))
      (after : next.isWriting = false)
      (unqueued : ∀ command, next ≠ .awaitingReply command)
      (command : ∀ command, pipe.commandOf task = some command → next.command = some command)
      (balance : permits + next.holdsPermit.toNat =
        pipe.permits + ((pipe.tasks.lookup task).any Phase.holdsPermit).toNat)
      (received : ∀ command answer, next = .finished command (.received answer) →
        pipe.sent.lookup task = some answer ∧ (pipe.commandOf task).isSome) :
      Moves pipe event { pipe.moveTo task next with permits }
  | queue {task : Nat} {command : Command}
      (waiting : pipe.tasks.lookup task = some (.awaitingLock command))
      (free : pipe.lock = none) (present : pipe.stdin = true) :
      Moves pipe event { pipe.moveTo task (.writing command 0) with
        lock := some task
        pending := pipe.pending ++ [⟨task, command⟩]
        queued := pipe.queued ++ [⟨task, command⟩] }
  | write {task : Nat} {command : Command} {written bytes : Nat}
      (writing : pipe.tasks.lookup task = some (.writing command written))
      (some_bytes : 0 < bytes) (fits : written + bytes ≤ command.line.length) :
      Moves pipe event ((((command.line.drop written).take bytes).map (task, ·)).foldl receive
          (pipe.moveTo task (.writing command (written + bytes))))
  | poison {task : Nat} {command : Command} {written : Nat}
      (writing : pipe.tasks.lookup task = some (.writing command written)) :
      Moves pipe event (pipe.poisonAfterWriteFailure task command written)
  | unlock {task : Nat} {command : Command} {written : Nat} {next : Phase}
      (writing : pipe.tasks.lookup task = some (.writing command written))
      (complete : pipe.Careful event → command.line.length ≤ written)
      (after : (∃ outcome, next = .finished (some command) outcome ∧
          ∀ answer, outcome ≠ .received answer) ∨
        next = .awaitingReply command ∧ command.target.isCaller = true) :
      Moves pipe event { pipe.moveTo task next with lock := none }
  | reply (unanswered : pipe.answered < pipe.lines.length) : Moves pipe event pipe.takeReply
  | drain (free : pipe.lock = none) : Moves pipe event pipe.drain

section Step

variable {pipe : CommandPipe} {ev : PipeEvent} {task : Nat} {p next : Phase}

theorem commandOf_eq (h : pipe.tasks.lookup task = some p) : pipe.commandOf task = p.command := by
  rw [commandOf, h]
  rfl

theorem Moves.advance {permits : Nat} {k : Option Phase}
    (hp : pipe.tasks.lookup task = k) (hb : k.any Phase.isWriting = false)
    (ha : next.isWriting = false) (hu : ∀ command, next ≠ .awaitingReply command)
    (command : ∀ command, k.bind Phase.command = some command → next.command = some command)
    (hba : permits + next.holdsPermit.toNat = pipe.permits + (k.any Phase.holdsPermit).toNat)
    (hr : ∀ command ans, next ≠ .finished command (.received ans)) :
    Moves pipe ev { pipe.moveTo task next with permits } := by
  subst hp
  refine .task (fun c w h => ?_) ha hu command hba fun c a h => absurd h (hr c a)
  rw [h] at hb
  cases hb

theorem acquirePermit_moves {command : Option Command}
    (hp : pipe.tasks.lookup task = some p) (hb : p.isWriting = false)
    (hco : p.command = command) (hn : p.holdsPermit = false)
    (hne : next.command = command) (hs : next.holdsPermit = true)
    (ha : next = .reserved ∨ ∃ command, next = .awaitingLock command) :
    Moves pipe ev (pipe.acquirePermit task command next) := by
  have hk : next.isWriting = false ∧ (∀ c, next ≠ .awaitingReply c) ∧
      ∀ c a, next ≠ .finished c (.received a) := by
    rcases ha with rfl | ⟨c, rfl⟩ <;> exact ⟨rfl, nofun, nofun⟩
  unfold acquirePermit
  split
  · exact .advance hp hb rfl nofun (fun c hc => hco ▸ hc) (by rw [Option.any_some, hn]; rfl) nofun
  · split
    · exact .same
    · next hpe =>
      refine .advance hp hb hk.1 hk.2.1 (fun c hc => ?_) ?_ hk.2.2
      · exact hne.trans (hco.symm.trans hc)
      · rw [hs, Option.any_some, hn]
        change pipe.permits - 1 + 1 = pipe.permits
        omega

theorem dropTask_moves (hp : pipe.tasks.lookup task = some p) :
    Moves pipe (.drop task) (pipe.dropTask task p) := by
  cases p with
  | finished => exact .same
  | reserving | reserved => exact .advance hp rfl rfl nofun nofun rfl nofun
  | awaitingPermit | awaitingReply | awaitingLock =>
    exact .advance hp rfl rfl nofun (fun _ h => h) rfl nofun
  | writing command written =>
    exact .unlock hp (fun hc => hc command written hp) (.inl ⟨_, rfl, nofun⟩)

theorem step_moves (pipe : CommandPipe) (ev : PipeEvent) : Moves pipe ev (pipe.step ev) := by
  cases ev with simp only [step]
  | submit task t =>
    split
    · exact .same
    · next hn =>
      split
      · exact .advance hn rfl rfl nofun nofun rfl nofun
      · next command hco =>
        cases t with
        | caller =>
          dsimp only
          split
          · exact .advance hn rfl rfl nofun nofun rfl nofun
          · split
            · exact .advance hn rfl rfl nofun nofun rfl nofun
            · next hpe =>
              refine .advance hn rfl rfl nofun nofun ?_ nofun
              change pipe.permits - 1 + 1 = pipe.permits
              omega
        | resume => exact .advance hn rfl rfl nofun nofun rfl nofun
  | reserve =>
    split
    · exact .same
    · next hn => exact .advance hn rfl rfl nofun nofun rfl nofun
  | acquire =>
    split
    · next hp => exact acquirePermit_moves hp rfl rfl rfl rfl rfl (.inl rfl)
    · next hp => exact acquirePermit_moves hp rfl rfl rfl rfl rfl (.inr ⟨_, rfl⟩)
    · exact .same
  | spend =>
    split
    · next hp =>
      split <;> exact .advance hp rfl rfl nofun nofun rfl nofun
    · exact .same
  | takeLock =>
    split
    · next hp hl =>
      unfold lockStdin
      split
      · next hs => exact .queue hp hl hs
      · exact .advance hp rfl rfl nofun (fun _ h => h) rfl nofun
    · exact .same
  | write =>
    split
    · next hp =>
      split
      · next hf =>
        unfold writeBytes
        split
        · exact .poison hp
        · next hb => exact .write hp (Nat.pos_of_ne_zero hb) hf.2
      · exact .same
    · exact .same
  | writeFails =>
    split
    · next hp => exact .poison hp
    · exact .same
  | flush =>
    split
    · next command written hp =>
      split
      · next hw =>
        refine .unlock hp (fun _ => hw) ?_
        split
        · next ht => exact .inr ⟨rfl, by rw [ht]; rfl⟩
        · exact .inl ⟨_, rfl, nofun⟩
      · exact .same
    · exact .same
  | drop =>
    split
    · next hp => exact dropTask_moves hp
    · exact .same
  | timeout =>
    split
    · next hp => exact .advance hp rfl rfl nofun (fun _ h => h) rfl nofun
    · exact .same
  | poll task =>
    split
    · next command answer hp hse =>
      have hco : pipe.commandOf task = some command := commandOf_eq hp
      refine .task ?_ rfl nofun (fun c hc => hco.symm.trans hc) ?_ ?_
      · intro c w h
        cases hp.symm.trans h
      · rw [hp]
        rfl
      · intro c a h
        cases h
        exact ⟨hse, by rw [hco]; rfl⟩
    · exact .same
  | answer =>
    split
    · next h => exact .reply h.1
    · exact .same
  | beginClose => exact .closing _
  | finishClose =>
    split
    · next h => exact .drain h.2
    · exact .same

end Step

/-! ## Slots and permits -/

def permitsInHand (pipe : CommandPipe) : Nat :=
  pipe.tasks.entries.countP fun entry => entry.2.holdsPermit

structure Sound (pipe : CommandPipe) : Prop where
  permits : pipe.permits + pipe.permitsInHand + pipe.pending.length = pendingReplyCapacity
  holder : ∀ task, pipe.lock = some task →
    ∃ command written, pipe.tasks.lookup task = some (.writing command written)
  writer : ∀ task command written, pipe.tasks.lookup task = some (.writing command written) →
    pipe.lock = some task ∧ written ≤ command.line.length ∧ ⟨task, command⟩ ∈ pipe.queued
  waiter : ∀ task command, pipe.tasks.lookup task = some (.awaitingReply command) →
    ⟨task, command⟩ ∈ pipe.queued ∧ command.target.isCaller = true
  closed_empty : pipe.stdin = false → pipe.pending = []
  settled : ∀ slot ∈ pipe.queued, slot.command.target.isCaller = true →
    slot ∈ pipe.pending ∨ ∃ answer, pipe.sent.lookup slot.task = some answer
  answered_le : pipe.answered ≤ pipe.lines.length

section Facts

variable {pipe : CommandPipe} {task o : Nat} {p next : Phase}

theorem lookup_moveTo_ne (h : o ≠ task) :
    (pipe.moveTo task next).tasks.lookup o = pipe.tasks.lookup o :=
  lookup_insert_ne h

theorem lookup_of_moveTo (h : (pipe.moveTo task next).tasks.lookup o = some p) :
    o = task ∧ p = next ∨ o ≠ task ∧ pipe.tasks.lookup o = some p := by
  by_cases heq : o = task
  · subst heq
    rw [moveTo, lookup_insert] at h
    cases h
    exact .inl ⟨rfl, rfl⟩
  · rw [lookup_moveTo_ne heq] at h
    exact .inr ⟨heq, h⟩

theorem permitsInHand_moveTo : (pipe.moveTo task next).permitsInHand +
      ((pipe.tasks.lookup task).any Phase.holdsPermit).toNat =
      pipe.permitsInHand + next.holdsPermit.toNat :=
  countP_insert_add pipe.tasks task next fun e => e.2.holdsPermit

theorem foldl_receive (bytes : List (Nat × UInt8)) (pipe : CommandPipe) :
    ∃ buffer lines, bytes.foldl receive pipe = { pipe with buffer, lines } ∧
      pipe.lines <+: lines := by
  induction bytes generalizing pipe with
  | nil => exact ⟨_, _, rfl, prefix_rfl⟩
  | cons byte bytes ih =>
    obtain ⟨buffer, lines, hr, hl⟩ := ih (pipe.receive byte)
    rw [foldl_cons, hr]
    unfold receive at hl ⊢
    split at hl
    · next h =>
      rw [if_pos h]
      exact ⟨buffer, lines, rfl, (prefix_append _ _).trans hl⟩
    · next h =>
      rw [if_neg h]
      exact ⟨buffer, lines, rfl, hl⟩

variable {ss : List ReplySlot} {sent : Map Nat Answer}

theorem lookup_disconnect : (ss.foldl disconnect sent).lookup task =
      if ∃ slot ∈ ss, slot.command.target.isCaller = true ∧ slot.task = task then
        some .disconnected
      else sent.lookup task := by
  induction ss generalizing sent with
  | nil => simp
  | cons slot ss ih =>
    rw [foldl_cons, ih, disconnect]
    by_cases hr : ∃ slot ∈ ss, slot.command.target.isCaller = true ∧ slot.task = task
    · simp [hr]
    · by_cases hc : slot.command.target.isCaller = true <;>
        simp [hr, hc, @eq_comm _ task]

end Facts

variable {pipe : CommandPipe} {task : Nat} {command : Command}

section

variable (h : pipe.Sound)

include h

theorem Sound.moveTo {next : CommandPipe} {p : Phase} (ht : next.tasks = (pipe.moveTo task p).tasks)
    (hpe : next.permits + p.holdsPermit.toNat + next.pending.length = pipe.permits +
      ((pipe.tasks.lookup task).any Phase.holdsPermit).toNat + pipe.pending.length)
    (hl : ∀ o ≠ task, next.lock = some o ↔ pipe.lock = some o)
    (hh : next.lock = some task → ∃ command written, p = .writing command written)
    (hwr : ∀ command written, p = .writing command written →
      next.lock = some task ∧ written ≤ command.line.length ∧ ⟨task, command⟩ ∈ next.queued)
    (hw : ∀ command, p = .awaitingReply command →
      ⟨task, command⟩ ∈ next.queued ∧ command.target.isCaller = true)
    (hq : ∀ slot ∈ pipe.queued, slot ∈ next.queued)
    (closed_empty : next.stdin = false → next.pending = [])
    (settled : ∀ slot ∈ next.queued, slot.command.target.isCaller = true →
      slot ∈ next.pending ∨ ∃ ans, next.sent.lookup slot.task = some ans)
    (ha : next.answered ≤ next.lines.length) : next.Sound := by
  refine ⟨?_, fun o ho => ?_, fun o command written ho => ?_,
    fun o command ho => ?_, closed_empty, settled, ha⟩
  · have hc := @permitsInHand_moveTo pipe task p
    have hb := h.permits
    rw [permitsInHand, ht]
    change _ + (pipe.moveTo task p).permitsInHand + _ = _
    omega
  · rw [ht]
    by_cases heq : o = task
    · obtain ⟨command, written, rfl⟩ := hh (heq ▸ ho)
      exact ⟨command, written, heq ▸ lookup_insert _⟩
    · rw [lookup_moveTo_ne heq]
      exact h.holder o ((hl o heq).mp ho)
  · rw [ht] at ho
    rcases lookup_of_moveTo ho with ⟨rfl, hp⟩ | ⟨hne, ho⟩
    · exact hwr command written hp.symm
    · obtain ⟨hm, hle, hs⟩ := h.writer o command written ho
      exact ⟨(hl o hne).mpr hm, hle, hq _ hs⟩
  · rw [ht] at ho
    rcases lookup_of_moveTo ho with ⟨rfl, hp⟩ | ⟨-, ho⟩
    · exact hw command hp.symm
    · exact (h.waiter o command ho).imp_left (hq _)

theorem Sound.moves_task {next : Phase} {permits : Nat}
    (hbe : ∀ command written, pipe.tasks.lookup task ≠ some (.writing command written))
    (ha : next.isWriting = false) (hu : ∀ command, next ≠ .awaitingReply command)
    (hb : permits + next.holdsPermit.toNat = pipe.permits + ((pipe.tasks.lookup task).any
      Phase.holdsPermit).toNat) :
    Sound { pipe.moveTo task next with permits } := by
  refine h.moveTo rfl (congrArg (· + pipe.pending.length) hb) (fun _ _ => .rfl) (fun hh => ?_)
    ?_ (fun command heq => absurd heq (hu command)) (fun _ hs => hs) h.closed_empty
    h.settled h.answered_le
  · obtain ⟨command, written, hw⟩ := h.holder task hh
    exact absurd hw (hbe command written)
  · rintro command written rfl
    cases ha

theorem Sound.moves_queue (hw : pipe.tasks.lookup task = some (.awaitingLock command))
    (hf : pipe.lock = none) (hp : pipe.stdin = true) :
    Sound { pipe.moveTo task (.writing command 0) with
      lock := some task
      pending := pipe.pending ++ [⟨task, command⟩]
      queued := pipe.queued ++ [⟨task, command⟩] } := by
  refine h.moveTo rfl ?_ (fun o hne => ?_) (fun _ => ⟨_, _, rfl⟩) ?_ nofun
    (fun _ => mem_append_left _) (fun hst => nomatch hp.symm.trans hst) ?_ h.answered_le
  · rw [hw, length_append]
    change pipe.permits + 0 + (_ + 1) = pipe.permits + 1 + _
    omega
  · simp [hf, Ne.symm hne]
  · rintro cmd' written ⟨⟩
    exact ⟨rfl, zero_le _, mem_append_right _ (mem_singleton.mpr rfl)⟩
  · intro slot hs hc
    rcases mem_append.mp hs with hs | hs
    · exact (h.settled slot hs hc).imp_left (mem_append_left _)
    · exact .inl (mem_append_right _ hs)

theorem Sound.moves_write {written bytes : Nat}
    (writing : pipe.tasks.lookup task = some (.writing command written))
    (fits : written + bytes ≤ command.line.length) {buffer : List (Nat × UInt8)}
    {lines : List (List (Nat × UInt8))} (hl : pipe.lines <+: lines) :
    Sound { pipe.moveTo task (.writing command (written + bytes)) with buffer, lines } := by
  obtain ⟨hlo, -, hq⟩ := h.writer _ _ _ writing
  refine h.moveTo rfl (by rw [writing]; rfl) (fun _ _ => .rfl) (fun _ => ⟨_, _, rfl⟩) ?_ nofun
    (fun _ hs => hs) h.closed_empty h.settled (h.answered_le.trans hl.length_le)
  rintro command' written' ⟨⟩
  exact ⟨hlo, fits, hq⟩

theorem Sound.moves_unlock {written : Nat} {next : Phase}
    (hw : pipe.tasks.lookup task = some (.writing command written))
    (ha : (∃ oc, next = .finished (some command) oc) ∨ next = .awaitingReply command ∧
      command.target.isCaller = true) :
    Sound { pipe.moveTo task next with lock := none } := by
  obtain ⟨hl, -, hq⟩ := h.writer _ _ _ hw
  refine h.moveTo rfl ?_ (fun o hne => ?_) nofun ?_ ?_ (fun _ hs => hs) h.closed_empty
    h.settled h.answered_le
  · rw [hw]
    rcases ha with ⟨_, rfl⟩ | ⟨rfl, -⟩ <;> rfl
  · simp [hl, Ne.symm hne]
  · rintro cmd' w' rfl
    rcases ha with ⟨_, hp⟩ | ⟨hp, -⟩ <;> cases hp
  · rintro cmd' rfl
    rcases ha with ⟨_, hp⟩ | ⟨hp, hc⟩ <;> cases hp
    exact ⟨hq, hc⟩

theorem Sound.moves_drain : pipe.drain.Sound where
  __ := h
  permits := by
    have hp := h.permits
    change pipe.permits + pipe.pending.length + pipe.permitsInHand + 0 = _
    omega
  closed_empty := fun _ => rfl
  settled := by
    intro slot hs hc
    refine .inr ?_
    change ∃ ans, (pipe.pending.foldl disconnect pipe.sent).lookup slot.task = some ans
    rw [lookup_disconnect]
    split
    · exact ⟨_, rfl⟩
    · next hg =>
      exact (h.settled slot hs hc).resolve_left fun hm => hg ⟨slot, hm, hc, rfl⟩

theorem Sound.moves_reply (hu : pipe.answered < pipe.lines.length) : pipe.takeReply.Sound := by
  have hpe := h.permits
  unfold takeReply
  split
  · exact { h with answered_le := hu }
  · next slot rest hp =>
    rw [hp, length_cons] at hpe
    refine ⟨?_, h.holder, h.writer, h.waiter, ?_, ?_, hu⟩
    · change pipe.permits + 1 + pipe.permitsInHand + rest.length = _
      omega
    · intro hs
      have he := h.closed_empty hs
      rw [hp] at he
      cases he
    · intro o ho hc
      change o ∈ rest ∨
        ∃ ans, (pipe.sent.insert slot.task (.reply pipe.answered)).lookup o.task = some ans
      rw [lookup_insert_ite]
      rcases h.settled o ho hc with hm | hse
      · rw [hp] at hm
        rcases mem_cons.mp hm with rfl | hm
        · exact .inr ⟨_, if_pos rfl⟩
        · exact .inl hm
      · refine .inr ?_
        split
        · exact ⟨_, rfl⟩
        · exact hse

theorem Sound.step (event : PipeEvent) : (pipe.step event).Sound := by
  have hm := step_moves pipe event
  generalize pipe.step event = next at hm ⊢
  cases hm with
  | same => exact h
  | closing =>
    exact { h with }
  | task before after unqueued _ balance => exact h.moves_task before after unqueued balance
  | queue waiting free present => exact h.moves_queue waiting free present
  | write writing _ fits =>
    obtain ⟨buffer, lines, heq, hl⟩ := foldl_receive _ _
    rw [heq]
    exact h.moves_write writing fits hl
  | @poison task command written writing =>
    have hdr := @Sound.moves_unlock pipe.drain task command h.moves_drain written
      (.finished (some command) (.failed (if written = 0 then .io else .writeUncertain))) writing
      (.inl ⟨_, rfl⟩)
    exact { hdr with }
  | unlock writing _ after =>
    exact h.moves_unlock writing (after.imp (fun ⟨_, hn, _⟩ => ⟨_, hn⟩) id)
  | reply unanswered => exact h.moves_reply unanswered
  | drain => exact h.moves_drain

end

/-! ## Slots and lines -/

/-- The slot whose line is being written, with the bytes that are written, while the line is
not complete. -/
def current (pipe : CommandPipe) : Option (ReplySlot × Nat) :=
  match pipe.lock with
  | none => none
  | some task =>
    match pipe.tasks.lookup task with
    | some (.writing command written) =>
      if written < command.line.length then some (⟨task, command⟩, written) else none
    | _ => none

/-- The reply at this place answers the task's own command. -/
def OwnReply (pipe : CommandPipe) (task line : Nat) : Prop :=
  ∃ command, pipe.commandOf task = some command ∧
    pipe.lines[line]? = some (command.line.map (task, ·))

structure Matched (pipe : CommandPipe) : Prop where
  lines : pipe.pending.map ReplySlot.wire =
    pipe.lines.drop pipe.answered ++ (pipe.current.map fun slot => slot.1.wire).toList
  buffer : pipe.buffer = (pipe.current.map fun slot => slot.1.wire.take slot.2).getD []

structure Correlated (pipe : CommandPipe) : Prop where
  commands : ∀ slot ∈ pipe.pending, pipe.commandOf slot.task = some slot.command
  matched : pipe.stdin = true → pipe.Matched
  sent : ∀ task line, pipe.sent.lookup task = some (.reply line) → pipe.OwnReply task line
  received : ∀ task command line,
    pipe.tasks.lookup task = some (.finished command (.received (.reply line))) →
    pipe.OwnReply task line

section Matching

variable {pipe next : CommandPipe} {task : Nat} {cmd : Command} {w : Nat}

theorem current_of_free (h : pipe.lock = none) : pipe.current = none := by
  rw [current, h]

theorem current_of_writing (hl : pipe.lock = some task)
    (hw : pipe.tasks.lookup task = some (.writing cmd w)) :
    pipe.current =
      if w < cmd.line.length then some (⟨task, cmd⟩, w) else none := by
  rw [current, hl]
  simp only [hw]

theorem current_congr (hl : next.lock = pipe.lock)
    (ht : ∀ task, pipe.lock = some task → next.tasks.lookup task = pipe.tasks.lookup task) :
    next.current = pipe.current := by
  unfold current
  rw [hl]
  cases h : pipe.lock with
  | none => rfl
  | some task => simp only [ht task h]

variable {p : Phase}

theorem commandOf_moveTo : (pipe.moveTo task p).commandOf task = p.command := by
  rw [commandOf, moveTo, lookup_insert]
  rfl

theorem commandOf_moveTo_mono
    (h : ∀ cmd, pipe.commandOf task = some cmd → p.command = some cmd) {o : Nat}
    (hc : pipe.commandOf o = some cmd) :
    (pipe.moveTo task p).commandOf o = some cmd := by
  by_cases heq : o = task
  · subst heq
    rw [commandOf_moveTo]
    exact h cmd hc
  · rw [commandOf, lookup_moveTo_ne heq]
    exact hc

theorem OwnReply.mono {line : Nat} (h : pipe.OwnReply task line)
    (hc : ∀ cmd, pipe.commandOf task = some cmd →
      next.commandOf task = some cmd)
    (hli : pipe.lines <+: next.lines) : next.OwnReply task line := by
  obtain ⟨cmd, hco, hl⟩ := h
  obtain ⟨more, hm⟩ := hli
  refine ⟨cmd, hc cmd hco, ?_⟩
  rw [← hm, getElem?_append_left (List.getElem?_eq_some_iff.mp hl).1]
  exact hl

theorem foldl_receive_part {bs : List (Nat × UInt8)} (pipe : CommandPipe)
    (h : ∀ byte ∈ bs, byte.2 ≠ newline) :
    bs.foldl receive pipe = { pipe with buffer := pipe.buffer ++ bs } := by
  induction bs generalizing pipe with
  | nil => rw [append_nil]; rfl
  | cons byte bs ih =>
    obtain ⟨hby, hb⟩ := forall_mem_cons.mp h
    rw [foldl_cons, ih _ hb, receive, if_neg hby, append_assoc]
    rfl

theorem Command.newline_notMem_take {n : Nat} (h : n < cmd.line.length) :
    newline ∉ cmd.line.take n := by
  rw [line, length_append, length_singleton] at h
  rw [line, take_append_of_le_length (by omega)]
  exact fun hm => cmd.one_line.1 (mem_of_mem_take hm)

theorem receive_some {bs : Nat} (hbu : pipe.buffer = (wire ⟨task, cmd⟩).take w)
    (hf : w + bs < cmd.line.length) :
    (((cmd.line.drop w).take bs).map (task, ·)).foldl receive pipe =
      { pipe with buffer := (wire ⟨task, cmd⟩).take (w + bs) } := by
  rw [foldl_receive_part, hbu, wire, take_add, map_take, map_drop]
  · intro byte hby heq
    obtain ⟨b, hb, rfl⟩ := mem_map.mp hby
    refine Command.newline_notMem_take hf ?_
    rw [take_add, mem_append]
    exact .inr ((show b = newline from heq) ▸ hb)

theorem receive_rest {bs : Nat} (hbu : pipe.buffer = (wire ⟨task, cmd⟩).take w)
    (hwr : w < cmd.line.length) (hf : w + bs = cmd.line.length) :
    (((cmd.line.drop w).take bs).map (task, ·)).foldl receive pipe =
      { pipe with buffer := [], lines := pipe.lines ++ [wire ⟨task, cmd⟩] } := by
  have hl : cmd.line.length = cmd.text.length + 1 := by
    rw [line, length_append, length_singleton]
  have hr : (cmd.line.drop w).take bs = cmd.text.drop w ++ [newline] := by
    rw [take_of_length_le (by rw [length_drop]; omega), line, drop_append_of_le_length (by omega)]
  have hw : (wire ⟨task, cmd⟩).take w ++ ((cmd.text.drop w).map (task, ·) ++ [(task, newline)]) =
      wire ⟨task, cmd⟩ := by
    have hle : w ≤ cmd.text.length := by omega
    rw [wire, ← map_take, line, take_append_of_le_length hle,
      ← append_assoc, ← map_append, take_append_drop, map_append]
    rfl
  rw [hr, map_append]
  change foldl receive pipe (_ ++ [(task, newline)]) = _
  rw [foldl_append, foldl_receive_part pipe, foldl_cons, foldl_nil, receive, if_pos rfl,
    append_assoc, hbu, hw]
  intro byte hby heq
  obtain ⟨b, hb, rfl⟩ := mem_map.mp hby
  exact cmd.one_line.1 ((show b = newline from heq) ▸ mem_of_mem_drop hb)

end Matching

section Correlation

variable {pipe : CommandPipe} {task : Nat} {cmd : Command} {written : Nat}

section

variable (h : pipe.Correlated)

include h

theorem Correlated.moveTo {next : CommandPipe} {p : Phase}
    (ht : next.tasks = (pipe.moveTo task p).tasks) (hse : next.sent = pipe.sent)
    (hco : ∀ cmd, pipe.commandOf task = some cmd → p.command = some cmd)
    (hph : ∀ cmd line, p = .finished cmd (.received (.reply line)) → pipe.OwnReply task line)
    (hl : pipe.lines <+: next.lines)
    (hp : ∀ slot ∈ next.pending, slot ∈ pipe.pending ∨ slot.task = task ∧
      p.command = some slot.command)
    (hma : next.stdin = true → next.Matched) : next.Correlated := by
  have hm : ∀ {o cmd}, pipe.commandOf o = some cmd →
      next.commandOf o = some cmd := by
    intro o cmd hc
    rw [commandOf, ht]
    exact commandOf_moveTo_mono hco hc
  refine ⟨fun slot hs => ?_, hma, fun o line ho => (h.sent o line (hse ▸ ho)).mono (fun _ => hm) hl,
    fun o cmd line ho => ?_⟩
  · rcases hp slot hs with hs | ⟨heq, hne⟩
    · exact hm (h.commands slot hs)
    · rw [commandOf, ht, heq]
      exact commandOf_moveTo.trans hne
  · rw [ht] at ho
    rcases lookup_of_moveTo ho with ⟨rfl, hn⟩ | ⟨-, ho⟩
    · exact (hph cmd line hn.symm).mono (fun _ => hm) hl
    · exact (h.received o cmd line ho).mono (fun _ => hm) hl

theorem Correlated.moves_task (hso : pipe.Sound) {next : Phase} {permits : Nat}
    (hb : ∀ cmd written, pipe.tasks.lookup task ≠ some (.writing cmd written))
    (hco : ∀ cmd, pipe.commandOf task = some cmd → next.command = some cmd)
    (hr : ∀ cmd ans, next = .finished cmd (.received ans) → pipe.sent.lookup task = some ans) :
    Correlated { pipe.moveTo task next with permits } := by
  refine h.moveTo rfl rfl hco (fun cmd line hn => h.sent task line (hr cmd _ hn)) prefix_rfl
    (fun _ => .inl) fun hs => ?_
  have hc : current { pipe.moveTo task next with permits } = pipe.current := by
    refine current_congr rfl fun o ho => lookup_moveTo_ne ?_
    rintro rfl
    obtain ⟨cmd, written, hw⟩ := hso.holder o ho
    exact hb cmd written hw
  constructor
  · rw [hc]
    exact (h.matched hs).lines
  · rw [hc]
    exact (h.matched hs).buffer

theorem Correlated.moves_queue (hw : pipe.tasks.lookup task = some (.awaitingLock cmd))
    (hf : pipe.lock = none) :
    Correlated { pipe.moveTo task (.writing cmd 0) with
      lock := some task
      pending := pipe.pending ++ [⟨task, cmd⟩]
      queued := pipe.queued ++ [⟨task, cmd⟩] } := by
  refine h.moveTo rfl rfl (fun _ => (commandOf_eq hw).symm.trans) nofun prefix_rfl ?_ ?_
  · intro slot hs
    rcases mem_append.mp hs with hs | hs
    · exact .inl hs
    · cases mem_singleton.mp hs
      exact .inr ⟨rfl, rfl⟩
  · intro hst
    have hm := h.matched hst
    have hb := current_of_free hf
    have hn : 0 < cmd.line.length := by
      rw [line, length_append]
      exact succ_pos _
    have ha := @current_of_writing { pipe.moveTo task (.writing cmd 0) with
      lock := some task
      pending := pipe.pending ++ [⟨task, cmd⟩]
      queued := pipe.queued ++ [⟨task, cmd⟩] } task cmd 0 rfl (lookup_insert _)
    rw [if_pos hn] at ha
    constructor
    · rw [ha, map_append, hm.lines, hb]
      exact congrArg (· ++ [wire ⟨task, cmd⟩]) (append_nil _)
    · rw [ha]
      exact hm.buffer.trans (by rw [hb]; rfl)

theorem Correlated.moves_write (hs : pipe.Sound) {bytes : Nat}
    (writing : pipe.tasks.lookup task = some (.writing cmd written)) (some_bytes : 0 < bytes)
    (fits : written + bytes ≤ cmd.line.length) :
    Correlated ((((cmd.line.drop written).take bytes).map (task, ·)).foldl receive
      (pipe.moveTo task (.writing cmd (written + bytes)))) := by
  obtain ⟨hl, -, -⟩ := hs.writer task cmd written writing
  obtain ⟨buffer, lines, heq, hli⟩ := foldl_receive
    (((cmd.line.drop written).take bytes).map (task, ·))
    (pipe.moveTo task (.writing cmd (written + bytes)))
  rw [heq]
  refine h.moveTo rfl rfl (fun _ => (commandOf_eq writing).symm.trans) nofun hli (fun _ => .inl)
    fun hst => ?_
  have hm := h.matched hst
  have hb := current_of_writing hl writing
  rw [if_pos (by omega)] at hb
  have hbu : pipe.buffer = (wire ⟨task, cmd⟩).take written := by
    rw [hm.buffer, hb]
    rfl
  have hp : pipe.pending.map wire = pipe.lines.drop pipe.answered ++ [wire ⟨task, cmd⟩] := by
    rw [hm.lines, hb]
    rfl
  have ha := @current_of_writing
    { pipe.moveTo task (.writing cmd (written + bytes)) with buffer, lines } task cmd
    (written + bytes) hl (lookup_insert _)
  rcases lt_or_eq_of_le fits with hpa | hw
  · rw [@receive_some (pipe.moveTo task (.writing cmd (written + bytes))) _ _ _ _ hbu hpa] at heq
    cases congrArg CommandPipe.buffer heq
    cases congrArg CommandPipe.lines heq
    rw [if_pos hpa] at ha
    constructor
    · rw [ha]
      exact hp
    · rw [ha]
      rfl
  · rw [@receive_rest (pipe.moveTo task (.writing cmd (written + bytes))) _ _ _ _ hbu
      (by omega) hw] at heq
    cases congrArg CommandPipe.buffer heq
    cases congrArg CommandPipe.lines heq
    rw [if_neg (by omega)] at ha
    constructor
    · rw [ha]
      change pipe.pending.map wire = (pipe.lines ++ [wire ⟨task, cmd⟩]).drop pipe.answered ++ []
      rw [drop_append_of_le_length hs.answered_le, append_nil, hp]
    · rw [ha]
      rfl

theorem Correlated.moves_drain : pipe.drain.Correlated where
  commands := nofun
  matched := nofun
  sent := by
    intro o line ho
    change (pipe.pending.foldl disconnect pipe.sent).lookup o = _ at ho
    rw [lookup_disconnect] at ho
    split at ho
    · cases ho
    · exact (h.sent o line ho).mono (fun _ hc => hc) prefix_rfl
  received := fun o cmd line ho =>
    (h.received o cmd line ho).mono (fun _ hc => hc) prefix_rfl

theorem Correlated.moves_unlock (hso : pipe.Sound) {next : Phase}
    (hwr : pipe.tasks.lookup task = some (.writing cmd written))
    (hc : pipe.stdin = true → cmd.line.length ≤ written)
    (hn : next.command = some cmd)
    (hr : ∀ cmd ans, next ≠ .finished cmd (.received ans)) :
    Correlated { pipe.moveTo task next with lock := none } := by
  refine h.moveTo rfl rfl (fun _ => (hn.trans (commandOf_eq hwr).symm).trans)
    (fun c line heq => absurd heq (hr c _)) prefix_rfl (fun _ => .inl) fun hs => ?_
  have hm := h.matched hs
  have hw := hc hs
  have hb := current_of_writing (hso.writer task cmd written hwr).1 hwr
  rw [if_neg (by omega)] at hb
  have ha := @current_of_free { pipe.moveTo task next with lock := none } rfl
  constructor
  · rw [ha]
    exact hm.lines.trans (by rw [hb]; rfl)
  · rw [ha]
    exact hm.buffer.trans (by rw [hb])

theorem Correlated.moves_reply (hso : pipe.Sound)
    (hu : pipe.answered < pipe.lines.length) : pipe.takeReply.Correlated := by
  have hdr := drop_eq_getElem_cons hu
  unfold takeReply
  split
  · next hp =>
    refine ⟨by rw [hp]; exact nofun, ?_, h.sent, h.received⟩
    intro hs
    have hl := (h.matched hs).lines
    rw [hp, hdr] at hl
    cases hl
  · next slot rest hp =>
    have hs : pipe.stdin = true := by
      by_contra hc
      have he := hso.closed_empty (Bool.eq_false_iff.mpr hc)
      rw [hp] at he
      cases he
    have hm := h.matched hs
    have hl := hm.lines
    rw [hp, hdr, map_cons, cons_append, cons.injEq] at hl
    refine ⟨?_, fun _ => ⟨hl.2, hm.buffer⟩, ?_, h.received⟩
    · intro o ho
      exact h.commands o (hp ▸ mem_cons_of_mem _ ho)
    · intro o line ho
      change (pipe.sent.insert slot.task (.reply pipe.answered)).lookup o = _ at ho
      rw [lookup_insert_ite] at ho
      split at ho
      · next heq =>
        cases ho
        subst heq
        refine ⟨slot.command, h.commands slot (hp ▸ mem_cons_self), ?_⟩
        change pipe.lines[pipe.answered]? = some slot.wire
        rw [getElem?_eq_getElem hu, hl.1]
      · exact h.sent o line ho

theorem Correlated.step (hs : pipe.Sound) {e : PipeEvent} (hca : pipe.Careful e) :
    (pipe.step e).Correlated := by
  have hm := step_moves pipe e
  generalize pipe.step e = next at hm ⊢
  cases hm with
  | same => exact h
  | closing =>
    exact { h with matched := fun hst => { h.matched hst with } }
  | task hb _ _ hc _ hre =>
    exact h.moves_task hs hb hc fun c a hn => (hre c a hn).1
  | queue hwa hfr => exact h.moves_queue hwa hfr
  | write hw hso hf => exact h.moves_write hs hw hso hf
  | @poison task cmd written hw =>
    have hdr := @Correlated.moves_unlock pipe.drain task cmd written h.moves_drain hs.moves_drain
      (.finished (some cmd) (.failed (if written = 0 then .io else .writeUncertain))) hw
      nofun rfl nofun
    exact { hdr with matched := nofun }
  | unlock hw hco ha =>
    rcases ha with ⟨oc, rfl, hr⟩ | ⟨rfl, -⟩
    · refine h.moves_unlock hs hw (fun _ => hco hca) rfl fun c a heq => ?_
      cases heq
      exact hr a rfl
    · exact h.moves_unlock hs hw (fun _ => hco hca) rfl nofun
  | reply hu => exact h.moves_reply hs hu
  | drain => exact h.moves_drain

end

end Correlation

/-! ## Runs -/

theorem Sound.new : Sound new :=
  ⟨rfl, nofun, nofun, nofun, nofun, nofun, le_refl 0⟩

theorem Correlated.new : Correlated new :=
  ⟨nofun, fun _ => ⟨rfl, rfl⟩, nofun, nofun⟩

theorem sound_run (evs : List PipeEvent) : Sound (evs.foldl step new) :=
  foldl_invariant Sound (fun _ e h => h.step e) .new

/-- Whatever futures are dropped, no permit is lost or made up, one task writes at a time, and a
caller in line keeps its slot until it is told. -/
theorem permits_conserved (events : List PipeEvent) :
    let pipe := events.foldl step new
    pipe.permits + pipe.permitsInHand + pipe.pending.length = pendingReplyCapacity ∧
    (∀ a b ca cb na nb, pipe.tasks.lookup a = some (.writing ca na) →
      pipe.tasks.lookup b = some (.writing cb nb) → a = b) ∧
    ∀ slot ∈ pipe.queued, slot.command.target.isCaller →
      slot ∈ pipe.pending ∨ ∃ answer, pipe.sent.lookup slot.task = some answer := by
  have sound := sound_run events
  refine ⟨sound.permits, fun a b ca cb na nb ha hb => ?_, sound.settled⟩
  obtain ⟨first, -⟩ := sound.writer a ca na ha
  obtain ⟨second, -⟩ := sound.writer b cb nb hb
  exact Option.some.inj (first.symm.trans second)

theorem closed_of_ended (h : pipe.ended = true → pipe.closed = true) (event : PipeEvent) :
    (pipe.step event).ended = true → (pipe.step event).closed = true := by
  have hm := step_moves pipe event
  generalize pipe.step event = next at hm ⊢
  cases hm with
  | same | task | queue | unlock | drain => exact h
  | closing | poison => exact fun _ => rfl
  | write =>
    obtain ⟨buffer, lines, heq, -⟩ := foldl_receive _ _
    rw [heq]
    exact h
  | reply =>
    unfold takeReply
    split <;> exact h

theorem closed_of_ended_run (evs : List PipeEvent) :
    (evs.foldl step new).ended = true → (evs.foldl step new).closed = true :=
  foldl_invariant (fun pipe : CommandPipe => pipe.ended = true → pipe.closed = true)
    (fun _ e h => closed_of_ended h e) fun h => (nomatch h)

theorem correlated_run {evs : List PipeEvent} (h : Along step Careful new evs) :
    Correlated (evs.foldl step new) := by
  refine (Along.invariant (fun pipe => pipe.Sound ∧ pipe.Correlated) ?_ h
    ⟨Sound.new, Correlated.new⟩).2
  exact fun pipe e ⟨hs, hc⟩ hca =>
    ⟨hs.step e, hc.step hs hca⟩

/-- Every caller whose slot was queued has been told, or is the next time it looks. -/
def AllTold (pipe : CommandPipe) : Prop :=
  (∀ slot ∈ pipe.queued, slot.command.target.isCaller = true →
    ∃ answer, pipe.sent.lookup slot.task = some answer) ∧
  ∀ task command, pipe.tasks.lookup task = some (.awaitingReply command) →
    ∃ answer, (pipe.step (.poll task)).tasks.lookup task =
      some (.finished (some command) (.received answer))

theorem Sound.allTold (h : pipe.Sound) (hst : pipe.stdin = false) : pipe.AllTold := by
  have ht : ∀ slot ∈ pipe.queued, slot.command.target.isCaller = true →
      ∃ ans, pipe.sent.lookup slot.task = some ans := by
    intro slot hsl hc
    rcases h.settled slot hsl hc with hm | hs
    · rw [h.closed_empty hst] at hm
      cases hm
    · exact hs
  refine ⟨ht, fun task command hw => ?_⟩
  obtain ⟨hq, hc⟩ := h.waiter task command hw
  obtain ⟨ans, hs⟩ := ht _ hq hc
  refine ⟨ans, ?_⟩
  simp only [CommandPipe.step, hw, hs]
  exact lookup_insert _

/-- Where no future is dropped with its line partly written, a caller gets the reply to its own
command; once the pipe is closed every caller is told; slots stay within the capacity. -/
theorem replies_reach_callers (events : List PipeEvent) (h : Along step Careful new events) :
    let pipe := events.foldl step new
    (∀ task command line,
      pipe.tasks.lookup task = some (.finished command (.received (.reply line))) →
        pipe.OwnReply task line) ∧
    (pipe.stdin = false → pipe.AllTold) ∧
    (pipe.ended = true → pipe.closed = true ∧
      (pipe.lock = none → (pipe.step .finishClose).stdin = false)) ∧
    pipe.pending.length ≤ pendingReplyCapacity := by
  intro pipe
  have hs : pipe.Sound := sound_run events
  have hc : pipe.Correlated := correlated_run h
  refine ⟨hc.received, hs.allTold, ?_, ?_⟩
  · intro he
    have hcl := closed_of_ended_run events he
    refine ⟨hcl, fun hl => ?_⟩
    rw [CommandPipe.step, if_pos ⟨hcl, hl⟩]
    rfl
  · have hp := hs.permits
    omega

/-- Two callers and a future that is dropped while it waits for the pipe. The first line is
written in two pieces. -/
def carefulRun : List PipeEvent :=
  [.submit 0 (.caller true) (encode "ab"), .submit 1 (.caller true) (encode "c"), .takeLock 0,
    .write 0 1, .submit 2 (.caller true) (encode "d"), .drop 2, .write 0 2, .flush 0,
    .takeLock 1, .write 1 2, .answer, .flush 1, .answer, .poll 1, .poll 0]

theorem carefulRun_replies :
    Along step Careful new carefulRun ∧
    (carefulRun.foldl step new).tasks.lookup 1 =
      some (.finished (Command.validateCommandLine (.caller true) (encode "c"))
        (.received (.reply 1))) ∧
    (carefulRun.foldl step new).OwnReply 1 1 := by
  have hc : Along step Careful new carefulRun := by decide
  have hf : (carefulRun.foldl step new).tasks.lookup 1 =
      some (.finished (validateCommandLine (.caller true) (encode "c"))
        (.received (.reply 1))) := by decide
  exact ⟨hc, hf, (replies_reach_callers carefulRun hc).1 1 _ 1 hf⟩

/-- The first future is dropped after one byte of its line. -/
def halfWrittenRun : List PipeEvent :=
  [.submit 0 (.caller true) (encode "ab"), .takeLock 0, .write 0 1, .drop 0,
    .submit 1 (.caller true) (encode "c"), .takeLock 1, .write 1 2, .flush 1, .answer,
    .submit 2 (.caller true) (encode "d"), .takeLock 2, .write 2 2, .flush 2, .answer, .poll 1]

/-- The second caller receives the reply to the line of the third. -/
theorem half_written_line_misdirects :
    (halfWrittenRun.foldl step new).tasks.lookup 1 =
      some (.finished (Command.validateCommandLine (.caller true) (encode "c"))
        (.received (.reply 1))) ∧
    (halfWrittenRun.foldl step new).lines =
      [(encode "a").map (0, ·) ++ (encode "c\n").map (1, ·), (encode "d\n").map (2, ·)] ∧
    ¬ (halfWrittenRun.foldl step new).OwnReply 1 1 := by
  have hl : (halfWrittenRun.foldl step new).lines =
      [(encode "a").map (0, ·) ++ (encode "c\n").map (1, ·), (encode "d\n").map (2, ·)] := by
    decide
  refine ⟨by decide, hl, ?_⟩
  rintro ⟨command, -, hli⟩
  have hm : ((2, newline) : Nat × UInt8) ∈ command.line.map (1, ·) :=
    Option.some.inj hli ▸ (by decide)
  obtain ⟨_, _, heq⟩ := mem_map.mp hm
  cases heq

end CommandPipe

end Cyclops.Tmux
