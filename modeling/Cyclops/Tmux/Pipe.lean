import Cyclops.Lib.FiniteMap
import Cyclops.Lib.TextLines

/-!
# The command pipe

Commands go to tmux as lines on one pipe, and the reply to each line comes back as a block on the
control stream.
-/

namespace Cyclops.Tmux

open FiniteMap TextLines

def pendingReplyCapacity : Nat := 64

/-! ## Commands -/

/-- Who takes the reply: a caller, or the reader for a paused pane. -/
inductive ReplyTarget where
  | caller (waits : Bool)
  | resume (pane : String)
deriving DecidableEq

def ReplyTarget.isCaller (target : ReplyTarget) : Bool :=
  target matches .caller _

structure Command where
  target : ReplyTarget
  text : List UInt8
  one_line : newline ∉ text ∧ carriageReturn ∉ text
deriving DecidableEq

namespace Command

def validateCommandLine (target : ReplyTarget) (text : List UInt8) : Option Command :=
  if h : newline ∉ text ∧ carriageReturn ∉ text then some ⟨target, text, h⟩ else none

def line (command : Command) : List UInt8 :=
  command.text ++ [newline]

end Command

/-- Why a command failed. -/
inductive TmuxError where
  | busy
  | disconnected
  | protocol
  | io
  | writeUncertain
deriving DecidableEq

/-- What a reply slot gets. -/
inductive Answer where
  | reply (line : Nat)
  | disconnected
deriving DecidableEq

/-- How a call ends. -/
inductive Outcome where
  | submitted
  | received (answer : Answer)
  | failed (error : TmuxError)
  | timedOut
  | dropped
deriving DecidableEq

/-- Where a call stands. -/
inductive Phase where
  /-- Waiting for capacity that will be spent on pane input. -/
  | reserving
  | reserved
  | awaitingPermit (command : Command)
  | awaitingLock (command : Command)
  /-- Holding the pipe, with so many bytes of the line written. -/
  | writing (command : Command) (written : Nat)
  | awaitingReply (command : Command)
  | finished (command : Option Command) (outcome : Outcome)
deriving DecidableEq

namespace Phase

def command : Phase → Option Command
  | .reserving | .reserved => none
  | .awaitingPermit command | .awaitingLock command | .writing command _
  | .awaitingReply command => some command
  | .finished command _ => command

/-- The task itself holds a permit. Once the reply slot is queued the slot holds it. -/
def holdsPermit (phase : Phase) : Bool :=
  phase matches .reserved | .awaitingLock _

def isWriting (phase : Phase) : Bool :=
  phase matches .writing ..

end Phase

structure ReplySlot where
  task : Nat
  command : Command

def ReplySlot.wire (slot : ReplySlot) : List (Nat × UInt8) :=
  slot.command.line.map (slot.task, ·)

/-! ## The pipe -/

/-- The command pipe, the tasks on it and what tmux has read from it. -/
structure CommandPipe where
  tasks : Map Nat Phase
  stdin : Bool
  lock : Option Nat
  permits : Nat
  closed : Bool
  ended : Bool
  pending : List ReplySlot
  queued : List ReplySlot
  sent : Map Nat Answer
  /-- The line that tmux is reading. -/
  buffer : List (Nat × UInt8)
  /-- The complete lines that tmux has read. -/
  lines : List (List (Nat × UInt8))
  answered : Nat

/-- What callers, the pipe and tmux can do next. -/
inductive PipeEvent where
  /-- A submission that does not wait for capacity, or a resume, which does. -/
  | submit (task : Nat) (target : ReplyTarget) (text : List UInt8)
  | reserve (task : Nat)
  | spend (task : Nat) (text : List UInt8)
  | acquire (task : Nat)
  | takeLock (task : Nat)
  | write (task : Nat) (bytes : Nat)
  | writeFails (task : Nat)
  | flush (task : Nat)
  | drop (task : Nat)
  | timeout (task : Nat)
  | poll (task : Nat)
  | answer
  | beginClose (streamEnded : Bool)
  | finishClose

namespace CommandPipe

def new : CommandPipe where
  tasks := ∅
  stdin := true
  lock := none
  permits := pendingReplyCapacity
  closed := false
  ended := false
  pending := []
  queued := []
  sent := ∅
  buffer := []
  lines := []
  answered := 0

def commandOf (pipe : CommandPipe) (task : Nat) : Option Command :=
  (pipe.tasks.lookup task).bind Phase.command

def moveTo (pipe : CommandPipe) (task : Nat) (phase : Phase) : CommandPipe :=
  { pipe with tasks := pipe.tasks.insert task phase }

def release (pipe : CommandPipe) : CommandPipe :=
  { pipe with permits := pipe.permits + 1 }

def receive (pipe : CommandPipe) (byte : Nat × UInt8) : CommandPipe :=
  if byte.2 = newline then
    { pipe with buffer := [], lines := pipe.lines ++ [pipe.buffer ++ [byte]] }
  else { pipe with buffer := pipe.buffer ++ [byte] }

def disconnect (sent : Map Nat Answer) (slot : ReplySlot) : Map Nat Answer :=
  if slot.command.target.isCaller then sent.insert slot.task .disconnected else sent

def drain (pipe : CommandPipe) : CommandPipe :=
  { pipe with
    stdin := false
    pending := []
    permits := pipe.permits + pipe.pending.length
    sent := pipe.pending.foldl disconnect pipe.sent }

/-- A failed write breaks the correlation of every command on the pipe. -/
def poisonAfterWriteFailure (pipe : CommandPipe) (task : Nat) (command : Command)
    (written : Nat) : CommandPipe :=
  let error := if written = 0 then TmuxError.io else .writeUncertain
  { pipe.drain.moveTo task (.finished (some command) (.failed error)) with
    closed := true
    lock := none }

def takePermit (pipe : CommandPipe) (task : Nat) (next : Phase) : CommandPipe :=
  { pipe.moveTo task next with permits := pipe.permits - 1 }

def acquirePermit (pipe : CommandPipe) (task : Nat) (command : Option Command) (next : Phase) :
    CommandPipe :=
  if pipe.closed then pipe.moveTo task (.finished command (.failed .disconnected))
  else if pipe.permits = 0 then pipe
  else pipe.takePermit task next

def lockStdin (pipe : CommandPipe) (task : Nat) (command : Command) : CommandPipe :=
  if pipe.stdin then
    { pipe.moveTo task (.writing command 0) with
      lock := some task
      pending := pipe.pending ++ [⟨task, command⟩]
      queued := pipe.queued ++ [⟨task, command⟩] }
  else (pipe.moveTo task (.finished (some command) (.failed .disconnected))).release

def writeBytes (pipe : CommandPipe) (task : Nat) (command : Command) (written bytes : Nat) :
    CommandPipe :=
  if bytes = 0 then pipe.poisonAfterWriteFailure task command written
  else
    (((command.line.drop written).take bytes).map (task, ·)).foldl receive
      (pipe.moveTo task (.writing command (written + bytes)))

def flushed (pipe : CommandPipe) (task : Nat) (command : Command) : CommandPipe :=
  let next : Phase :=
    match command.target with
    | .caller true => .awaitingReply command
    | _ => .finished (some command) .submitted
  { pipe.moveTo task next with lock := none }

/-- The future of a task is dropped, with what it holds. The slot stays. -/
def dropTask (pipe : CommandPipe) (task : Nat) (phase : Phase) : CommandPipe :=
  match phase with
  | .finished .. => pipe
  | .reserving | .awaitingPermit _ | .awaitingReply _ =>
    pipe.moveTo task (.finished phase.command .dropped)
  | .reserved | .awaitingLock _ =>
    (pipe.moveTo task (.finished phase.command .dropped)).release
  | .writing command _ =>
    { pipe.moveTo task (.finished (some command) .dropped) with lock := none }

def takeReply (pipe : CommandPipe) : CommandPipe :=
  match pipe.pending with
  | [] => { pipe with answered := pipe.answered + 1 }
  | slot :: rest =>
    { pipe with
      answered := pipe.answered + 1
      pending := rest
      permits := pipe.permits + 1
      sent := pipe.sent.insert slot.task (.reply pipe.answered) }

/-- One event; one that does not fit its task changes nothing. -/
def step (pipe : CommandPipe) : PipeEvent → CommandPipe
  | .submit task target text =>
    match pipe.tasks.lookup task with
    | some _ => pipe
    | none =>
      match Command.validateCommandLine target text with
      | none => pipe.moveTo task (.finished none (.failed .protocol))
      | some command =>
        match target with
        | .caller _ =>
          if pipe.closed then pipe.moveTo task (.finished (some command) (.failed .disconnected))
          else if pipe.permits = 0 then pipe.moveTo task (.finished (some command) (.failed .busy))
          else pipe.takePermit task (.awaitingLock command)
        | .resume _ => pipe.moveTo task (.awaitingPermit command)
  | .reserve task =>
    match pipe.tasks.lookup task with
    | some _ => pipe
    | none => pipe.moveTo task .reserving
  | .acquire task =>
    match pipe.tasks.lookup task with
    | some .reserving => pipe.acquirePermit task none .reserved
    | some (.awaitingPermit command) =>
      pipe.acquirePermit task (some command) (.awaitingLock command)
    | _ => pipe
  | .spend task text =>
    match pipe.tasks.lookup task with
    | some .reserved =>
      match Command.validateCommandLine (.caller false) text with
      | none => (pipe.moveTo task (.finished none (.failed .protocol))).release
      | some command => pipe.moveTo task (.awaitingLock command)
    | _ => pipe
  | .takeLock task =>
    match pipe.tasks.lookup task, pipe.lock with
    | some (.awaitingLock command), none => pipe.lockStdin task command
    | _, _ => pipe
  | .write task bytes =>
    match pipe.tasks.lookup task with
    | some (.writing command written) =>
      if written < command.line.length ∧ written + bytes ≤ command.line.length then
        pipe.writeBytes task command written bytes
      else pipe
    | _ => pipe
  | .writeFails task =>
    match pipe.tasks.lookup task with
    | some (.writing command written) => pipe.poisonAfterWriteFailure task command written
    | _ => pipe
  | .flush task =>
    match pipe.tasks.lookup task with
    | some (.writing command written) =>
      if command.line.length ≤ written then pipe.flushed task command else pipe
    | _ => pipe
  | .drop task =>
    match pipe.tasks.lookup task with
    | some phase => pipe.dropTask task phase
    | none => pipe
  | .timeout task =>
    match pipe.tasks.lookup task with
    | some (.awaitingReply command) => pipe.moveTo task (.finished (some command) .timedOut)
    | _ => pipe
  | .poll task =>
    match pipe.tasks.lookup task, pipe.sent.lookup task with
    | some (.awaitingReply command), some answer =>
      pipe.moveTo task (.finished (some command) (.received answer))
    | _, _ => pipe
  | .answer =>
    if pipe.answered < pipe.lines.length ∧ pipe.ended = false then pipe.takeReply else pipe
  | .beginClose streamEnded =>
    { pipe with closed := true, ended := pipe.ended || streamEnded }
  | .finishClose =>
    if pipe.closed ∧ pipe.lock = none then pipe.drain else pipe

/-- The event does not drop a future whose line is only partly written. -/
def Careful (pipe : CommandPipe) : PipeEvent → Prop
  | .drop task =>
    ∀ command written, pipe.tasks.lookup task = some (.writing command written) →
      command.line.length ≤ written
  | _ => True

instance (pipe : CommandPipe) (event : PipeEvent) : Decidable (pipe.Careful event) :=
  match event with
  | .drop task =>
    match h : pipe.tasks.lookup task with
    | some (.writing command written) =>
      decidable_of_iff (command.line.length ≤ written)
        ⟨fun hle c w heq => by cases h.symm.trans heq; exact hle, fun hall => hall _ _ h⟩
    | none | some .reserving | some .reserved | some (.awaitingPermit _) | some (.awaitingLock _)
    | some (.awaitingReply _) | some (.finished ..) =>
      isTrue fun c w heq => by rw [h] at heq; cases heq
  | .submit .. | .reserve _ | .spend .. | .acquire _ | .takeLock _ | .write .. | .writeFails _
  | .flush _ | .timeout _ | .poll _ | .answer | .beginClose _ | .finishClose => isTrue trivial

end CommandPipe

end Cyclops.Tmux
