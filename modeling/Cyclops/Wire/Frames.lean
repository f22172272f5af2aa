import Cyclops.Lib.Framing
import Cyclops.Lib.TextLines

/-!
# Frames of the daemon wire

Both ends read newline-delimited frames from a buffered socket: the daemon the requests of a
connection, the blocking and the async client what the daemon sends.

Result: `frames_survive`.
-/

namespace Cyclops.Wire

open Framing TextLines Reader Runs

def maxJsonBytes : Nat := 1048576

/-! ## The three readers -/

def readFrame : Format UInt8 String String where
  delimiter := newline
  limit := maxJsonBytes
  finish := fun bytes =>
    match decode bytes with
    | some line => .ok line
    | none => .error "client frame was not UTF-8"
  tooLarge := "client request exceeds the 1048576-byte JSON frame limit (newline excluded)"
  cut := "connection closed during a daemon frame"

/-- Both clients drop one trailing carriage return. -/
def dropCarriageReturn (frame : List UInt8) : List UInt8 :=
  if frame.getLast? = some carriageReturn then frame.dropLast else frame

/-- The errors of the blocking reader that end a call other than by a timeout. -/
inductive ClientError where
  | daemonFrameTooLarge
  | unknown (text : String)

/-- `read_blocking_frame`, behind `request` and `next_event`. -/
def readBlockingFrame : Format UInt8 (List UInt8) ClientError where
  delimiter := newline
  limit := maxJsonBytes
  finish := fun bytes => .ok (dropCarriageReturn bytes)
  tooLarge := .daemonFrameTooLarge
  cut := .unknown "the connection closed during a daemon frame"

/-- `next_frame` of the async client. Its vector is a field of the reader, which
every call clears first. -/
def nextFrame : Format UInt8 (List UInt8) String where
  delimiter := newline
  limit := maxJsonBytes
  finish := fun bytes => .ok (dropCarriageReturn bytes)
  tooLarge := "official daemon frame is too large"
  cut := "daemon frame ended without a newline"

/-! ## A connection of the daemon -/

/-- What a handled request does to its connection. -/
inductive LineOutcome where
  | proceed | drop | subscribed

/-- Where the connection loop stands. -/
inductive Phase where
  /-- In the select between events, if subscribed, and the next line. -/
  | pumping
  | handling
  | dropped
deriving DecidableEq

structure Conn where
  reader : Reader UInt8 String String
  subscribed : Bool
  phase : Phase

/-- What a connection meets. -/
inductive ConnEvent where
  /-- The read is polled, and finds the chunk in the socket if its buffer is empty. -/
  | poll (chunk : List UInt8)
  | hangUp
  /-- An event of the daemon wins the select. It is sent, or not asked for, unless the
  write fails. -/
  | event (written : Bool)
  /-- The subscriber was too slow, or the daemon has closed the stream of events. -/
  | eventsLost
  | handled (outcome : LineOutcome)
  | stop

namespace Conn

def accepted : Conn where
  reader := fresh.step readFrame .call
  subscribed := false
  phase := .pumping

def pump (reader : Reader UInt8 String String) (subscribed : Bool) : Conn where
  reader := reader.step readFrame .call
  subscribed
  phase := .pumping

/-- One event of `handle_conn`. An event that cannot happen changes nothing. -/
def step (c : Conn) : ConnEvent → Conn
  | .poll chunk =>
    if c.phase = .pumping then
      let reader := c.reader.step readFrame (.poll chunk)
      if reader.reading then { c with reader }
      else
        match reader.answers.getLast? with
        | some (.ok (some _)) => { c with reader, phase := .handling }
        | _ => { c with reader, phase := .dropped }
    else c
  | .hangUp => { c with reader := c.reader.step readFrame .hangUp }
  | .event written =>
    if c.phase = .pumping ∧ c.subscribed = true then
      if written then pump (c.reader.step readFrame .abandon) c.subscribed
      else { c with phase := .dropped }
    else c
  | .eventsLost =>
    if c.phase = .pumping ∧ c.subscribed = true then { c with phase := .dropped } else c
  | .handled outcome =>
    if c.phase = .handling then
      match outcome with
      | .proceed => pump c.reader c.subscribed
      | .drop => { c with phase := .dropped }
      | .subscribed => pump c.reader true
    else c
  | .stop => { c with phase := .dropped }

/-- No event wins the select while the read has consumed part of a frame. -/
def Careful (c : Conn) : ConnEvent → Prop
  | .event _ => c.phase = .pumping → c.subscribed = true → c.reader.frame = []
  | _ => True

instance decidableCareful (c : Conn) (event : ConnEvent) : Decidable (c.Careful event) := by
  unfold Careful
  split <;> infer_instance

theorem step_reader (c : Conn) (event : ConnEvent) (hc : c.Careful event) :
    ∃ ops, (c.step event).reader = ops.foldl (Reader.step readFrame) c.reader ∧
      Along (Reader.step readFrame) Reader.Careful c.reader ops := by
  cases event with simp only [step]
  | poll chunk =>
    split
    · refine ⟨[.poll chunk], ?_, trivial, trivial⟩
      split
      · rfl
      · split <;> rfl
    · exact ⟨[], rfl, trivial⟩
  | hangUp => exact ⟨[.hangUp], rfl, trivial, trivial⟩
  | event =>
    split
    · next hs =>
      split
      · exact ⟨[.abandon, .call], rfl, fun _ => hc hs.1 hs.2, trivial, trivial⟩
      · exact ⟨[], rfl, trivial⟩
    · exact ⟨[], rfl, trivial⟩
  | eventsLost => split <;> exact ⟨[], rfl, trivial⟩
  | handled o =>
    split
    · cases o with
      | proceed | subscribed => exact ⟨[.call], rfl, trivial, trivial⟩
      | drop => exact ⟨[], rfl, trivial⟩
    · exact ⟨[], rfl, trivial⟩
  | stop => exact ⟨[], rfl, trivial⟩

theorem run_reader {evs : List ConnEvent} (hca : Along step Careful accepted evs) :
    ∃ ops, (evs.foldl step accepted).reader = ops.foldl (Reader.step readFrame) Reader.fresh ∧
      Along (Reader.step readFrame) Reader.Careful Reader.fresh ops := by
  refine hca.invariant (fun c => ∃ ops, c.reader = ops.foldl (.step readFrame) .fresh ∧
      Along (.step readFrame) Reader.Careful .fresh ops) ?_
    ⟨[.call], rfl, trivial, trivial⟩
  rintro c ev ⟨ops, hr, ha⟩ hc
  obtain ⟨more, hm, ha'⟩ := step_reader c ev hc
  refine ⟨ops ++ more, ?_, along_append.mpr ⟨ha, hr ▸ ha'⟩⟩
  rw [hm, hr, List.foldl_append]

end Conn

/-! ## Frames survive -/

/-- Each reader returns the frames of its stream in order, as long as no frame exceeds the limit and
no read is given up within one. -/
theorem frames_survive (events : List ConnEvent) (blocking async : List (ReaderOp UInt8))
    (careful : Along Conn.step Conn.Careful Conn.accepted events ∧
      Along (step readBlockingFrame) Careful fresh blocking ∧
      Along (step nextFrame) Careful fresh async)
    (within : Within newline maxJsonBytes (events.foldl Conn.step .accepted).reader.taken ∧
      Within newline maxJsonBytes (blocking.foldl (step readBlockingFrame) .fresh).taken ∧
      Within newline maxJsonBytes (async.foldl (step nextFrame) .fresh).taken) :
    (events.foldl Conn.step .accepted).reader.Faithful readFrame ∧
      (blocking.foldl (step readBlockingFrame) .fresh).Faithful readBlockingFrame ∧
      (async.foldl (step nextFrame) .fresh).Faithful nextFrame := by
  obtain ⟨he, hb, has⟩ := careful
  obtain ⟨hw, wblocking, hwa⟩ := within
  refine ⟨?_, faithful hb wblocking, faithful has hwa⟩
  obtain ⟨ops, hr, ha⟩ := Conn.run_reader he
  rw [hr] at hw ⊢
  exact faithful ha hw

/-- A subscription, then the request `abc` in two chunks and an event. -/
def subscribedEvents (eventFirst : Bool) : List ConnEvent :=
  let request : List ConnEvent :=
    if eventFirst then [.event true, .poll (encode "ab")]
    else [.poll (encode "ab"), .event true]
  [.poll (encode "s\n"), .handled .subscribed] ++ request ++ [.poll (encode "c\n")]

def chunkedOps (between : List (ReaderOp UInt8)) : List (ReaderOp UInt8) :=
  [.call, .poll (encode "ab")] ++ between ++ [.poll (encode "c\n")]

theorem chunked_frame_survives :
    ((subscribedEvents true).foldl Conn.step .accepted).reader.answers =
      [.ok (some "s"), .ok (some "abc")] ∧
    ((subscribedEvents true).foldl Conn.step .accepted).reader.Faithful readFrame ∧
    ((chunkedOps []).foldl (step readBlockingFrame) .fresh).Faithful readBlockingFrame ∧
    ((chunkedOps []).foldl (step nextFrame) .fresh).Faithful nextFrame := by
  refine ⟨rfl, frames_survive _ _ _ ⟨?_, ?_, ?_⟩ ⟨.of_length ?_, .of_length ?_, .of_length ?_⟩⟩
  all_goals decide

/-- The first chunk is lost, and the rest of the frame is returned as a frame. -/
theorem interrupted_frame_cut :
    let c := (subscribedEvents false).foldl Conn.step .accepted
    let blocking := (chunkedOps [.abandon, .call]).foldl (step readBlockingFrame) .fresh
    let async := (chunkedOps [.abandon, .call]).foldl (step nextFrame) .fresh
    (c.reader.answers = [.ok (some "s"), .ok (some "c")] ∧
      frames newline c.reader.taken = [encode "s", encode "abc"]) ∧
    (blocking.answers = [.ok (some (encode "c"))] ∧
      frames newline blocking.taken = [encode "abc"]) ∧
    (async.answers = [.ok (some (encode "c"))] ∧ frames newline async.taken = [encode "abc"]) := by
  refine ⟨⟨rfl, ?_⟩, ⟨rfl, ?_⟩, ⟨rfl, ?_⟩⟩
  all_goals decide

end Cyclops.Wire
