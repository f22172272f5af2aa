import Cyclops.Lib.Checked
import Cyclops.Mailbox.Error

/-!
# The journal writer

The append-only file of one workspace, as far as its rows go.
-/

namespace Cyclops

open Checked List

/-- Refusals of the journal. -/
inductive LedgerError where
  | io
  | serialize
  | corruptLine (line : Nat) (reason : String)
  | sequenceGap (line expected found : Nat)
  | sequenceExhausted
  | writeStateUnknown
  | writerSealed

/-- What the file system does with an append. -/
inductive AppendIo where
  | written
  | refusedEarly
  | failed (kept : Bool)

structure LedgerWriter where
  bootId : String
  nextSeq : Nat
  writeStateUnknown : Bool
  writerSealed : Bool
  lines : List LedgerLine
  /-- A row that reached the file although its append reported a failure. -/
  unacknowledged : Option LedgerLine

namespace LedgerWriter

def records (writer : LedgerWriter) : List LedgerLine :=
  writer.lines ++ writer.unacknowledged.toList

def assign (writer : LedgerWriter) (line : LedgerLine) (now : Nat) : LedgerLine :=
  { line with
    seq := writer.nextSeq
    bootId := writer.bootId
    ts := if line.ts = 0 then now else line.ts }

def wrote (writer : LedgerWriter) (line : LedgerLine) : LedgerWriter :=
  { writer with
    nextSeq := writer.nextSeq + 1
    lines := writer.lines ++ [line] }

def tore (writer : LedgerWriter) (line : LedgerLine) (kept : Bool) : LedgerWriter :=
  { writer with
    writeStateUnknown := true
    unacknowledged := if kept then some line else none }

def append (writer : LedgerWriter) (line : LedgerLine) (now : Nat) (io : AppendIo) :
    LedgerWriter × Except LedgerError LedgerLine :=
  if writer.writerSealed then (writer, .error .writerSealed)
  else if writer.writeStateUnknown then (writer, .error .writeStateUnknown)
  else if u64Bound ≤ writer.nextSeq + 1 then (writer, .error .sequenceExhausted)
  else
    let assigned := writer.assign line now
    match io with
    | .refusedEarly => (writer, .error .serialize)
    | .failed kept => (writer.tore assigned kept, .error .io)
    | .written => (writer.wrote assigned, .ok assigned)

def sealWriter (writer : LedgerWriter) : LedgerWriter :=
  { writer with writerSealed := true }

/-- The rows of a strict journal are numbered from one without gaps. The answer
is the number of the next row. -/
def readFromStrict (expected : Nat) : List LedgerLine → Except LedgerError Nat
  | [] => .ok expected
  | line :: rest => do
    refuseIf (line.seq ≠ expected) (.sequenceGap expected expected line.seq)
    refuseIf (u64Bound ≤ expected + 1) .sequenceExhausted
    readFromStrict (expected + 1) rest

def openStrict (bootId : String) (records : List LedgerLine) : Except LedgerError LedgerWriter := do
  let nextSeq ← readFromStrict 1 records
  return {
    bootId, nextSeq, writeStateUnknown := false, writerSealed := false, lines := records,
    unacknowledged := none }

variable {ls : List LedgerLine} {first next : Nat} {w : LedgerWriter} {io : AppendIo}

theorem readFromStrict_concat {line : LedgerLine} (h : readFromStrict first ls = .ok next)
    (hs : line.seq = next) (hb : next + 1 < u64Bound) :
    readFromStrict first (ls ++ [line]) = .ok (next + 1) := by
  induction ls generalizing first with
  | nil =>
    cases h
    simp only [nil_append, readFromStrict, refuseIf_bind_eq_ok, hs, ne_eq,
      not_true_eq_false, not_false_eq_true, not_le, true_and]
    exact ⟨hb, trivial⟩
  | cons f' rest ih =>
    simp only [cons_append, readFromStrict, refuseIf_bind_eq_ok] at h ⊢
    exact ⟨h.1, h.2.1, ih h.2.2⟩

/-- An append fails and leaves the writer alone, is torn, or is acknowledged. -/
theorem append_cases (w : LedgerWriter) (line : LedgerLine) (now : Nat) (io : AppendIo) :
    (∃ e, w.append line now io = (w, .error e)) ∨
    (w.writeStateUnknown = false ∧ w.nextSeq + 1 < u64Bound ∧ ∃ kept,
      w.append line now io = (w.tore (w.assign line now) kept, .error .io)) ∨
    (w.writeStateUnknown = false ∧ w.nextSeq + 1 < u64Bound ∧ w.append line now io =
        (w.wrote (w.assign line now), .ok (w.assign line now))) := by
  unfold append
  split
  · exact .inl ⟨_, rfl⟩
  · split
    · exact .inl ⟨_, rfl⟩
    · next hh =>
      split
      · exact .inl ⟨_, rfl⟩
      · next hb =>
        rw [Bool.not_eq_true] at hh
        cases io with
        | refusedEarly => exact .inl ⟨_, rfl⟩
        | failed kept => exact .inr (.inl ⟨hh, not_le.mp hb, kept, rfl⟩)
        | written => exact .inr (.inr ⟨hh, not_le.mp hb, rfl⟩)

structure Ready (writer : LedgerWriter) (io : AppendIo) : Prop where
  unsealed : writer.writerSealed = false
  known : writer.writeStateUnknown = false
  bound : writer.nextSeq + 1 < u64Bound
  written : io = .written

theorem Ready.append (h : w.Ready io) (line : LedgerLine) (now : Nat) : w.append line now io =
      (w.wrote (w.assign line now), .ok (w.assign line now)) := by
  simp [LedgerWriter.append, h.unsealed, h.known, h.bound, h.written]

theorem append_of_not_ready (h : ¬ w.Ready io) (line : LedgerLine) (now : Nat) :
    ∃ w' e, w.append line now io = (w', .error e) := by
  unfold LedgerWriter.append
  split
  · exact ⟨_, _, rfl⟩
  · next hs =>
    split
    · exact ⟨_, _, rfl⟩
    · next hk =>
      split
      · exact ⟨_, _, rfl⟩
      · next hb =>
        cases io with
        | refusedEarly | failed => exact ⟨_, _, rfl⟩
        | written =>
          exact absurd ⟨Bool.not_eq_true _ ▸ hs, Bool.not_eq_true _ ▸ hk, not_le.mp hb, rfl⟩ h

theorem bounded_of_readFromStrict (hf : first < u64Bound) (h : readFromStrict first ls = .ok next) :
    next < u64Bound ∧ ∀ line ∈ ls, line.seq + 1 < u64Bound := by
  induction ls generalizing first with
  | nil =>
    cases h
    exact ⟨hf, fun _ hm => absurd hm not_mem_nil⟩
  | cons line rest ih =>
    simp only [readFromStrict, refuseIf_bind_eq_ok, not_not, not_le] at h
    obtain ⟨hs, hb, hr⟩ := h
    obtain ⟨hn, hl⟩ := ih hb hr
    exact ⟨hn, forall_mem_cons.mpr ⟨hs ▸ hb, hl⟩⟩

end LedgerWriter

end Cyclops
