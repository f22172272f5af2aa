import Cyclops.Lib.TextLines
import Cyclops.Mailbox.Ledger

/-!
# The journal file

A journal is a file of JSON rows, one to a line.
-/

namespace Cyclops

open Checked Texts TextLines LedgerWriter List

/-- How rows are serialized. -/
class LineCodec where
  serialize : LedgerLine → Option String
  /-- The answer is the row, or the parser's words. -/
  parse : String → Except String LedgerLine
  parse_serialize : ∀ {line text}, serialize line = some text → parse text = .ok line
  /-- Control characters are escaped. -/
  printable : ∀ {line text}, serialize line = some text → Printable text
  /-- A row is an object. -/
  opens : ∀ {line text}, serialize line = some text → text.toList.head? = some '\x7b'
  /-- The beginning of an object is no object. -/
  parse_part : ∀ {line text part}, serialize line = some text → encode part <+: encode text →
    part ≠ text → ∃ error, parse part = .error error

def isBlank (text : String) : Bool :=
  (trim text.toList).isEmpty

/-- How a write of the file ends; a failed one has written some bytes. -/
inductive FileIo where
  | written
  | failed (bytes : Nat)

structure FileWriter where
  bootId : String
  file : List UInt8
  nextSeq : Nat
  strictReplay : Bool
  writeStateUnknown : Bool
  writerSealed : Bool

namespace FileWriter

/-- Recover only the final unterminated write. -/
def recoverTail (strictReplay : Bool) (file : List UInt8) : List UInt8 :=
  match file.getLast? with
  | none => file
  | some last =>
    if last = newline then file
    else if strictReplay then completeLines file
    else file ++ [newline]

def nextSequence (rows : List LedgerLine) : Except LedgerError Nat :=
  match rows.getLast? with
  | none => .ok 1
  | some line => do
    refuseIf (u64Bound ≤ line.seq + 1) .sequenceExhausted
    return line.seq + 1

def assign (writer : FileWriter) (line : LedgerLine) (now : Nat) : LedgerLine :=
  { line with
    seq := writer.nextSeq
    bootId := writer.bootId
    ts := if line.ts = 0 then now else line.ts }

variable [LineCodec]

def readFrom (cursor : Nat) : List (Option String) → Except LedgerError (List LedgerLine)
  | [] => .ok []
  | none :: _ => .error .io
  | some text :: rest => do
    let later ← readFrom cursor rest
    if isBlank text then
      return later
    else
      match LineCodec.parse text with
      | .error _ => return later
      | .ok line => return if cursor < line.seq then line :: later else later

/-- Rows above the cursor, when all rows are contiguous. `expected` is also the number
of the physical line. -/
def readFromStrict (cursor expected : Nat) :
    List (Option String) → Except LedgerError (List LedgerLine)
  | [] => .ok []
  | none :: _ => .error .io
  | some text :: rest => do
    refuseIf (isBlank text = true) (.corruptLine expected "empty record")
    let line ← (LineCodec.parse text).mapError (.corruptLine expected)
    refuseIf (line.seq ≠ expected) (.sequenceGap expected expected line.seq)
    refuseIf (u64Bound ≤ expected + 1) .sequenceExhausted
    let later ← readFromStrict cursor (expected + 1) rest
    return if cursor < line.seq then line :: later else later

def read (strictReplay : Bool) (cursor : Nat) (file : List UInt8) :
    Except LedgerError (List LedgerLine) :=
  if strictReplay then readFromStrict cursor 1 (lines file) else readFrom cursor (lines file)

def openWithReplay (strictReplay : Bool) (bootId : String) (file : List UInt8) :
    Except LedgerError (FileWriter × List LedgerLine) := do
  let file := recoverTail strictReplay file
  let rows ← read strictReplay 0 file
  let nextSeq ← nextSequence rows
  return (⟨bootId, file, nextSeq, strictReplay, false, false⟩, rows)

def append (writer : FileWriter) (line : LedgerLine) (now : Nat) (io : FileIo) :
    FileWriter × Except LedgerError LedgerLine :=
  if writer.writerSealed then (writer, .error .writerSealed)
  else if writer.writeStateUnknown then (writer, .error .writeStateUnknown)
  else if u64Bound ≤ writer.nextSeq + 1 then (writer, .error .sequenceExhausted)
  else
    let assigned := writer.assign line now
    match LineCodec.serialize assigned with
    | none => (writer, .error .serialize)
    | some text =>
      match io with
      | .written =>
        ({ writer with file := writer.file ++ terminated text, nextSeq := writer.nextSeq + 1 },
          .ok assigned)
      | .failed bytes =>
        ({ writer with
            file := writer.file ++ (terminated text).take bytes
            writeStateUnknown := true },
          .error .io)

def readAfter (writer : FileWriter) (cursor : Nat) : Except LedgerError (List LedgerLine) :=
  read writer.strictReplay cursor writer.file

end FileWriter

/-! ## Contiguous rows -/

variable {rows : List LedgerLine} {next : Nat}

theorem LedgerWriter.seq_of_readFromStrict {first : Nat}
    (h : readFromStrict first rows = .ok next) :
    rows.map LedgerLine.seq = range' first rows.length ∧ next = first + rows.length := by
  induction rows generalizing first with
  | nil =>
    cases h
    exact ⟨rfl, rfl⟩
  | cons row rows ih =>
    simp only [readFromStrict, refuseIf_bind_eq_ok, not_not] at h
    obtain ⟨hs, -, hr⟩ := h
    obtain ⟨hn, hne⟩ := ih hr
    rw [map_cons, hn, hs, length_cons, range'_succ]
    exact ⟨rfl, by omega⟩

theorem filter_of_readFromStrict (h : readFromStrict 1 rows = .ok next) :
    (rows.filter fun row => decide (0 < row.seq)) = rows := by
  refine filter_eq_self.mpr fun row hm => ?_
  have hs : row.seq ∈ range' 1 rows.length :=
    (seq_of_readFromStrict h).1 ▸ mem_map_of_mem hm
  rw [mem_range'_1] at hs
  exact decide_eq_true hs.1

theorem nextSequence_of_readFromStrict (h : readFromStrict 1 rows = .ok next) :
    FileWriter.nextSequence rows = .ok next := by
  obtain ⟨hnu, hne⟩ := seq_of_readFromStrict h
  obtain ⟨-, hb⟩ := bounded_of_readFromStrict (by decide) h
  cases hl : rows.getLast? with
  | none =>
    rw [getLast?_eq_none_iff.mp hl] at hne
    simp only [FileWriter.nextSequence, hl, hne, length_nil]
  | some row =>
    have hm : row ∈ rows := mem_of_getLast? hl
    have hs : row.seq + 1 = next := by
      have hn := congrArg getLast? hnu
      have hp : rows.length ≠ 0 := length_pos_of_mem hm |>.ne'
      rw [getLast?_map, hl, getLast?_range', if_neg hp] at hn
      have := Option.some.inj hn
      omega
    rw [FileWriter.nextSequence, hl, ← hs]
    exact refuseIf_bind_eq_ok.mpr ⟨not_le.mpr (hb row hm), rfl⟩

/-! ## Files that hold rows -/

variable [LineCodec]

def Holds (rows : List LedgerLine) (file : List UInt8) : Prop :=
  ∃ texts, List.Forall₂ (fun row text => LineCodec.serialize row = some text) rows texts ∧
    file = texts.flatMap terminated

variable {row : LedgerLine} {text bootId : String} {file fragment : List UInt8}

theorem Holds.nil : Holds [] [] :=
  ⟨[], .nil, rfl⟩

open LineCodec

theorem Holds.concat (h : Holds rows file) (hr : serialize row = some text) :
    Holds (rows ++ [row]) (file ++ terminated text) := by
  obtain ⟨texts, ht, rfl⟩ := h
  refine ⟨texts ++ [text], rel_append ht (.cons hr .nil), ?_⟩
  rw [flatMap_append, flatMap_singleton]

variable {t : List String}

theorem printable_of_serialized (h : Forall₂ (fun row text => serialize row = some text) rows t) :
    ∀ text ∈ t, Printable text := by
  induction h with
  | nil => exact fun _ hm => absurd hm not_mem_nil
  | cons hr _ ih => exact forall_mem_cons.mpr ⟨printable hr, ih⟩

theorem not_isBlank (hr : serialize row = some text) : isBlank text = false := by
  rw [isBlank, isEmpty_eq_false_iff]
  exact trim_ne_nil (by decide) (opens hr)

theorem readFromStrict_serialized (c e : Nat)
    (h : Forall₂ (fun row text => serialize row = some text) rows t) :
    FileWriter.readFromStrict c e (t.map some) = (readFromStrict e rows).map fun _ =>
        rows.filter fun row => c < row.seq := by
  induction h generalizing e with
  | nil => rfl
  | @cons row text rows t hr _ ih =>
    simp only [map_cons, FileWriter.readFromStrict, readFromStrict,
      not_isBlank hr, parse_serialize hr, ih, refuseIf, Except.mapError]
    by_cases hs : row.seq = e
    · by_cases hb : u64Bound ≤ e + 1
      · simp [hs, hb, bind, Except.bind, Except.map]
      · cases readFromStrict (e + 1) rows with
        | error => simp [hs, hb, bind, Except.bind, Except.map]
        | ok =>
          by_cases hc : c < e <;>
            simp [hs, hb, hc, bind, Except.bind, Except.map, pure, Except.pure]
    · simp [hs, bind, Except.bind, Except.map]

theorem readFrom_serialized (c : Nat) (rest : List (Option String))
    (h : Forall₂ (fun row text => serialize row = some text) rows t) :
    FileWriter.readFrom c (t.map some ++ rest) = (FileWriter.readFrom c rest).map fun l =>
        (rows.filter fun row => c < row.seq) ++ l := by
  induction h with
  | nil =>
    cases hre : FileWriter.readFrom c rest <;> simp [hre, Except.map]
  | @cons row text rows t hr _ ih =>
    rw [map_cons, cons_append, FileWriter.readFrom, ih]
    cases FileWriter.readFrom c rest with
    | error => rfl
    | ok =>
      by_cases hc : c < row.seq <;>
        simp [not_isBlank hr, parse_serialize hr, hc, Except.map, bind,
          Except.bind, pure, Except.pure]

/-! ## Opening a strict journal -/

theorem Holds.recoverTail_strict (h : Holds rows file) (hf : newline ∉ fragment) :
    FileWriter.recoverTail true (file ++ fragment) = file := by
  obtain ⟨t, -, rfl⟩ := h
  unfold FileWriter.recoverTail
  by_cases hne : fragment = []
  · rw [hne, append_nil]
    by_cases ht : t = []
    · rw [ht]
      rfl
    · rw [getLast?_terminated ht]
      rfl
  · have hl := @getLast?_append_fragment fragment (t.flatMap terminated) hf hne
    cases hg : (t.flatMap terminated ++ fragment).getLast? with
    | none => exact absurd (append_eq_nil_iff.mp (getLast?_eq_none_iff.mp hg)).2 hne
    | some last =>
      rw [hg] at hl
      simp only [if_neg fun heq : last = newline => hl (congrArg some heq)]
      exact completeLines_append hf

theorem openWithReplay_strict (h : Holds rows file) (hf : newline ∉ fragment) :
    FileWriter.openWithReplay true bootId (file ++ fragment) =
      (openStrict bootId rows).map fun writer =>
        (⟨bootId, file, writer.nextSeq, true, false, false⟩, rows) := by
  obtain ⟨t, ht, hfi⟩ := id h
  have hl : lines file = t.map some := by
    have hr := lines_terminated (printable_of_serialized ht) []
    rwa [append_nil, ← hfi, show lines [] = [] from rfl, append_nil] at hr
  simp only [FileWriter.openWithReplay, h.recoverTail_strict hf, FileWriter.read, if_true,
    hl, readFromStrict_serialized 0 1 ht, openStrict]
  cases hr : readFromStrict 1 rows with
  | error => rfl
  | ok =>
    simp only [Except.map, filter_of_readFromStrict hr, bind, Except.bind,
      nextSequence_of_readFromStrict hr]
    rfl

/-! ## The file and the writer of rows -/

/-- A strict file and the writer of rows it stands for. -/
structure Represents (w : FileWriter) (r : LedgerWriter) : Prop where
  bootId : w.bootId = r.bootId
  nextSeq : w.nextSeq = r.nextSeq
  strict : w.strictReplay = true
  unknown : w.writeStateUnknown = r.writeStateUnknown
  isSealed : w.writerSealed = r.writerSealed
  contents : ∃ file fragment, Holds r.records file ∧ newline ∉ fragment ∧
    w.file = file ++ fragment
  healthy : r.writeStateUnknown = false → r.unacknowledged = none ∧ Holds r.lines w.file

variable {w : FileWriter} {r : LedgerWriter}

def rowIo (w : FileWriter) (line : LedgerLine) (now : Nat) : FileIo → AppendIo
  | io =>
    match LineCodec.serialize (w.assign line now), io with
    | none, _ => .refusedEarly
    | some _, .written => .written
    | some text, .failed bytes => .failed (decide ((terminated text).length ≤ bytes))

theorem append_represents (h : Represents w r) (line : LedgerLine) (now : Nat) (io : FileIo) :
    Represents (w.append line now io).1 (r.append line now (rowIo w line now io)).1 ∧
      (w.append line now io).2 = (r.append line now (rowIo w line now io)).2 := by
  have ha : w.assign line now = r.assign line now := by
    rw [FileWriter.assign, assign, h.bootId, h.nextSeq]
  unfold FileWriter.append append
  rw [h.isSealed, h.unknown, h.nextSeq]
  by_cases hs : r.writerSealed = true
  · rw [if_pos hs, if_pos hs]
    exact ⟨h, rfl⟩
  rw [if_neg hs, if_neg hs]
  by_cases hu : r.writeStateUnknown = true
  · rw [if_pos hu, if_pos hu]
    exact ⟨h, rfl⟩
  rw [if_neg hu, if_neg hu]
  by_cases hb : u64Bound ≤ r.nextSeq + 1
  · rw [if_pos hb, if_pos hb]
    exact ⟨h, rfl⟩
  rw [if_neg hb, if_neg hb]
  obtain ⟨hn, hh⟩ := h.healthy (Bool.not_eq_true _ ▸ hu)
  simp only [rowIo]
  rw [ha]
  cases ht : serialize (r.assign line now) with
  | none => exact ⟨h, rfl⟩
  | some text =>
    cases io with
    | written =>
      have hwr := hh.concat ht
      refine ⟨⟨h.bootId, rfl, h.strict, rfl, rfl, ?_, fun _ => ⟨hn, hwr⟩⟩, rfl⟩
      refine ⟨_, [], ?_, not_mem_nil, (append_nil _).symm⟩
      rw [records, wrote, hn]
      simpa using hwr
    | failed bs =>
      refine ⟨⟨h.bootId, rfl, h.strict, rfl, rfl, ?_, fun hhe => (nomatch hhe)⟩, rfl⟩
      by_cases hw : (terminated text).length ≤ bs
      · refine ⟨_, [], ?_, not_mem_nil, (append_nil _).symm⟩
        change Holds _ (w.file ++ (terminated text).take bs)
        rw [take_of_length_le hw]
        simpa [records, tore, hw] using hh.concat ht
      · refine ⟨w.file, (terminated text).take bs, ?_, ?_, rfl⟩
        · simpa [records, tore, hw] using hh
        · exact (printable ht).newline_notMem_take (not_le.mp hw)

theorem openWithReplay_represents (h : Represents w r) (bootId : String) :
    FileWriter.openWithReplay true bootId w.file = (openStrict bootId r.records).map fun writer =>
        (⟨bootId, FileWriter.recoverTail true w.file, writer.nextSeq, true, false, false⟩,
          r.records) := by
  obtain ⟨file, fragment, hh, hf, hfi⟩ := h.contents
  rw [hfi, openWithReplay_strict hh hf, hh.recoverTail_strict hf]

end Cyclops
