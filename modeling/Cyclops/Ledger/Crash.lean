import Cyclops.Ledger.File
import Cyclops.Lib.Runs

/-!
# Crashes of the journal

A crash leaves what was synced and any part of the row that was being written.

Results: `bytes_refine_rows`, `strict_journal_survives`, `lenient_recovers_iff`.
-/

namespace Cyclops

open Checked TextLines FileWriter List Option Bool LineCodec

/-! ## A host with one strict journal -/

/-- What happens to a journal. A crash keeps some first bytes of those not synced. -/
inductive JournalEvent where
  | append (line : LedgerLine) (now : Nat) (io : FileIo)
  | crash (inFlight : Option (LedgerLine × Nat)) (kept : Nat)
  | reopen (bootId : String)

/-- A host, with a writer while the process runs. `acknowledged` and `known` are kept for the
statements. -/
structure JournalHost where
  disk : List UInt8
  writer : Option FileWriter
  acknowledged : List LedgerLine
  known : List LedgerLine

namespace JournalHost

variable [LineCodec]

def new : JournalHost :=
  ⟨[], none, [], []⟩

def step (host : JournalHost) : JournalEvent → JournalHost
  | .append line now io =>
    match host.writer with
    | none => host
    | some writer =>
      match writer.append line now io with
      | (writer, .error _) => { host with writer := some writer }
      | (writer, .ok row) =>
        ⟨writer.file, some writer, host.acknowledged ++ [row], host.known ++ [row]⟩
  | .crash inFlight kept =>
    match host.writer with
    | none => host
    | some writer =>
      let file := match inFlight with
        | none => writer.file
        | some (line, now) => (writer.append line now .written).1.file
      { host with disk := file.take (max host.disk.length kept), writer := none }
  | .reopen bootId =>
    match host.writer with
    | some _ => host
    | none =>
      match openWithReplay true bootId host.disk with
      | .error _ => host
      | .ok (writer, rows) => ⟨writer.file, some writer, host.acknowledged, rows⟩

def run (host : JournalHost) (events : List JournalEvent) : JournalHost :=
  events.foldl step host

end JournalHost

/-! ## What every host keeps -/

variable [LineCodec] {k rows : List LedgerLine} {row : LedgerLine} {text : String}
  {writer : FileWriter} {host : JournalHost} {tail : List UInt8}

def Torn (known : List LedgerLine) (tail : List UInt8) : Prop :=
  tail = [] ∨ ∃ row text, row.seq = known.length + 1 ∧ row.seq + 1 < u64Bound ∧
    serialize row = some text ∧ tail <+: terminated text

variable {part : List UInt8} {line : LedgerLine} {now : Nat} {file : List UInt8} {next : Nat}

theorem Torn.of_part (h : Torn k tail) (hp : part <+: tail) : Torn k part := by
  rcases h with rfl | ⟨row, text, hseq, hbo, hrow, hb⟩
  · exact .inl (prefix_nil.mp hp)
  · exact .inr ⟨row, text, hseq, hbo, hrow, hp.trans hb⟩

/-- What an append does to the file, by what it answers. -/
theorem FileWriter.append_cases (writer : FileWriter) (line : LedgerLine) (now : Nat)
    (io : FileIo) :
    (∃ e, writer.append line now io = (writer, .error e) ∧ e ≠ .io) ∨
    ∃ text, serialize (writer.assign line now) = some text ∧
      writer.writeStateUnknown = false ∧ writer.nextSeq + 1 < u64Bound ∧
      ((io = .written ∧ writer.append line now io =
          ({ writer with file := writer.file ++ terminated text, nextSeq := writer.nextSeq + 1 },
            .ok (writer.assign line now))) ∨
        ∃ bs, io = .failed bs ∧ writer.append line now io = ({ writer with
              file := writer.file ++ (terminated text).take bs
              writeStateUnknown := true }, .error .io)) := by
  unfold append
  split
  · exact .inl ⟨_, rfl, fun h => (nomatch h)⟩
  · split
    · exact .inl ⟨_, rfl, fun h => (nomatch h)⟩
    · next hu =>
      split
      · exact .inl ⟨_, rfl, fun h => (nomatch h)⟩
      · next hb =>
        cases ht : serialize (writer.assign line now) with
        | none => exact .inl ⟨.serialize, by simp only [ht], fun h => (nomatch h)⟩
        | some text =>
          refine .inr ⟨text, rfl, not_eq_true _ ▸ hu, not_le.mp hb, ?_⟩
          cases io with
          | written => exact .inl ⟨rfl, by simp only [ht]⟩
          | failed bs => exact .inr ⟨bs, rfl, by simp only [ht]⟩

theorem FileWriter.append_eq_ok {io : FileIo} {w' : FileWriter}
    (h : writer.append line now io = (w', .ok row)) :
    ∃ text, serialize row = some text ∧ writer.nextSeq + 1 < u64Bound ∧
      row = writer.assign line now ∧
      w' = { writer with
        file := writer.file ++ terminated text, nextSeq := writer.nextSeq + 1 } := by
  rcases writer.append_cases line now io with
    ⟨e, ha, -⟩ | ⟨text, ht, -, hb, ⟨-, ha⟩ | ⟨bs, -, ha⟩⟩
  · cases h.symm.trans ha
  · cases h.symm.trans ha
    exact ⟨text, ht, hb, rfl, rfl⟩
  · cases h.symm.trans ha

theorem FileWriter.seq_of_append {io : FileIo} (h : (writer.append line now io).2 = .ok row) :
    row.seq = writer.nextSeq := by
  obtain ⟨-, -, -, rfl, -⟩ := append_eq_ok (Prod.ext rfl h)
  rfl

theorem FileWriter.append_written (hs : writer.writerSealed = false)
    (hk : writer.writeStateUnknown = false) (hr : writer.nextSeq + 1 < u64Bound)
    (ht : serialize (writer.assign line now) = some text) :
    (writer.append line now .written).2 = .ok (writer.assign line now) := by
  simp only [append, hs, hk, ht, false_eq_true, if_false]
  rw [if_neg (not_le.mpr hr)]

/-- A running process: the synced bytes hold the known rows, and nothing follows them
unless a write failed. -/
structure Running (host : JournalHost) (writer : FileWriter) : Prop where
  holds : Holds host.known host.disk
  strict : writer.strictReplay = true
  nextSeq : writer.nextSeq = host.known.length + 1
  file : ∃ tail, Torn host.known tail ∧ writer.file = host.disk ++ tail ∧
    (writer.writeStateUnknown = false → tail = [])

/-- What every host keeps. -/
structure Intact (host : JournalHost) : Prop where
  numbered : LedgerWriter.readFromStrict 1 host.known = .ok (host.known.length + 1)
  acknowledged : host.acknowledged.Sublist host.known
  down : host.writer = none → ∃ file tail, Holds host.known file ∧ Torn host.known tail ∧
    host.disk = file ++ tail
  up : ∀ writer, host.writer = some writer → Running host writer

theorem intact_new : Intact .new where
  numbered := rfl
  acknowledged := .slnil
  down := fun _ => ⟨[], [], .nil, .inl rfl, rfl⟩
  up := fun _ h => (nomatch h)

theorem Running.append_ok (h : Running host writer)
    (hn : LedgerWriter.readFromStrict 1 host.known = .ok (host.known.length + 1))
    (hs : serialize (writer.assign line now) = some text)
    (hk : writer.writeStateUnknown = false) (hb : writer.nextSeq + 1 < u64Bound) :
    let row := writer.assign line now
    LedgerWriter.readFromStrict 1 (host.known ++ [row]) = .ok ((host.known ++ [row]).length + 1) ∧
      Holds (host.known ++ [row]) (writer.file ++ terminated text) := by
  obtain ⟨tail, -, hf, hh⟩ := h.file
  rw [hh hk, append_nil] at hf
  rw [h.nextSeq] at hb
  refine ⟨?_, hf ▸ h.holds.concat hs⟩
  rw [length_append, length_singleton]
  exact LedgerWriter.readFromStrict_concat hn h.nextSeq hb

open JournalHost

theorem Intact.append (h : Intact host) (line : LedgerLine) (now : Nat) (io : FileIo) :
    Intact (host.step (.append line now io)) := by
  cases hw : host.writer with
  | none =>
    simp only [step, hw]
    exact h
  | some writer =>
    have hr := h.up writer hw
    obtain ⟨tail, -, hfi, hh⟩ := hr.file
    simp only [step, hw]
    rcases writer.append_cases line now io with
      ⟨e, ha, -⟩ | ⟨text, ht, hknown, hb, ⟨-, ha⟩ | ⟨bs, -, ha⟩⟩
    · simp only [ha]
      refine ⟨h.numbered, h.acknowledged, fun hn => (nomatch hn), fun w' hw' => ?_⟩
      cases hw'
      exact ⟨hr.holds, hr.strict, hr.nextSeq, hr.file⟩
    · simp only [ha]
      obtain ⟨hnu, hho⟩ := hr.append_ok h.numbered ht hknown hb
      refine ⟨hnu, h.acknowledged.append (.refl _), fun hn => (nomatch hn), fun w' hw' => ?_⟩
      cases hw'
      refine ⟨hho, hr.strict, ?_, [], .inl rfl, (append_nil _).symm, fun _ => rfl⟩
      simp [hr.nextSeq]
    · simp only [ha]
      refine ⟨h.numbered, h.acknowledged, fun hn => (nomatch hn), fun w' hw' => ?_⟩
      cases hw'
      refine ⟨hr.holds, hr.strict, hr.nextSeq, (terminated text).take bs, ?_, ?_,
        fun hf => (nomatch hf)⟩
      · exact .inr ⟨_, text, hr.nextSeq, hb, ht, take_prefix _ _⟩
      · rw [hfi, hh hknown, append_nil]

theorem Running.inFlight (h : Running host writer) (i : Option (LedgerLine × Nat)) :
    ∃ tail, Torn host.known tail ∧ (match i with
        | none => writer.file
        | some (line, now) => (writer.append line now .written).1.file) = host.disk ++ tail := by
  obtain ⟨tail, ht, hf, hh⟩ := h.file
  cases i with
  | none => exact ⟨tail, ht, hf⟩
  | some a =>
    obtain ⟨line, now⟩ := a
    rcases writer.append_cases line now .written with
      ⟨e, ha, -⟩ | ⟨text, hte, hknown, hb, ⟨-, ha⟩ | ⟨bs, hio, -⟩⟩
    · exact ⟨tail, ht, by simp only [ha]; exact hf⟩
    · refine ⟨terminated text, .inr ⟨_, text, h.nextSeq, hb, hte, prefix_rfl⟩, ?_⟩
      simp only [ha]
      rw [hf, hh hknown, append_nil]
    · cases hio

theorem Intact.crash (h : Intact host) (i : Option (LedgerLine × Nat)) (kept : Nat) :
    Intact (host.step (.crash i kept)) := by
  cases hw : host.writer with
  | none =>
    simp only [step, hw]
    exact h
  | some writer =>
    have hr := h.up writer hw
    obtain ⟨tail, ht, hf⟩ := hr.inFlight i
    simp only [step, hw, hf]
    refine ⟨h.numbered, h.acknowledged, fun _ => ?_, fun _ hn => (nomatch hn)⟩
    refine ⟨host.disk, tail.take (max host.disk.length kept - host.disk.length), hr.holds,
      ht.of_part ( take_prefix _ _), ?_⟩
    change (host.disk ++ tail).take (max host.disk.length kept) = _
    rw [take_append, take_of_length_le (le_max_left _ _)]

theorem open_torn (hh : Holds k file) (ht : Torn k tail)
    (hn : LedgerWriter.readFromStrict 1 k = .ok (k.length + 1)) (b : String) :
    ∃ rows file', (rows = k ∨ ∃ row, rows = k ++ [row]) ∧ Holds rows file' ∧
      LedgerWriter.readFromStrict 1 rows = .ok (rows.length + 1) ∧
      openWithReplay true b (file ++ tail) =
        .ok (⟨b, file', rows.length + 1, true, false, false⟩, rows) := by
  have ho : ∀ {rows file' f}, Holds rows file' → newline ∉ f →
      LedgerWriter.readFromStrict 1 rows = .ok (rows.length + 1) →
      openWithReplay true b (file' ++ f) =
        .ok (⟨b, file', rows.length + 1, true, false, false⟩, rows) := by
    intro rows file' f hh hf hre
    rw [openWithReplay_strict hh hf, LedgerWriter.openStrict, hre]
    rfl
  rcases ht with rfl | ⟨row, text, hseq, hbo, hrow, hb⟩
  · exact ⟨k, file, .inl rfl, hh, hn, ho hh not_mem_nil hn⟩
  rcases eq_or_part_of_part hb with rfl | hp
  · have hr : LedgerWriter.readFromStrict 1 (k ++ [row]) = .ok ((k ++ [row]).length + 1) := by
      rw [length_append, length_singleton]
      exact LedgerWriter.readFromStrict_concat hn hseq (hseq ▸ hbo)
    refine ⟨k ++ [row], file ++ terminated text, .inr ⟨row, rfl⟩, hh.concat hrow, hr, ?_⟩
    have hw := ho (hh.concat hrow) not_mem_nil hr
    rwa [append_nil] at hw
  · exact ⟨k, file, .inl rfl, hh, hn, ho hh ((printable hrow).newline_notMem_part hp) hn⟩

theorem Intact.reopen (h : Intact host) (b : String) : Intact (host.step (.reopen b)) := by
  cases hw : host.writer with
  | some =>
    simp only [step, hw]
    exact h
  | none =>
    obtain ⟨file, tail, hh, ht, hdi⟩ := h.down hw
    obtain ⟨rows, file', hr, hh', hn, ho⟩ :=
      open_torn hh ht h.numbered b
    simp only [step, hw, hdi, ho]
    refine ⟨hn, ?_, fun hno => (nomatch hno), fun writer hw => ?_⟩
    · rcases hr with rfl | ⟨row, rfl⟩
      · exact h.acknowledged
      · exact h.acknowledged.trans (sublist_append_left _ _)
    · cases hw
      exact ⟨hh', rfl, rfl, [], .inl rfl, (append_nil _).symm, fun _ => rfl⟩

theorem intact_run (evs : List JournalEvent) : Intact (new.run evs) :=
  Runs.foldl_invariant Intact (fun host ev h => by
    cases ev with
    | append line now io => exact h.append line now io
    | crash i kept => exact h.crash i kept
    | reopen b => exact h.reopen b) intact_new

/-! ## Bytes and rows -/

/-- The row a failed write left whole is the unacknowledged one. -/
theorem Running.represents (h : Running host writer) :
    ∃ r : LedgerWriter, r.lines = host.known ∧ Represents writer r := by
  obtain ⟨tail, torn, file, whole⟩ := h.file
  let rows (last : Option LedgerLine) : LedgerWriter := ⟨writer.bootId, writer.nextSeq,
    writer.writeStateUnknown, writer.writerSealed, host.known, last⟩
  have cut (part : newline ∉ tail) : Represents writer (rows none) := by
    refine ⟨rfl, rfl, h.strict, rfl, rfl, ⟨_, tail, ?_, part, file⟩, fun ok => ⟨rfl, ?_⟩⟩
    · simpa [LedgerWriter.records, rows] using h.holds
    · rw [file, whole ok, append_nil]
      exact h.holds
  rcases torn with rfl | ⟨row, text, -, -, serialized, part⟩
  · exact ⟨_, rfl, cut not_mem_nil⟩
  rcases eq_or_part_of_part part with rfl | part
  · exact ⟨rows (some row), rfl, rfl, rfl, h.strict, rfl, rfl,
      ⟨_, [], h.holds.concat serialized, not_mem_nil, by rw [append_nil, file]⟩,
      fun ok => absurd (whole ok) (by simp [terminated])⟩
  · exact ⟨_, rfl, cut ((printable serialized).newline_notMem_part part)⟩

/-- In every run a journal that is being written stands for a journal of rows. Both give the next
append the same answer and stay alike, and they find the same rows when they are opened again. -/
theorem bytes_refine_rows (events : List JournalEvent) :
    let host := new.run events
    host.writer = none ∨ ∃ writer, ∃ r : LedgerWriter, host.writer = some writer ∧
      r.lines = host.known ∧ Represents writer r ∧
      (∀ line now io, ∃ rowIo,
        Represents (writer.append line now io).1 (r.append line now rowIo).1 ∧
        (writer.append line now io).2 = (r.append line now rowIo).2) ∧
      ∀ bootId, (openWithReplay true bootId writer.file).map Prod.snd =
        (LedgerWriter.openStrict bootId r.records).map LedgerWriter.lines := by
  intro host
  cases running : host.writer with
  | none => exact .inl rfl
  | some writer =>
    obtain ⟨r, lines, same⟩ := ((intact_run events).up writer running).represents
    refine .inr ⟨writer, r, rfl, lines, same,
      fun line now io => ⟨_, append_represents same line now io⟩, fun bootId => ?_⟩
    rw [openWithReplay_represents same, LedgerWriter.openStrict]
    cases LedgerWriter.readFromStrict 1 r.records <;> rfl

/-! ## After a failed write -/

def JournalEvent.isReopen : JournalEvent → Bool
  | .reopen _ => true
  | _ => false

/-- No process runs, or its writer has lost track of the file. -/
def JournalHost.Stopped (host : JournalHost) : Prop :=
  ∀ writer, host.writer = some writer → writer.writeStateUnknown = true

theorem JournalHost.Stopped.step (h : host.Stopped) {ev : JournalEvent} (he : ev.isReopen = false) :
    (host.step ev).Stopped ∧ (host.step ev).acknowledged = host.acknowledged := by
  cases ev with
  | append line now io =>
    cases hw : host.writer with simp only [JournalHost.step, hw]
    | none => exact ⟨h, trivial⟩
    | some writer =>
      rcases writer.append_cases line now io with ⟨e, ha, -⟩ | ⟨text, -, hk, -⟩
      · simp only [ha]
        refine ⟨fun w' hw' => ?_, trivial⟩
        cases hw'
        exact h writer hw
      · cases hk.symm.trans (h writer hw)
  | crash =>
    cases hw : host.writer with simp only [JournalHost.step, hw]
    | none => exact ⟨h, trivial⟩
    | some => exact ⟨fun _ hn => (nomatch hn), trivial⟩
  | reopen => cases he

theorem JournalHost.Stopped.run (h : host.Stopped) {evs : List JournalEvent}
    (he : ∀ ev ∈ evs, ev.isReopen = false) :
    (host.run evs).acknowledged = host.acknowledged := by
  induction evs generalizing host with
  | nil => rfl
  | cons ev evs ih =>
    obtain ⟨hev, hr⟩ := forall_mem_cons.mp he
    obtain ⟨hs, hsa⟩ := h.step hev
    exact (ih hs hr).trans hsa

theorem stopped_of_failed {io : FileIo} (hw : host.writer = some writer)
    (hf : (writer.append line now io).2 = .error .io) :
    (host.step (.append line now io)).Stopped ∧
      (host.step (.append line now io)).acknowledged = host.acknowledged := by
  simp only [step, hw]
  rcases writer.append_cases line now io with
    ⟨e, ha, hne⟩ | ⟨text, -, -, -, ⟨-, ha⟩ | ⟨bs, -, ha⟩⟩
  · rw [ha] at hf
    cases hf
    exact absurd rfl hne
  · rw [ha] at hf
    cases hf
  · simp only [ha]
    refine ⟨fun w' hw' => ?_, trivial⟩
    cases hw'
    rfl

/-- After every crash a strict journal returns the rows known before, followed by at most one more,
numbered without gaps; after a failed write nothing is acknowledged. -/
theorem strict_journal_survives (events : List JournalEvent) :
    let host := new.run events
    host.acknowledged.Sublist host.known ∧
    (host.writer = none → ∀ bootId, ∃ writer rows,
      openWithReplay true bootId host.disk = .ok (writer, rows) ∧
      (rows = host.known ∨ ∃ row, rows = host.known ++ [row]) ∧
      Holds rows writer.file ∧
      rows.map LedgerLine.seq = List.range' 1 rows.length ∧
      ∀ line now text, serialize (writer.assign line now) = some text →
        rows.length + 2 < u64Bound →
        ∃ row, (writer.append line now .written).2 = .ok row ∧ row.seq = rows.length + 1) ∧
    (∀ writer, host.writer = some writer →
      Holds host.known host.disk ∧
      host.known.map LedgerLine.seq = List.range' 1 host.known.length ∧
      (∀ line now io row, (writer.append line now io).2 = .ok row →
        row.seq = host.known.length + 1) ∧
      ∀ line now io more, (writer.append line now io).2 = .error .io →
        (∀ event ∈ more, event.isReopen = false) →
        (host.run (.append line now io :: more)).acknowledged = host.acknowledged) := by
  intro host
  have h : Intact host := intact_run events
  refine ⟨h.acknowledged, fun hdo bootId => ?_, fun writer hw => ?_⟩
  · obtain ⟨file, tail, hh, hto, hdi⟩ := h.down hdo
    obtain ⟨rows, file', hro, hh', hn, ho⟩ :=
      open_torn hh hto h.numbered bootId
    refine ⟨_, rows, hdi ▸ ho, hro, hh',
      (LedgerWriter.seq_of_readFromStrict hn).1, fun line now text ht hb => ?_⟩
    exact ⟨_, append_written rfl rfl hb ht, rfl⟩
  · have hr := h.up writer hw
    refine ⟨hr.holds, (LedgerWriter.seq_of_readFromStrict h.numbered).1,
      fun line now io row hok => ?_, fun line now io more hf hm => ?_⟩
    · exact (seq_of_append hok).trans hr.nextSeq
    · obtain ⟨hs, hsa⟩ := stopped_of_failed hw hf
      exact (hs.run hm).trans hsa

/-! ## Two rows and their texts (used by the concrete runs) -/

def sampleRow (seq : Nat) : LedgerLine :=
  ⟨seq, "boot", "m-1", 5, .msg, "lead", ["worker"], none, some "é", none, [], none⟩

def sampleText (digit : String) : String :=
  "\x7b\"seq\":" ++ digit ++ ",\"boot_id\":\"boot\",\"id\":\"m-1\",\"ts\":5,\"kind\":\"msg\"," ++
    "\"from\":\"lead\",\"to\":[\"worker\"],\"body\":\"é\"\x7d"

omit [LineCodec] in
theorem sample_cases {line : LedgerLine} {text : String}
    (h : (if line = sampleRow 1 then some (sampleText "1")
      else if line = sampleRow 2 then some (sampleText "2") else none) = some text) :
    line = sampleRow 1 ∧ text = sampleText "1" ∨ line = sampleRow 2 ∧ text = sampleText "2" := by
  split_ifs at h with h1 h2
  · exact .inl ⟨h1, (some.inj h).symm⟩
  · exact .inr ⟨h2, (some.inj h).symm⟩

@[reducible] def sampleCodec : LineCodec where
  serialize := fun line =>
    if line = sampleRow 1 then some (sampleText "1")
    else if line = sampleRow 2 then some (sampleText "2")
    else none
  parse := fun text =>
    if text = sampleText "1" then .ok (sampleRow 1)
    else if text = sampleText "2" then .ok (sampleRow 2)
    else .error "EOF while parsing an object"
  parse_serialize := by
    intro line text h
    rcases sample_cases h with ⟨rfl, rfl⟩ | ⟨rfl, rfl⟩
    · rw [if_pos rfl]
    · rw [if_neg (by decide +kernel), if_pos rfl]
  printable := by
    intro line text h
    rcases sample_cases h with ⟨rfl, rfl⟩ | ⟨rfl, rfl⟩ <;> decide +kernel
  opens := by
    intro line text h
    rcases sample_cases h with ⟨rfl, rfl⟩ | ⟨rfl, rfl⟩ <;> decide +kernel
  parse_part := by
    intro line text part h hpart hne
    refine ⟨"EOF while parsing an object", ?_⟩
    rcases sample_cases h with ⟨rfl, rfl⟩ | ⟨rfl, rfl⟩
    · rw [if_neg hne, if_neg]
      rintro rfl
      revert hpart
      decide +kernel
    · rw [if_neg, if_neg hne]
      rintro rfl
      revert hpart
      decide +kernel

/-- A journal that has acknowledged one row. -/
def sampleEvents : List JournalEvent := [.reopen "boot", .append (sampleRow 0) 5 .written]

omit [LineCodec] in
theorem sample_bytes_refine :
    letI := sampleCodec
    ∃ writer, ∃ r : LedgerWriter, (new.run sampleEvents).writer = some writer ∧
      r.lines = [sampleRow 1] ∧ Represents writer r := by
  let := sampleCodec
  have hf : (new.run sampleEvents).writer.isSome = true ∧
      (new.run sampleEvents).known = [sampleRow 1] := by decide +kernel
  obtain hnone | ⟨writer, r, hw, hl, hr, -⟩ := bytes_refine_rows sampleEvents
  · rw [hnone] at hf
    cases hf.1
  · exact ⟨writer, r, hw, hl.trans hf.2, hr⟩

omit [LineCodec] in
/-- A crash cuts the second row; the first is there when the journal opens. -/
theorem sample_journal_survives :
    letI := sampleCodec
    let host := new.run (sampleEvents ++ [.crash (some (sampleRow 0, 5)) 100])
    host.acknowledged = [sampleRow 1] ∧ ∃ writer rows,
      openWithReplay true "next" host.disk = .ok (writer, rows) ∧
      (rows = [sampleRow 1] ∨ ∃ row, rows = [sampleRow 1] ++ [row]) ∧ Holds rows writer.file := by
  intro host
  have hf : host.writer = none ∧ host.acknowledged = [sampleRow 1] ∧
      host.known = [sampleRow 1] := by decide +kernel
  obtain ⟨hdown, hack, hknown⟩ := hf
  obtain ⟨-, hopen, -⟩ :=
    @strict_journal_survives sampleCodec (sampleEvents ++ [.crash (some (sampleRow 0, 5)) 100])
  obtain ⟨writer, rows, ho, hrows, hh, -⟩ := hopen hdown "next"
  refine ⟨hack, writer, rows, ho, ?_, hh⟩
  rw [← hknown]
  exact hrows

def sampleCrashes : List JournalEvent := [ .reopen "boot", .crash (some (sampleRow 0, 5)) 1000,
  .reopen "boot", .crash (some (sampleRow 0, 5)) 1000]

omit [LineCodec] in
/-- No append was acknowledged, and the journal opens with two rows. -/
theorem unacknowledged_rows_accumulate :
    letI := sampleCodec
    let host := new.run sampleCrashes
    host.writer = none ∧
      ¬ ∃ writer rows, openWithReplay true "boot" host.disk = .ok (writer, rows) ∧
        (rows = host.acknowledged ∨ ∃ row, rows = host.acknowledged ++ [row]) := by
  let := sampleCodec
  have hf : (new.run sampleCrashes).writer = none ∧ (new.run sampleCrashes).acknowledged = [] ∧
      ((openWithReplay true "boot" (new.run sampleCrashes).disk).toOption.map Prod.snd) =
          some [sampleRow 1, sampleRow 2] := by
    decide +kernel
  obtain ⟨hdown, hnone, htwo⟩ := hf
  refine ⟨hdown, ?_⟩
  rintro ⟨writer, rows, hopen, hfew⟩
  rw [hopen] at htwo
  cases some.inj htwo
  rcases hfew with hempty | ⟨row, hone⟩
  · cases hempty
  · cases hone

/-! ## A lenient journal up to one crash -/

/-- A lenient journal that appends and reopens without a crash, and the rows it
acknowledged. -/
inductive LenientSession : FileWriter → List LedgerLine → Prop where
  | create {bootId : String} {writer : FileWriter} {found : List LedgerLine} :
      openWithReplay false bootId [] = .ok (writer, found) → LenientSession writer []
  | append {writer writer' : FileWriter} {rows : List LedgerLine} {line row : LedgerLine}
      {now : Nat} {io : FileIo} : LenientSession writer rows →
      writer.append line now io = (writer', .ok row) → LenientSession writer' (rows ++ [row])
  | reopen {writer writer' : FileWriter} {rows found : List LedgerLine} {bootId : String} :
      LenientSession writer rows →
      openWithReplay false bootId writer.file = .ok (writer', found) →
      LenientSession writer' rows

/-- The row in the bytes a crash left of a line, if they are a complete record. -/
def completeRecord (part : List UInt8) : Option LedgerLine :=
  match decode (chomp part) with
  | none => none
  | some text => if isBlank text then none else (parse text).toOption

theorem Holds.readFrom {rest : List UInt8} (h : Holds rows file) :
    readFrom 0 (lines (file ++ rest)) = (readFrom 0 (lines rest)).map fun l =>
        (rows.filter fun row => decide (0 < row.seq)) ++ l := by
  obtain ⟨t, ht, rfl⟩ := h
  rw [lines_terminated (printable_of_serialized ht), readFrom_serialized 0 _ ht]

theorem readFrom_line (line : Option String) : readFrom 0 [line] =
      match line with
      | none => .error .io
      | some text =>
        .ok ((if isBlank text then none else (parse text).toOption).filter
          fun row => decide (0 < row.seq)).toList := by
  cases line with
  | none => rfl
  | some text =>
    simp only [readFrom, bind, Except.bind, pure, Except.pure]
    cases isBlank text with
    | true => rfl
    | false =>
      cases parse text with
      | error => rfl
      | ok row =>
        by_cases hseq : 0 < row.seq <;> simp [hseq, Except.toOption, Option.filter]

structure Recorded (writer : FileWriter) (rows : List LedgerLine) : Prop where
  lenient : writer.strictReplay = false
  holds : Holds rows writer.file
  numbered : LedgerWriter.readFromStrict 1 rows = .ok writer.nextSeq

theorem Holds.recoverTail_lenient (h : Holds rows file) : recoverTail false file = file := by
  obtain ⟨t, -, rfl⟩ := h
  unfold recoverTail
  by_cases ht : t = []
  · rw [ht]
    rfl
  · rw [getLast?_terminated ht]
    rfl

theorem Holds.read_lenient (h : Holds rows file)
    (hn : LedgerWriter.readFromStrict 1 rows = .ok next) :
    read false 0 file = .ok rows := by
  have hl := @Holds.readFrom _ rows file [] h
  rw [append_nil, filter_of_readFromStrict hn] at hl
  refine hl.trans ?_
  exact congrArg Except.ok (append_nil rows)

theorem openWithReplay_lenient (b : String) (hr : read false 0 (recoverTail false file) = .ok rows)
    (hn : LedgerWriter.readFromStrict 1 rows = .ok next) :
    openWithReplay false b file =
      .ok (⟨b, recoverTail false file, next, false, false, false⟩, rows) := by
  simp only [openWithReplay, hr, bind, Except.bind, nextSequence_of_readFromStrict hn]
  rfl

theorem Holds.open_lenient (h : Holds rows file)
    (hn : LedgerWriter.readFromStrict 1 rows = .ok next) (b : String) :
    openWithReplay false b file = .ok (⟨b, file, next, false, false, false⟩, rows) := by
  have ho := @openWithReplay_lenient _ rows file next b
    (h.recoverTail_lenient.symm ▸ h.read_lenient hn) hn
  rwa [h.recoverTail_lenient] at ho

theorem LenientSession.recorded (h : LenientSession writer rows) : Recorded writer rows := by
  induction h with
  | create ho =>
    cases (Holds.nil.open_lenient rfl _).symm.trans ho
    exact ⟨rfl, .nil, rfl⟩
  | @append writer w' rows line row now io _ ha ih =>
    obtain ⟨text, ht, hb, rfl, rfl⟩ := append_eq_ok ha
    exact ⟨ih.lenient, ih.holds.concat ht, LedgerWriter.readFromStrict_concat ih.numbered rfl hb⟩
  | reopen _ ho ih =>
    cases (ih.holds.open_lenient ih.numbered _).symm.trans ho
    exact ⟨rfl, ih.holds, ih.numbered⟩

/-! ## What one crash leaves -/

theorem completeRecord_terminated (hrow : serialize row = some text) :
    completeRecord (terminated text) = some row := by
  simp only [completeRecord, terminated,
    chomp_terminated (printable hrow).carriageReturn_notMem, decode_encode,
    not_isBlank hrow, parse_serialize hrow]
  rfl

theorem completeRecord_part (hrow : serialize row = some text) (hpa : part <+: terminated text) :
    completeRecord part = none ∨ completeRecord part = some row := by
  rcases eq_or_part_of_part hpa with rfl | hb
  · exact .inr (completeRecord_terminated hrow)
  unfold completeRecord
  rw [chomp_fragment ((printable hrow).newline_notMem_part hb)]
  cases hde : decode part with
  | none => exact .inl rfl
  | some f =>
    by_cases hf : f = text
    · refine .inr ?_
      simp only [hf, not_isBlank hrow, parse_serialize hrow]
      rfl
    · obtain ⟨e, hp⟩ := parse_part hrow (decode_eq_some.mp hde ▸ hb) hf
      refine .inl ?_
      simp only [hp]
      exact ite_self _

omit [LineCodec] in
theorem recoverTail_fragment {f : List UInt8} (h : newline ∉ f) (hne : f ≠ []) :
    recoverTail false (file ++ f) = file ++ (f ++ [newline]) := by
  have hl := @getLast?_append_fragment f file h hne
  unfold recoverTail
  cases hg : (file ++ f).getLast? with
  | none => exact absurd (append_eq_nil_iff.mp (getLast?_eq_none_iff.mp hg)).2 hne
  | some last =>
    rw [hg] at hl
    simp only [if_neg fun heq : last = newline => hl (congrArg some heq), false_eq_true,
      if_false, append_assoc]

section

variable (h : Recorded writer rows) (hrow : serialize row = some text)
    (hseq : row.seq = writer.nextSeq)

include h hrow hseq

theorem Recorded.read_fragment (hpa : part <+: encode text) :
    read false 0 (writer.file ++ (part ++ [newline])) =
      match decode part with
      | none => .error .io
      | some _ => .ok (rows ++ (completeRecord part).toList) := by
  have hp := printable hrow
  have hf : newline ∉ part := hp.newline_notMem_part hpa
  have hre : carriageReturn ∉ part := fun hm =>
    hp.carriageReturn_notMem (hpa.subset hm)
  have hpo : 0 < row.seq := by
    rw [hseq, (LedgerWriter.seq_of_readFromStrict h.numbered).2]
    omega
  change readFrom 0 (lines _) = _
  rw [h.holds.readFrom, filter_of_readFromStrict h.numbered, lines_concat_newline hf hre,
    readFrom_line]
  cases hde : decode part with
  | none => rfl
  | some f =>
    have hr := completeRecord_part hrow (hpa.trans (prefix_append _ _))
    have hrea : completeRecord part =
        if isBlank f then none else (parse f).toOption := by
      simp only [completeRecord, chomp_fragment hf, hde]
    simp only [← hrea]
    rcases hr with hn | hs
    · rw [hn]
      rfl
    · rw [hs]
      simp [Except.map, hpo]

theorem Recorded.numbered_part (hb : writer.nextSeq + 1 < u64Bound)
    (hp : part <+: terminated text) :
    ∃ next, LedgerWriter.readFromStrict 1 (rows ++ (completeRecord part).toList) = .ok next := by
  rcases completeRecord_part hrow hp with hn | hs
  · refine ⟨writer.nextSeq, ?_⟩
    rw [hn]
    simpa using h.numbered
  · refine ⟨writer.nextSeq + 1, ?_⟩
    rw [hs]
    exact LedgerWriter.readFromStrict_concat h.numbered hseq hb

theorem Recorded.read_part (hbo : writer.nextSeq + 1 < u64Bound) (hp : part <+: terminated text) :
    read false 0 (recoverTail false (writer.file ++ part)) =
      match decode part with
      | none => .error .io
      | some _ => .ok (rows ++ (completeRecord part).toList) := by
  rcases eq_or_part_of_part hp with rfl | hb
  · have hh := h.holds.concat hrow
    rw [hh.recoverTail_lenient, hh.read_lenient
      (LedgerWriter.readFromStrict_concat h.numbered hseq hbo), completeRecord_terminated hrow,
      terminated, decode_terminated]
    rfl
  · by_cases hne : part = []
    · rw [hne, append_nil, h.holds.recoverTail_lenient, h.holds.read_lenient h.numbered]
      have he : decode [] = some "" := decode_encode ""
      simp only [completeRecord, show chomp [] = [] from rfl, he,
        show isBlank "" = true from rfl, if_true, toList_none, append_nil]
    · rw [recoverTail_fragment ((printable hrow).newline_notMem_part hb) hne]
      exact h.read_fragment hrow hseq hb

end

/-- After a crash within a line a lenient journal recovers exactly when the part that is left is
text. -/
theorem lenient_recovers_iff {writer writer' : FileWriter} {rows : List LedgerLine}
    (h : LenientSession writer rows) {line row : LedgerLine} {now : Nat}
    (hflight : writer.append line now .written = (writer', .ok row)) {part : List UInt8}
    (hpart : writer.file ++ part <+: writer'.file) (bootId : String) :
    (∃ opened found, openWithReplay false bootId (writer.file ++ part) = .ok (opened, found) ∧
      opened.readAfter 0 = .ok (rows ++ (completeRecord part).toList) ∧
      (completeRecord part = none ∨ completeRecord part = some row) ∧
      (∀ line now text, serialize (opened.assign line now) = some text →
        opened.nextSeq + 1 < u64Bound → ∃ next, (opened.append line now .written).2 = .ok next) ∧
      ∀ line now io next, (opened.append line now io).2 = .ok next →
        ∀ earlier ∈ rows ++ (completeRecord part).toList, earlier.seq < next.seq) ↔
    (decode part).isSome = true := by
  have hrecorded := h.recorded
  obtain ⟨text, hrow, hbound, rfl, rfl⟩ := append_eq_ok hflight
  rw [prefix_append_right_inj] at hpart
  have hread := hrecorded.read_part hrow rfl hbound hpart
  constructor
  · rintro ⟨opened, found, hopen, -⟩
    rw [← not_isNone, not_eq_true', ← not_eq_true, isNone_iff_eq_none]
    intro hnotText
    rw [hnotText] at hread
    simp only [openWithReplay, hread] at hopen
    cases hopen
  · intro hs
    obtain ⟨found, hfound⟩ := isSome_iff_exists.mp hs
    rw [hfound] at hread
    obtain ⟨next, hnumbered⟩ := hrecorded.numbered_part hrow rfl hbound hpart
    refine ⟨_, _, openWithReplay_lenient bootId hread hnumbered, hread,
      completeRecord_part hrow hpart, fun line' now' text' ht hroom => ?_,
      fun line' now' io next' hok earlier hm => ?_⟩
    · exact ⟨_, append_written rfl rfl hroom ht⟩
    · obtain ⟨hseqs, hnext⟩ := LedgerWriter.seq_of_readFromStrict hnumbered
      have hseq := hseqs ▸ mem_map_of_mem hm
      rw [mem_range'_1] at hseq
      have hnum : next'.seq = next := seq_of_append hok
      omega

def emptyWriter : FileWriter :=
  ⟨"boot", [], 1, false, false, false⟩

def nextWriter (writer : FileWriter) : FileWriter :=
  letI := sampleCodec
  (writer.append (sampleRow 0) 5 .written).1

def samplePart (missing : Nat) : List UInt8 :=
  (encode (sampleText "2")).take ((encode (sampleText "2")).length - missing)

omit [LineCodec] in
theorem sample_session :
    letI := sampleCodec
    LenientSession (nextWriter emptyWriter) [sampleRow 1] ∧
      (nextWriter emptyWriter).append (sampleRow 0) 5 .written =
        (nextWriter (nextWriter emptyWriter), .ok (sampleRow 2)) ∧
      ∀ m, (nextWriter emptyWriter).file ++ samplePart m <+:
        (nextWriter (nextWriter emptyWriter)).file := by
  let := sampleCodec
  have hc : openWithReplay false "boot" [] = .ok (emptyWriter, []) := by rfl
  have hf : (emptyWriter.append (sampleRow 0) 5 .written).2.toOption = some (sampleRow 1) ∧
      ((nextWriter emptyWriter).append (sampleRow 0) 5 .written).2.toOption = some (sampleRow 2) ∧
      (nextWriter (nextWriter emptyWriter)).file =
        (nextWriter emptyWriter).file ++ (encode (sampleText "2") ++ [newline]) := by
    decide +kernel
  obtain ⟨ho, ht, hfi⟩ := hf
  have ha : ∀ {x : FileWriter × Except LedgerError LedgerLine} {row},
      x.2.toOption = some row → x = (x.1, .ok row) := by
    rintro ⟨writer, _ | row⟩ row' hrow
    · cases hrow
    · cases hrow
      rfl
  refine ⟨.append (.create hc) (ha ho), ha ht, fun m => ?_⟩
  rw [hfi, prefix_append_right_inj]
  exact ( take_prefix _ _).trans (prefix_append _ _)

omit [LineCodec] in
/-- The second row cut before its closing brace. -/
theorem cut_row_recovered :
    letI := sampleCodec
    ∃ opened found, openWithReplay false "next"
        ((nextWriter emptyWriter).file ++ samplePart 1) = .ok (opened, found) ∧
      opened.readAfter 0 = .ok [sampleRow 1] := by
  let := sampleCodec
  obtain ⟨hs, hfl, hp⟩ := sample_session
  have hf : (decode (samplePart 1)).isSome = true ∧ completeRecord (samplePart 1) = none := by
    decide +kernel
  obtain ⟨opened, found, ho, hr, -⟩ :=
    (lenient_recovers_iff hs hfl (hp 1) "next").mpr hf.1
  exact ⟨opened, found, ho, hr⟩

omit [LineCodec] in
/-- The second row cut inside its body, between the two bytes of a character. -/
theorem cut_character_not_recovered :
    letI := sampleCodec
    LenientSession (nextWriter emptyWriter) [sampleRow 1] ∧
      (nextWriter emptyWriter).append (sampleRow 0) 5 .written =
        (nextWriter (nextWriter emptyWriter), .ok (sampleRow 2)) ∧
      (nextWriter emptyWriter).file ++ samplePart 3 <+: (nextWriter (nextWriter emptyWriter)).file ∧
      (openWithReplay false "next"
        ((nextWriter emptyWriter).file ++ samplePart 3)).toOption = none := by
  let := sampleCodec
  obtain ⟨hs, hf, hp⟩ := sample_session
  exact ⟨hs, hf, hp 3, by decide +kernel⟩

end Cyclops
