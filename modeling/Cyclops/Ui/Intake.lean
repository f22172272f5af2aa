import Mathlib.Data.List.Nodup
import Mathlib.Data.Prod.Lex

/-!
# Startup merging of the event stream

A connection starts with three answers of different age: the tail of the journals, the daemon's
status, and the events that arrive meanwhile.

Result: `merges_iff`.
-/

namespace Cyclops.Stream

open List

variable {κ σ : Type}

/-! ## The answer of the daemon -/

structure Line (κ : Type) where
  session : String
  seq : Nat
  ts : Nat
  kind : κ

structure Journal (κ : Type) where
  session : String
  rows : List (Nat × κ)

def Journal.lines (j : Journal κ) : List (Line κ) :=
  (j.rows.zipIdx 1).map fun row => ⟨j.session, row.2, row.1.1, row.1.2⟩

structure StreamBackfillResult (κ : Type) where
  maxSeq : Option Nat
  lines : List (Line κ)
  unreadableSources : Nat
  omittedRows : Nat

def singleSourceMaxSeq (sourceCount : Nat) (lines : List (Line κ)) : Option Nat :=
  if sourceCount = 1 then (lines.map Line.seq).max? else none

def streamBackfillItemCap : Nat := 4096

structure Backfill (κ : Type) where
  files : List (Journal κ)
  unreadableSources : Nat
  presentable : κ → Bool
  /-- The encoded answer stays in its frame. -/
  fits : StreamBackfillResult κ → Bool
  limit : Nat

namespace Backfill

variable (b : Backfill κ)

/-- Lines are given up, the first ones first, until the answer fits. -/
def candidate (omitted : Nat) : List (Line κ) → StreamBackfillResult κ
  | [] => ⟨singleSourceMaxSeq b.files.length ([] : List (Line κ)), [], b.unreadableSources, omitted⟩
  | line :: rest =>
    let answer := ⟨singleSourceMaxSeq b.files.length (line :: rest), line :: rest,
      b.unreadableSources, omitted⟩
    if b.fits answer then answer else candidate (omitted + 1) rest

/-- The rows by time and sequence. The sort is stable, so that the order of the sources decides
the rest. -/
def rows : List (Line κ) :=
  (b.files.flatMap fun j => j.lines.filter fun line => b.presentable line.kind).mergeSort
    fun l l' => toLex (l.ts, l.seq) ≤ toLex (l'.ts, l'.seq)

def streamBackfill : StreamBackfillResult κ :=
  let retained := min b.limit streamBackfillItemCap
  let omitted := if streamBackfillItemCap < b.limit then b.rows.length - retained else 0
  b.candidate omitted (b.rows.drop (b.rows.length - retained))

end Backfill

/-! ## Intake -/

/-- A stream entry. The source's entries do not name the session whose journal they are from. -/
structure Entry (κ : Type) where
  session : String
  ts : Nat
  seq : Option Nat
  kind : κ

/-- A presentable line always has an entry. -/
def Entry.fromLedger (line : Line κ) : Entry κ :=
  ⟨line.session, line.ts, some line.seq, line.kind⟩

def Entry.line? (e : Entry κ) : Option (String × Nat) :=
  e.seq.map (e.session, ·)

structure Intake (κ σ : Type) where
  backfilled : Bool := false
  pending : List (Entry κ) := []
  pendingStatus : Option σ := none
  maxSeq : Option Nat := none

structure Backfilled (κ σ : Type) where
  replayed : List (Entry κ)
  seed : Option σ
  live : List (Entry κ)

def dup (maxSeq : Option Nat) (e : Entry κ) : Bool :=
  match e.seq, maxSeq with
  | some s, some m => s ≤ m
  | _, _ => false

/-- The three answers. -/
inductive StreamInput (κ σ : Type) where
  | live (e : Entry κ)
  | status (seed : σ)
  | backfill (entries : List (Entry κ)) (maxSeq : Option Nat)

/-- What is shown. -/
inductive StreamUpdate (κ σ : Type) where
  | replay (e : Entry κ)
  | status (seed : σ)
  | live (e : Entry κ)
  | notice (text : String)

def StreamUpdate.live? : StreamUpdate κ σ → Option (Entry κ)
  | live e => some e
  | _ => none

namespace Intake

variable (i : Intake κ σ)

def entry (e : Entry κ) : Intake κ σ × List (Entry κ) :=
  if !i.backfilled then ({ i with pending := i.pending ++ [e] }, [])
  else (i, if dup i.maxSeq e then [] else [e])

def status (seed : σ) : Intake κ σ × Option σ :=
  if i.backfilled then (i, some seed) else ({ i with pendingStatus := some seed }, none)

def backfill (entries : List (Entry κ)) (maxSeq : Option Nat) : Intake κ σ × Backfilled κ σ :=
  (⟨true, [], none, maxSeq⟩, ⟨entries, i.pendingStatus, i.pending.filter fun e => !dup maxSeq e⟩)

def apply : StreamInput κ σ → Intake κ σ × List (StreamUpdate κ σ)
  | .live e => ((i.entry e).1, (i.entry e).2.map .live)
  | .status seed => ((i.status seed).1, (i.status seed).2.toList.map .status)
  | .backfill entries maxSeq =>
    let landed := (i.backfill entries maxSeq).2
    ((i.backfill entries maxSeq).1,
      landed.replayed.map .replay ++ landed.seed.toList.map .status ++ landed.live.map .live)

def updates : Intake κ σ → List (StreamInput κ σ) → List (StreamUpdate κ σ)
  | _, [] => []
  | i, input :: rest => (i.apply input).2 ++ updates (i.apply input).1 rest

end Intake

/-! ## A connection epoch -/

/-- What a viewer is to see. -/
inductive Fact (κ σ : Type) where
  | live (e : Entry κ)
  | status (seed : σ)

namespace Fact

def input : Fact κ σ → StreamInput κ σ
  | live e => .live e
  | status seed => .status seed

def live? : Fact κ σ → Option (Entry κ)
  | live e => some e
  | status _ => none

def status? : Fact κ σ → Option σ
  | live _ => none
  | status seed => some seed

def shown (maxSeq : Option Nat) : Fact κ σ → List (StreamUpdate κ σ)
  | live e => if dup maxSeq e then [] else [.live e]
  | status seed => [.status seed]

end Fact

structure Epoch (κ σ : Type) where
  source : Backfill κ
  before : List (Fact κ σ)
  after : List (Fact κ σ)
  one : ((before ++ after).filterMap Fact.status?).length ≤ 1
  once : (((before ++ after).filterMap Fact.live?).filterMap Entry.line?).Nodup

namespace Epoch

variable (ep : Epoch κ σ)

def answer : StreamBackfillResult κ :=
  ep.source.streamBackfill

def updates : List (StreamUpdate κ σ) :=
  Intake.updates {} (ep.before.map Fact.input ++
    .backfill (ep.answer.lines.map .fromLedger) ep.answer.maxSeq :: ep.after.map Fact.input)

def live : List (Entry κ) :=
  (ep.before ++ ep.after).filterMap Fact.live?

def Seen (e : Entry κ) : Prop :=
  ∃ line ∈ ep.answer.lines, e.line? = some (line.session, line.seq)

instance : DecidablePred ep.Seen := fun _ => inferInstanceAs (Decidable (∃ _ ∈ _, _))

def ordered (later : List (Entry κ)) : List (StreamUpdate κ σ) :=
  ep.answer.lines.map (fun line => .replay (.fromLedger line)) ++
    ((ep.before ++ ep.after).filterMap Fact.status?).map .status ++ later.map .live

/-- The tail, the status, and every event whose line is not in the tail. -/
def Merged : Prop :=
  ∃ later, ep.updates = ep.ordered later ∧ later.Sublist ep.live ∧
    (later.filter fun e => ¬ ep.Seen e) = (ep.live.filter fun e => ¬ ep.Seen e) ∧
    ∀ j, ep.source.files = [j] →
      ((ep.answer.lines.map Entry.fromLedger ++ later).filterMap Entry.line?).Nodup

/-- Whatever is dropped is in the tail, and no event is shown before the status. -/
def Settled : Prop :=
  (∀ e ∈ ep.live, dup ep.answer.maxSeq e = true → ep.Seen e) ∧
  ∀ p seed q, ep.after = p ++ .status seed :: q →
    ∀ e ∈ (ep.before ++ p).filterMap Fact.live?, dup ep.answer.maxSeq e = true

end Epoch

/-! ## What is shown -/

variable {f : List (Fact κ σ)}

theorem Intake.updates_before {pending : List (Entry κ)}
    {seed : Option σ} {rest : List (StreamInput κ σ)} :
    updates ⟨false, pending, seed, none⟩ (f.map Fact.input ++ rest) =
      updates ⟨false, pending ++ f.filterMap Fact.live?,
        (f.filterMap Fact.status?).getLast?.or seed, none⟩ rest := by
  induction f generalizing pending seed with
  | nil => simp
  | cons fact f ih =>
    cases fact with
    | live e =>
      change updates ⟨false, pending ++ [e], seed, none⟩ (f.map Fact.input ++ rest) = _
      rw [ih, append_assoc]
      rfl
    | status s =>
      have hs : (f.filterMap Fact.status?).getLast?.or (some s) =
          (s :: f.filterMap Fact.status?).getLast?.or seed := by
        cases f.filterMap Fact.status? <;> simp [getLast?_cons]
      change updates ⟨false, pending, some s, none⟩ (f.map Fact.input ++ rest) = _
      rw [ih, hs]
      rfl

theorem Intake.updates_after {i : Intake κ σ} (hi : i.backfilled = true) :
    i.updates (f.map Fact.input) = f.flatMap (Fact.shown i.maxSeq) := by
  induction f with
  | nil => rfl
  | cons fact f ih =>
    cases fact with
    | live e =>
      rw [map_cons, updates, flatMap_cons, ← ih]
      cases hd : dup i.maxSeq e <;> simp [Fact.input, apply, entry, hi, hd, Fact.shown]
    | status s => simp [Fact.input, updates, apply, status, hi, ih, Fact.shown]

theorem shown_live {m : Option Nat} (h : f.filterMap Fact.status? = []) :
    f.flatMap (Fact.shown m) = ((f.filterMap Fact.live?).filter fun e => !dup m e).map .live := by
  induction f with
  | nil => rfl
  | cons fact f ih =>
    cases fact with
    | live e =>
      rw [flatMap_cons, ih (by simpa [Fact.status?] using h)]
      cases hd : dup m e <;> simp [Fact.shown, Fact.live?, hd]
    | status => simp [Fact.status?] at h

theorem live_shown {m : Option Nat} : (f.flatMap (Fact.shown m)).filterMap StreamUpdate.live? =
      (f.filterMap Fact.live?).filter fun e => !dup m e := by
  induction f with
  | nil => rfl
  | cons fact f ih =>
    rw [flatMap_cons, filterMap_append, ih]
    cases fact with
    | live e => cases hd : dup m e <;> simp [Fact.shown, Fact.live?, StreamUpdate.live?, hd]
    | status => rfl

/-! ## A single journal -/

theorem Backfill.candidate_spec (b : Backfill κ) (o : Nat) (ls : List (Line κ)) :
    (b.candidate o ls).lines.Sublist ls ∧ (b.candidate o ls).maxSeq =
        singleSourceMaxSeq b.files.length (b.candidate o ls).lines := by
  induction ls generalizing o with
  | nil => exact ⟨.refl _, rfl⟩
  | cons line rest ih =>
    rw [candidate]
    split
    · exact ⟨.refl _, rfl⟩
    · exact ⟨(ih _).1.cons _, (ih _).2⟩

theorem Backfill.lines_nodup {b : Backfill κ} {j : Journal κ} (hj : b.files = [j]) :
    (b.streamBackfill.lines.map Line.seq).Nodup := by
  have hrows : (b.rows.map Line.seq).Nodup := by
    rw [rows, ((mergeSort_perm _ _).map _).nodup_iff, hj]
    have hj : (j.lines.map Line.seq).Nodup := by
      rw [Journal.lines, map_map]
      exact (zipIdx_map_snd 1 j.rows).symm ▸ nodup_range'
    exact hj.sublist (by simpa using filter_sublist.map _)
  exact hrows.sublist (((b.candidate_spec _ _).1.trans (drop_sublist _ _)).map _)

namespace Epoch

variable {ep : Epoch κ σ}

theorem dup_of_seen {j : Journal κ} (hj : ep.source.files = [j]) {e : Entry κ} (h : ep.Seen e) :
    dup ep.answer.maxSeq e = true := by
  obtain ⟨line, hm, he⟩ := h
  obtain ⟨s, hs, hl⟩ := Option.map_eq_some_iff.mp he
  obtain rfl : s = line.seq := (Prod.mk.inj hl).2
  have hmax : ep.answer.maxSeq = (ep.answer.lines.map Line.seq).max? :=
    (ep.source.candidate_spec _ _).2.trans (if_pos (by rw [hj]; rfl))
  cases hseq : (ep.answer.lines.map Line.seq).max? with
  | none =>
    rw [max?_eq_none_iff, map_eq_nil_iff] at hseq
    exact absurd (hseq ▸ hm) not_mem_nil
  | some m =>
    have hle := (max?_eq_some_iff.mp hseq).2 _ (mem_map_of_mem hm)
    simp [dup, hs, hmax, hseq, hle]

theorem updates_eq (ep : Epoch κ σ) :
    ep.updates = ep.answer.lines.map (fun line => .replay (.fromLedger line)) ++
      (ep.before.filterMap Fact.status?).map .status ++
      ((ep.before.filterMap Fact.live?).filter fun e => !dup ep.answer.maxSeq e).map .live ++
      ep.after.flatMap (Fact.shown ep.answer.maxSeq) := by
  have hone : (ep.before.filterMap Fact.status?).length ≤ 1 := by
    have h := ep.one
    rw [filterMap_append, length_append] at h
    omega
  have hlast : (ep.before.filterMap Fact.status?).getLast?.toList =
      ep.before.filterMap Fact.status? := by
    generalize ep.before.filterMap Fact.status? = seeds at hone
    match seeds, hone with
    | [], _ => rfl
    | [_], _ => rfl
  rw [updates, Intake.updates_before, Intake.updates]
  simp [Intake.apply, Intake.backfill, Intake.updates_after, hlast, -getLast?_filterMap]

theorem status_after {p q : List (Fact κ σ)} {seed : σ} (h : ep.after = p ++ .status seed :: q) :
    ep.before.filterMap Fact.status? = [] ∧ p.filterMap Fact.status? = [] ∧
      q.filterMap Fact.status? = [] := by
  have hone := ep.one
  simp only [h, filterMap_append, filterMap_cons, Fact.status?, length_append, length_cons] at hone
  exact ⟨length_eq_zero_iff.mp (by omega), length_eq_zero_iff.mp (by omega),
    length_eq_zero_iff.mp (by omega)⟩

theorem updates_settled (h : ep.Settled) :
    ep.updates = ep.ordered (ep.live.filter fun e => !dup ep.answer.maxSeq e) := by
  rw [updates_eq, ordered, live]
  cases ha : ep.after.filterMap Fact.status? with
  | nil => simp [shown_live ha, ha]
  | cons seed seeds =>
    obtain ⟨fact, hm, hf⟩ := mem_filterMap.mp (ha ▸ mem_cons_self : seed ∈ ep.after.filterMap _)
    cases fact with
    | live => cases hf
    | status s =>
      obtain ⟨p, q, hpq⟩ := append_of_mem hm
      obtain ⟨hb, hp, hq⟩ := status_after hpq
      have hnone := h.2 p s q hpq
      simp only [filterMap_append, mem_append] at hnone
      have hbefore :
          (ep.before.filterMap Fact.live?).filter (fun e => !dup ep.answer.maxSeq e) = [] :=
        filter_eq_nil_iff.mpr fun e he => by simp [hnone e (.inl he)]
      have hfront : (p.filterMap Fact.live?).filter (fun e => !dup ep.answer.maxSeq e) = [] :=
        filter_eq_nil_iff.mpr fun e he => by simp [hnone e (.inr he)]
      simp [hpq, hp, hq, hbefore, hfront, shown_live, Fact.status?]
      rfl

theorem updates_live {l : List (Entry κ)} (h : ep.updates = ep.ordered l) :
    l = ep.live.filter fun e => !dup ep.answer.maxSeq e := by
  have hl := congrArg (filterMap StreamUpdate.live?) (ep.updates_eq.symm.trans h)
  simp only [ordered, filterMap_append, filterMap_map, live_shown] at hl
  have hs (s : List σ) : s.filterMap (@StreamUpdate.live? κ σ ∘ .status) = [] :=
    filterMap_eq_nil_iff.mpr fun _ _ => rfl
  have hr (ls : List (Line κ)) : ls.filterMap
      (@StreamUpdate.live? κ σ ∘ fun line => .replay (.fromLedger line)) = [] :=
    filterMap_eq_nil_iff.mpr fun _ _ => rfl
  have hk (es : List (Entry κ)) : es.filterMap (@StreamUpdate.live? κ σ ∘ .live) = es :=
    filterMap_some
  rw [hs, hs, hr, hk, hk, nil_append, nil_append] at hl
  rw [live, filterMap_append, filter_append, hl]
  rfl

theorem Merged.settled (h : ep.Merged) : ep.Settled := by
  obtain ⟨l, hu, -, hf, -⟩ := h
  obtain rfl := updates_live hu
  refine ⟨fun e he hd => ?_, fun p seed q hpq e he => ?_⟩
  · by_contra hn
    have hm : e ∈ ep.live.filter fun e => ¬ ep.Seen e := mem_filter.mpr ⟨he, by simpa using hn⟩
    rw [← hf] at hm
    have := (mem_filter.mp (mem_filter.mp hm).1).2
    simp [hd] at this
  · obtain ⟨hb, hp, hq⟩ := status_after hpq
    by_contra hd
    rw [updates_eq, ordered, append_assoc, append_assoc, append_assoc] at hu
    have hu := append_cancel_left hu
    simp only [hpq, hb, hp, filterMap_append, flatMap_append] at hu
    obtain ⟨x, xs, hx⟩ : ∃ x xs, (((ep.before ++ p).filterMap Fact.live?).filter
        fun e => !dup ep.answer.maxSeq e) = x :: xs :=
      exists_cons_of_ne_nil (ne_nil_of_mem (mem_filter.mpr ⟨he, by simpa using hd⟩))
    rw [filterMap_append, filter_append] at hx
    rw [map_nil, nil_append, shown_live hp, ← append_assoc, ← map_append, hx] at hu
    exact nomatch (cons.inj hu).1

theorem Settled.merged (h : ep.Settled) : ep.Merged := by
  refine ⟨_, updates_settled h, filter_sublist, ?_, fun j hj => ?_⟩
  · rw [filter_filter]
    refine filter_congr fun e he => ?_
    cases hd : dup ep.answer.maxSeq e with
    | false => simp
    | true => simp [h.1 e he hd]
  · have hlines : (ep.answer.lines.map Entry.fromLedger).filterMap Entry.line? =
        ep.answer.lines.map fun line => (line.session, line.seq) := by
      rw [filterMap_map]
      exact congrFun filterMap_eq_map _
    rw [filterMap_append, hlines, nodup_append']
    refine ⟨.of_map Prod.snd ?_, ?_, ?_⟩
    · rw [map_map]
      exact Backfill.lines_nodup hj
    · exact ep.once.sublist (filter_sublist.filterMap _)
    · intro l hl hl'
      obtain ⟨line, hline, rfl⟩ := mem_map.mp hl
      obtain ⟨e, he, hel⟩ := mem_filterMap.mp hl'
      have := (mem_filter.mp he).2
      simp [dup_of_seen hj ⟨line, hline, hel⟩] at this

end Epoch

/-- No event is lost iff what the highest sequence of the tail drops is in the tail; the status
comes between the two iff no event is shown before it. -/
theorem merges_iff (ep : Epoch κ σ) : ep.Merged ↔ ep.Settled :=
  ⟨Epoch.Merged.settled, Epoch.Settled.merged⟩

def joinedLater : Epoch Unit Unit where
  source := ⟨[⟨"a", [(0, ())]⟩], 0, fun _ => true, fun _ => true, 10⟩
  before := []
  after := [.live ⟨"b", 1, some 1, ()⟩]
  one := by decide
  once := by decide

theorem later_session_dropped :
    joinedLater.updates = [.replay ⟨"a", 0, some 1, ()⟩] ∧ ¬ joinedLater.Merged := by
  have ha : joinedLater.answer = ⟨some 1, [⟨"a", 1, 0, ()⟩], 0, 0⟩ := by
    simp [Epoch.answer, joinedLater, Backfill.streamBackfill, Backfill.rows, Journal.lines,
      streamBackfillItemCap, Backfill.candidate, singleSourceMaxSeq]
  refine ⟨?_, fun h => ?_⟩
  · rw [Epoch.updates, ha]
    rfl
  · obtain ⟨line, hm, he⟩ := h.settled.1 ⟨"b", 1, some 1, ()⟩ mem_cons_self (by rw [ha]; rfl)
    rw [ha, mem_singleton] at hm
    simp [hm, Entry.line?] at he

end Cyclops.Stream
