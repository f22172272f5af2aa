import Cyclops.Lib.Runs
import Mathlib.Data.List.Infix

/-!
# Delimited frames over chunks

A stream is cut into frames by a delimiter, and into chunks by its transport. A reader takes
chunks into a buffer and answers one frame per call.
-/

namespace Framing

open List

variable {α φ ε : Type} [DecidableEq α]

/-! ## Frames of a stream -/

/-- The complete frames of a stream, the first of which has begun with `front`. -/
def framesFrom (delimiter : α) : List α → List α → List (List α)
  | _, [] => []
  | front, x :: rest =>
    if x = delimiter then front :: framesFrom delimiter [] rest
    else framesFrom delimiter (front ++ [x]) rest

def frames (delimiter : α) (stream : List α) : List (List α) :=
  framesFrom delimiter [] stream

def joined (delimiter : α) (raw : List (List α)) : List α :=
  raw.flatMap (· ++ [delimiter])

/-- No frame of the stream, complete or not, is longer than the limit. -/
def Within (delimiter : α) (limit : Nat) (stream : List α) : Prop :=
  ∀ before part after, stream = before ++ part ++ after → delimiter ∉ part → part.length ≤ limit

section Frames

variable {d : α} {f part rest : List α} {raw : List (List α)}

theorem framesFrom_append (h : d ∉ part) (f rest : List α) :
    framesFrom d f (part ++ rest) = framesFrom d (f ++ part) rest := by
  induction part generalizing f with
  | nil => rw [append_nil, nil_append]
  | cons x part ih =>
    have hx : x ≠ d := fun heq => h (heq ▸ mem_cons_self)
    rw [cons_append, framesFrom, if_neg hx, ih (fun hm => h (mem_cons_of_mem _ hm)),
      append_assoc, singleton_append]

theorem framesFrom_of_notMem (h : d ∉ part) (f : List α) : framesFrom d f part = [] := by
  rw [← append_nil part, framesFrom_append h]
  rfl

theorem frames_terminated (h : d ∉ part) (rest : List α) :
    frames d (part ++ d :: rest) = part :: frames d rest := by
  rw [frames, framesFrom_append h, framesFrom, if_pos rfl, nil_append]
  rfl

/-- The frames of a stream that was put together from frames. -/
theorem frames_joined (h : ∀ bs ∈ raw, d ∉ bs) (rest : List α) :
    frames d (joined d raw ++ rest) = raw ++ frames d rest := by
  induction raw with
  | nil => rfl
  | cons bs raw ih =>
    have hb : d ∉ bs := h bs mem_cons_self
    rw [joined, flatMap_cons, append_assoc, append_assoc, singleton_append, frames_terminated hb]
    exact congrArg _ (ih fun o hm => h o (mem_cons_of_mem _ hm))

omit [DecidableEq α] in
theorem joined_concat (raw : List (List α)) (bs : List α) :
    joined d (raw ++ [bs]) = joined d raw ++ bs ++ [d] := by
  simp [joined]

omit [DecidableEq α] in
theorem Within.of_append {l : Nat} {s more : List α} (h : Within d l (s ++ more)) :
    Within d l s := by
  intro b part a heq hp
  exact h b part (a ++ more) (by rw [heq, append_assoc _ a]) hp

omit [DecidableEq α] in
theorem Within.of_length {l : Nat} {s : List α} (h : s.length ≤ l) : Within d l s := by
  rintro b part a rfl -
  simp only [length_append] at h
  omega

end Frames

/-! ## Readers -/

structure Format (α φ ε : Type) where
  delimiter : α
  /-- The longest frame that is read. -/
  limit : Nat
  finish : List α → Except ε φ
  tooLarge : ε
  /-- The stream ended within a frame. -/
  cut : ε

structure Reader (α φ ε : Type) where
  /-- Taken from the connection and not consumed yet. -/
  buffered : List α
  reading : Bool
  /-- The part of a frame that the call has consumed. -/
  frame : List α
  ended : Bool
  answers : List (Except ε (Option φ))
  taken : List α

/-- What the caller and the transport of a reader do. -/
inductive ReaderOp (α : Type) where
  | call
  /-- The call goes on, and finds the chunk in the connection if its buffer is empty. -/
  | poll (chunk : List α)
  | abandon
  | hangUp

namespace Reader

def fresh : Reader α φ ε where
  buffered := []
  reading := false
  frame := []
  ended := false
  answers := []
  taken := []

def answer (r : Reader α φ ε) (result : Except ε (Option φ)) : Reader α φ ε :=
  { r with reading := false, answers := r.answers ++ [result] }

def scan (fmt : Format α φ ε) (r : Reader α φ ε) : Reader α φ ε :=
  match r.buffered.findIdx? (· = fmt.delimiter) with
  | some delimiter =>
    if fmt.limit < r.frame.length + delimiter then r.answer (.error fmt.tooLarge)
    else
      { r with
        frame := []
        buffered := r.buffered.drop (delimiter + 1) }.answer
          ((fmt.finish (r.frame ++ r.buffered.take delimiter)).map some)
  | none =>
    if fmt.limit < r.frame.length + r.buffered.length then r.answer (.error fmt.tooLarge)
    else { r with frame := r.frame ++ r.buffered, buffered := [] }

def step (fmt : Format α φ ε) (r : Reader α φ ε) : ReaderOp α → Reader α φ ε
  | .call => if r.reading then r else { r with reading := true, frame := [] }
  | .poll chunk =>
    if r.reading = false then r
    else if r.buffered ≠ [] then r.scan fmt
    else if r.ended then r.answer (if r.frame = [] then .ok none else .error fmt.cut)
    else if chunk = [] then r
    else { r with buffered := chunk, taken := r.taken ++ chunk }.scan fmt
  | .abandon => { r with reading := false }
  | .hangUp => { r with ended := true }

@[simp] theorem scan_taken (fmt : Format α φ ε) (r : Reader α φ ε) :
    (r.scan fmt).taken = r.taken := by
  unfold scan
  split <;> split <;> rfl

theorem step_taken (fmt : Format α φ ε) (r : Reader α φ ε) (op : ReaderOp α) :
    ∃ more, (r.step fmt op).taken = r.taken ++ more := by
  cases op with
  | poll c =>
    rw [step]
    split_ifs
    · exact ⟨[], by simp⟩
    · exact ⟨[], by simp⟩
    · exact ⟨[], by simp [answer]⟩
    · exact ⟨[], by simp [answer]⟩
    · exact ⟨[], by simp⟩
    · exact ⟨c, by simp⟩
  | call =>
    rw [step]
    split_ifs <;> exact ⟨[], by simp⟩
  | abandon | hangUp => exact ⟨[], by simp [step]⟩

/-- A call is given up only when it has consumed no part of a frame. -/
def Careful (r : Reader α φ ε) : ReaderOp α → Prop
  | .abandon => r.reading = true → r.frame = []
  | _ => True

instance decidableCareful (r : Reader α φ ε) (op : ReaderOp α) : Decidable (r.Careful op) := by
  unfold Careful
  split <;> infer_instance

/-- The answers are the frames of what was taken, in order, up to those still in the reader. -/
def Faithful (fmt : Format α φ ε) (r : Reader α φ ε) : Prop :=
  ∃ raw ends, r.answers = raw.map (fun bytes => (fmt.finish bytes).map some) ++ ends ∧
    (∀ result ∈ ends, result = .ok none ∨ result = .error fmt.cut) ∧
    frames fmt.delimiter r.taken = raw ++ frames fmt.delimiter (r.frame ++ r.buffered)

end Reader

/-- Everything taken is in an answered frame, in the call or in the buffer. -/
structure Intact (fmt : Format α φ ε) (r : Reader α φ ε) (raw : List (List α))
    (ends : List (Except ε (Option φ))) : Prop where
  answers : r.answers = raw.map (fun bytes => (fmt.finish bytes).map some) ++ ends
  whole : ∀ bytes ∈ raw, fmt.delimiter ∉ bytes
  part : fmt.delimiter ∉ r.frame
  open_ : ends = [] → r.taken = joined fmt.delimiter raw ++ r.frame ++ r.buffered ∧
    (r.reading = false → r.frame = [])
  closed : ends ≠ [] → r.ended = true ∧ r.buffered = [] ∧
    ∃ rest, fmt.delimiter ∉ rest ∧ r.taken = joined fmt.delimiter raw ++ rest
  ends_eq : ∀ result ∈ ends, result = .ok none ∨ result = .error fmt.cut

namespace Intact

variable {fmt : Format α φ ε} {r : Reader α φ ε} {raw : List (List α)}
  {ends : List (Except ε (Option φ))}

open Reader

omit [DecidableEq α] in
theorem fresh : Intact fmt (fresh : Reader α φ ε) [] [] where
  answers := rfl
  whole := nofun
  part := nofun
  open_ := fun _ => ⟨rfl, fun _ => rfl⟩
  closed := fun h => absurd rfl h
  ends_eq := nofun

theorem faithful (h : Intact fmt r raw ends) : r.Faithful fmt := by
  refine ⟨raw, ends, h.answers, h.ends_eq, ?_⟩
  by_cases he : ends = []
  · rw [(h.open_ he).1, append_assoc, frames_joined h.whole]
  · obtain ⟨-, hb, rest, hr, ht⟩ := h.closed he
    rw [ht, frames_joined h.whole, hb, append_nil]
    rw [frames, frames, framesFrom_of_notMem hr, framesFrom_of_notMem h.part]

theorem scan (h : Intact fmt r raw []) (hw : Within fmt.delimiter fmt.limit r.taken)
    (hr : r.reading = true) : ∃ raw', Intact fmt (r.scan fmt) raw' [] := by
  obtain ⟨ht, -⟩ := h.open_ rfl
  unfold Reader.scan
  cases hfi : r.buffered.findIdx? (· = fmt.delimiter) with
  | none =>
    have hn : fmt.delimiter ∉ r.buffered := by
      intro hm
      have ha := findIdx?_eq_none_iff.mp hfi _ hm
      simp at ha
    have hp : fmt.delimiter ∉ r.frame ++ r.buffered := by
      rw [mem_append, not_or]
      exact ⟨h.part, hn⟩
    have hf : r.frame.length + r.buffered.length ≤ fmt.limit := by
      have := hw (joined fmt.delimiter raw) (r.frame ++ r.buffered) [] (by rw [ht]; simp) hp
      rwa [length_append] at this
    rw [if_neg (Nat.not_lt.mpr hf)]
    refine ⟨raw, h.answers, h.whole, hp, fun _ => ⟨?_, fun hfa => ?_⟩, nofun, nofun⟩
    · rw [ht, append_nil, append_assoc]
    · rw [hr] at hfa
      cases hfa
  | some k =>
    obtain ⟨hk, hat, hb⟩ := findIdx?_eq_some_iff_getElem.mp hfi
    have hc : r.buffered = r.buffered.take k ++ fmt.delimiter :: r.buffered.drop (k + 1) := by
      rw [decide_eq_true_eq] at hat
      rw [← hat, getElem_cons_drop, take_append_drop]
    have hn : fmt.delimiter ∉ r.buffered.take k := by
      intro hm
      obtain ⟨j, hj, heq⟩ := mem_iff_getElem.mp hm
      rw [length_take] at hj
      have hno := hb j (by omega)
      rw [getElem_take] at heq
      exact hno (decide_eq_true heq)
    have hp : fmt.delimiter ∉ r.frame ++ r.buffered.take k := by
      rw [mem_append, not_or]
      exact ⟨h.part, hn⟩
    have hf : r.frame.length + k ≤ fmt.limit := by
      have := hw (joined fmt.delimiter raw) (r.frame ++ r.buffered.take k)
        (fmt.delimiter :: r.buffered.drop (k + 1))
        (by
          rw [ht]
          nth_rewrite 1 [hc]
          simp only [append_assoc]) hp
      rwa [length_append, length_take_of_le (Nat.le_of_lt hk)] at this
    dsimp only
    rw [if_neg (Nat.not_lt.mpr hf)]
    refine ⟨raw ++ [r.frame ++ r.buffered.take k], ?_, ?_, nofun, fun _ => ⟨?_, fun _ => rfl⟩,
      fun he => absurd rfl he, nofun⟩
    · simp [answer, h.answers]
    · intro bs hby
      rcases mem_append.mp hby with hold | hne
      · exact h.whole bs hold
      · rwa [mem_singleton.mp hne]
    · show r.taken = _
      rw [ht, joined_concat]
      nth_rewrite 1 [hc]
      simp [answer]

omit [DecidableEq α] in
theorem finish (h : Intact fmt r raw ends) (hen : r.ended = true) (hb : r.buffered = [])
    {res : Except ε (Option φ)} (hr : res = .ok none ∨ res = .error fmt.cut) :
    Intact fmt (r.answer res) raw (ends ++ [res]) where
  __ := h
  answers := by rw [answer, h.answers, append_assoc]
  open_ := fun he => by simp at he
  closed := by
    refine fun _ => ⟨hen, hb, ?_⟩
    by_cases he : ends = []
    · refine ⟨r.frame, h.part, (h.open_ he).1.trans ?_⟩
      rw [hb, append_nil]
    · exact (h.closed he).2.2
  ends_eq := by
    intro o ho
    rcases mem_append.mp ho with hold | hn
    · exact h.ends_eq o hold
    · rwa [mem_singleton.mp hn]

theorem poll (h : Intact fmt r raw ends) {c : List α}
    (hw : Within fmt.delimiter fmt.limit (r.step fmt (.poll c)).taken) :
    ∃ raw' ends', Intact fmt (r.step fmt (.poll c)) raw' ends' := by
  rw [step] at hw ⊢
  split_ifs at hw ⊢ with hr hb hen hfr hc
  · exact ⟨raw, ends, h⟩
  · rw [Bool.not_eq_false] at hr
    obtain rfl : ends = [] := by
      by_contra he
      exact hb (h.closed he).2.1
    rw [scan_taken] at hw
    obtain ⟨raw', hs⟩ := h.scan hw hr
    exact ⟨raw', [], hs⟩
  · exact ⟨raw, _, h.finish hen (not_not.mp hb) (.inl rfl)⟩
  · exact ⟨raw, _, h.finish hen (not_not.mp hb) (.inr rfl)⟩
  · exact ⟨raw, ends, h⟩
  · rw [Bool.not_eq_false] at hr
    obtain rfl : ends = [] := by
      by_contra he
      exact hen (h.closed he).1
    obtain ⟨ht, hi⟩ := h.open_ rfl
    rw [not_not.mp hb, append_nil] at ht
    have hf : Intact fmt { r with buffered := c, taken := r.taken ++ c } raw [] :=
      ⟨h.answers, h.whole, h.part, fun _ => ⟨congrArg (· ++ c) ht, hi⟩,
        fun he => absurd rfl he, nofun⟩
    rw [scan_taken] at hw
    obtain ⟨raw', hs⟩ := hf.scan hw hr
    exact ⟨raw', [], hs⟩

theorem step (h : Intact fmt r raw ends) {op : ReaderOp α}
    (hw : Within fmt.delimiter fmt.limit (r.step fmt op).taken) (hc : r.Careful op) :
    ∃ raw' ends', Intact fmt (r.step fmt op) raw' ends' := by
  cases op with
  | poll => exact h.poll hw
  | call =>
    rw [Reader.step]
    split_ifs with hr
    · exact ⟨raw, ends, h⟩
    · rw [Bool.not_eq_true] at hr
      refine ⟨raw, ends, h.answers, h.whole, nofun, fun he => ⟨?_, fun hfa => rfl⟩, h.closed,
        h.ends_eq⟩
      obtain ⟨ht, hf⟩ := h.open_ he
      rw [hf hr] at ht
      exact ht
  | abandon =>
    refine ⟨raw, ends, h.answers, h.whole, h.part, fun he => ⟨(h.open_ he).1, fun _ => ?_⟩,
      h.closed, h.ends_eq⟩
    cases hr : r.reading with
    | true => exact hc hr
    | false => exact (h.open_ he).2 hr
  | hangUp =>
    exact ⟨raw, ends, h.answers, h.whole, h.part, h.open_,
      fun he => ⟨rfl, (h.closed he).2⟩, h.ends_eq⟩

end Intact

namespace Reader

variable {fmt : Format α φ ε}

/-- A reader whose calls are given up only between frames answers the frames of the
stream. -/
theorem faithful {ops : List (ReaderOp α)}
    (hca : Runs.Along (step fmt) Careful (fresh : Reader α φ ε) ops)
    (hw : Within fmt.delimiter fmt.limit (ops.foldl (step fmt) fresh).taken) :
    (ops.foldl (step fmt) (fresh : Reader α φ ε)).Faithful fmt := by
  have hin := hca.invariant
    (fun r => Within fmt.delimiter fmt.limit r.taken → ∃ raw ends, Intact fmt r raw ends)
    (fun r op h hc hw' => by
      obtain ⟨more, hm⟩ := step_taken fmt r op
      obtain ⟨raw, ends, hi⟩ := h (by rw [hm] at hw'; exact hw'.of_append)
      exact hi.step hw' hc)
    fun _ => ⟨[], [], .fresh⟩
  obtain ⟨raw, ends, hi⟩ := hin hw
  exact hi.faithful

end Reader

end Framing
