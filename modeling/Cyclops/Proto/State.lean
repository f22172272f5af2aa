import Mathlib.Order.Nat

/-!
# Agent states, detections and composer holds

The sensor readout of one pane (`Detection`) with the two answers it carries: the runtime state, and
whether a write is allowed.

Result: `ComposerHold.release_needs_turn`.
-/

namespace Cyclops

/-- The runtime state of an agent. -/
inductive AgentState where
  | unknown | idle | idleWithInput | working | blockedModal | blockedPermission | blockedQuota
  | dead
deriving DecidableEq

def AgentState.isBlocked (state : AgentState) : Bool :=
  state matches .blockedModal | .blockedPermission | .blockedQuota

def AgentState.idleClass : AgentState → Bool
  | .idle | .idleWithInput => true
  | _ => false

/-- What a rule says about the composer. -/
inductive ComposerSemantic where
  | clean
  | humanInput
  | ghostSuggestion
  | ambiguous
deriving DecidableEq

/-- Where a reading comes from. -/
inductive Sensor where
  | hook
  | title
  | screen
deriving DecidableEq

structure SensorReading where
  sensor : Sensor
  state : AgentState
  rule : String
  ts : Nat

structure Detection where
  state : AgentState
  readings : List SensorReading := []
  disagreement : Bool := false
  decidedBy : String
  stale : Bool := false
  writeReady : Bool := false
  writeBlock : Option String := none
  composerSemantic : Option ComposerSemantic := none

/-- What a pane's composer has proven since text was last seen staged in it. -/
inductive ComposerHold where
  | clear
  | staged
  | stagedDuringTurn
  | turnStarted (sinceMs : Nat)
deriving DecidableEq

namespace Detection

def reads (d : Detection) (sensor : Sensor) (state : AgentState) : Bool :=
  d.readings.any fun r => r.sensor = sensor && r.state = state

def turnRunningAt (d : Detection) : Option Nat :=
  ((d.readings.filter fun r => r.state = .working).map SensorReading.ts).min?

def hasScreenReading (d : Detection) : Bool :=
  d.readings.any fun r => r.sensor = .screen

def screenProvesWriteSafeComposer (d : Detection) : Bool :=
  (d.composerSemantic = some .clean || d.composerSemantic = some .ghostSuggestion)
    && d.hasScreenReading

def workingComposerProven (d : Detection) : Bool :=
  d.state = .working && d.screenProvesWriteSafeComposer && d.reads .screen .working
    && d.readings.all fun r =>
      r.state = .working || (r.sensor = .screen && r.state = .idle)

/-- A state no write is admitted in, or a reading that speaks against one. -/
def conflictingEvidence (d : Detection) : Bool :=
  (match d.state with
    | .unknown | .idleWithInput | .blockedModal | .blockedPermission | .blockedQuota
    | .dead => true
    | .idle | .working => false)
  || (d.readings.any fun r =>
    (match r.state with
      | .idleWithInput | .blockedModal | .blockedPermission | .blockedQuota
      | .unknown => true
      | .idle | .working | .dead => false)
    || (r.state = .working && !d.workingComposerProven))
  || (d.state = .working && !d.workingComposerProven)

def baseWriteReady (d : Detection) : Except String Unit :=
  if d.stale then .error "stale_screen_evidence"
  else if d.disagreement && !d.workingComposerProven then .error "sensor_disagreement"
  else if d.state = .idle && d.decidedBy.startsWith "hook:" then .error "hook_derived_idle"
  else if !d.screenProvesWriteSafeComposer then .error "no_write_safe_composer_evidence"
  else if d.conflictingEvidence then .error "conflicting_evidence"
  else .ok ()

def withWriteBlock (d : Detection) : Detection :=
  match d.baseWriteReady with
  | .ok () => { d with writeReady := true, writeBlock := none }
  | .error reason => { d with writeReady := false, writeBlock := some reason }

def refused (d : Detection) (reason : String) : Detection :=
  { d with writeReady := false, writeBlock := some reason }

def occupantUnprovable (d : Detection) : Detection :=
  d.refused "occupant_unprovable"

end Detection

namespace ComposerHold

def isWaiting : ComposerHold → Bool
  | .staged | .stagedDuringTurn => true
  | .clear | .turnStarted _ => false

def refuses (h : ComposerHold) : Bool :=
  h ≠ .clear

def isTurnStarted : ComposerHold → Bool
  | .turnStarted _ => true
  | .clear | .staged | .stagedDuringTurn => false

def seesText (d : Detection) : Bool :=
  d.state = .idleWithInput || d.reads .screen .idleWithInput
    || d.composerSemantic = some .humanInput

/-- Advance the hold on one fused verdict; `ended` answers for the turn it waits on. -/
def advance (h : ComposerHold) (d : Detection) (ended : Option Bool) : ComposerHold :=
  if d.state = .dead then .clear
  else if seesText d then
    match h with
    -- Reading the text again does not change that it was staged under a running turn.
    | .stagedDuringTurn => .stagedDuringTurn
    | .clear | .staged | .turnStarted _ =>
      if d.turnRunningAt.isSome then .stagedDuringTurn else .staged
  else
    match h with
    | .clear => .clear
    | .stagedDuringTurn => if d.turnRunningAt.isSome then .stagedDuringTurn else .staged
    | .staged => (d.turnRunningAt.map .turnStarted).getD .staged
    | .turnStarted since =>
      if d.turnRunningAt.isNone && ended.getD (d.state = .idle)
          && d.screenProvesWriteSafeComposer then .clear
      else .turnStarted since

def releaseAfterSettledVisibleEmpty (h : ComposerHold) (d : Detection) : ComposerHold :=
  let visibleEmpty := !d.stale && d.composerSemantic = some .clean && d.hasScreenReading
    && (d.state = .idle || d.state = .working)
  if h.isWaiting && visibleEmpty then .clear else h

end ComposerHold

namespace Detection

/-- Stamp the final readiness verdict: the sensor policy, then the composer hold, then
the pane's own mode. -/
def stamped (d : Detection) (inMode : Bool) (hold : ComposerHold) : Detection :=
  if inMode then { d with writeReady := false, writeBlock := some "pane_in_mode" }
  else
    let det := d.withWriteBlock
    if det.writeReady && hold.refuses then
      { det with writeReady := false, writeBlock := some "composer_hold" }
    else det

@[simp] theorem occupantUnprovable_writeReady (d : Detection) :
    d.occupantUnprovable.writeReady = false :=
  rfl

theorem withWriteBlock_writeReady (d : Detection) :
    d.withWriteBlock.writeReady = true ↔ d.baseWriteReady = .ok () := by
  unfold withWriteBlock
  split <;> simp_all

/-- A stamped verdict allows a write exactly when the pane is out of mode, the sensors pass, and
nothing is held. -/
theorem stamped_writeReady (d : Detection) (im : Bool) (hold : ComposerHold) :
    (d.stamped im hold).writeReady = true ↔
      im = false ∧ d.baseWriteReady = .ok () ∧ hold = .clear := by
  unfold stamped
  have hr := d.withWriteBlock_writeReady
  cases im
  · by_cases held : hold = .clear
    · simp [held, ComposerHold.refuses, hr]
    · cases hv : d.withWriteBlock.writeReady <;>
        simp [held, ComposerHold.refuses, hv]
  · simp

/-- Sensors that pass have seen the composer on the screen, clean or ghosted, in a pane
that is not dead. -/
theorem baseWriteReady_evidence {d : Detection} (hr : d.baseWriteReady = .ok ()) :
    d.stale = false ∧ d.hasScreenReading ∧ d.state ≠ .dead ∧
      (d.composerSemantic = some .clean ∨ d.composerSemantic = some .ghostSuggestion) := by
  unfold baseWriteReady at hr
  split_ifs at hr with hst hdi ho hu hc
  have hs : d.screenProvesWriteSafeComposer = true := by simpa using hu
  simp only [screenProvesWriteSafeComposer, Bool.and_eq_true, Bool.or_eq_true,
    decide_eq_true_eq] at hs
  refine ⟨by simpa using hst, hs.2, ?_, hs.1⟩
  intro hd
  simp [conflictingEvidence, hd] at hc

end Detection

namespace ComposerHold

/-- The hold after the first frames of a sequence, on the screen lifecycle. -/
def holdAfter (frames : Nat → Detection) : Nat → ComposerHold
  | 0 => .clear
  | n + 1 => (holdAfter frames n).advance (frames n) none

/-- Text was seen under a running turn, and in no frame since then up to `i` were both the
text and the turn gone. -/
def StagedUnderTurn (frames : Nat → Detection) (i : Nat) : Prop :=
  ∃ m ≤ i, seesText (frames m) = true ∧ (frames m).turnRunningAt.isSome = true ∧
    ∀ n, m < n → n ≤ i →
      seesText (frames n) = true ∨ (frames n).turnRunningAt.isSome = true

variable {frames : Nat → Detection} {d : Detection} {i k n : Nat}

theorem advance_text (h : ComposerHold) (alive : d.state ≠ .dead) (text : seesText d = true) :
    h.advance d none = .stagedDuringTurn ∨
      h.advance d none = .staged ∧ h ≠ .stagedDuringTurn ∧ d.turnRunningAt = none := by
  cases h <;> cases ht : d.turnRunningAt <;> simp [advance, alive, text, ht]

theorem advance_blank (h : ComposerHold) (alive : d.state ≠ .dead) (blank : seesText d = false) :
    h.advance d none = h ∨
      h = .stagedDuringTurn ∧ h.advance d none = .staged ∧ d.turnRunningAt = none ∨
      h = .staged ∧ (∃ s, h.advance d none = .turnStarted s) ∧ d.turnRunningAt.isSome = true ∨
      (∃ s, h = .turnStarted s) ∧ h.advance d none = .clear ∧
        d.turnRunningAt = none ∧ d.screenProvesWriteSafeComposer = true := by
  cases h <;> cases ht : d.turnRunningAt <;> simp [advance, alive, blank, ht]
  by_cases hi : d.state = .idle <;> simp [hi]

theorem stagedDuringTurn_of_under (ha : ∀ n ≤ i, (frames n).state ≠ .dead)
    (hu : StagedUnderTurn frames i) : holdAfter frames (i + 1) = .stagedDuringTurn := by
  obtain ⟨m, hm, text, turn, since⟩ := hu
  induction i, hm using Nat.le_induction with
  | base =>
    obtain hs | ⟨-, -, hr⟩ := advance_text (holdAfter frames m) (ha m le_rfl) text
    · exact hs
    · simp [hr] at turn
  | succ i hm ih =>
    have hb := ih (fun n hn => ha n (by omega)) fun n hmn hn => since n hmn (by omega)
    simp only [holdAfter] at hb ⊢
    rw [hb]
    have hst := since (i + 1) (by omega) le_rfl
    simp only [advance]
    split_ifs <;> simp_all

/-- What the hold remembers of the frames since the text was last seen at `i`. -/
def Remembers (frames : Nat → Detection) (i n : Nat) : ComposerHold → Prop
  | .clear => True
  | .stagedDuringTurn => True
  | .staged => holdAfter frames (i + 1) = .stagedDuringTurn →
      ∃ h, i < h ∧ h < n ∧ (frames h).turnRunningAt = none
  | .turnStarted _ => ∃ j, i < j ∧ j < n ∧ (frames j).turnRunningAt.isSome = true ∧
      (holdAfter frames (i + 1) = .stagedDuringTurn →
        ∃ h, i < h ∧ h < j ∧ (frames h).turnRunningAt = none)

theorem Remembers.mono {h : ComposerHold} (hn : Remembers frames i n h) :
    Remembers frames i (n + 1) h := by
  cases h with
  | clear | stagedDuringTurn => trivial
  | staged => exact fun hu => (hn hu).imp fun _ ⟨ha, below, hr⟩ => ⟨ha, by omega, hr⟩
  | turnStarted => exact hn.imp fun _ ⟨ha, below, hr⟩ => ⟨ha, by omega, hr⟩

theorem remembers_holdAfter (ha : ∀ m ≤ n, (frames m).state ≠ .dead)
    (ht : seesText (frames i) = true) (hin : i < n)
    (hb : ∀ m, i < m → m < n → seesText (frames m) = false) :
    Remembers frames i n (holdAfter frames n) := by
  induction n, hin using Nat.le_induction with
  | base =>
    obtain hs | ⟨hs, -⟩ :=
      advance_text (holdAfter frames i) (ha i (by omega)) ht
    · rw [Nat.succ_eq_add_one, holdAfter, hs]
      trivial
    · rw [Nat.succ_eq_add_one, holdAfter, hs]
      intro hu
      rw [holdAfter, hs] at hu
      cases hu
  | succ n hin ih =>
    have hn := ih (fun m hm => ha m (by omega)) fun m him hm => hb m him (by omega)
    rw [holdAfter]
    obtain hsa | ⟨held, next, hr⟩ | ⟨held, ⟨s, next⟩, turn⟩ | ⟨-, next, -⟩ :=
      advance_blank (holdAfter frames n) (ha n (by omega)) (hb n hin (by omega))
    · rw [hsa]
      exact hn.mono
    · rw [next]
      exact fun _ => ⟨n, hin, by omega, hr⟩
    · rw [next]
      rw [held] at hn
      exact ⟨n, hin, by omega, turn, hn⟩
    · rw [next]
      trivial

/-- A hold is released only by a turn that started after the text was last seen, and after the turn
under which it was staged. -/
theorem release_needs_turn (alive : ∀ m ≤ k, (frames m).state ≠ .dead) (hik : i < k)
    (text : seesText (frames i) = true)
    (last : ∀ m, i < m → m < k → seesText (frames m) = false)
    (held : holdAfter frames k ≠ .clear) (released : holdAfter frames (k + 1) = .clear) :
    (frames k).turnRunningAt = none ∧ (frames k).screenProvesWriteSafeComposer = true ∧
      ∃ j, i < j ∧ j < k ∧ (frames j).turnRunningAt.isSome = true ∧
        (StagedUnderTurn frames i → ∃ h, i < h ∧ h < j ∧ (frames h).turnRunningAt = none) := by
  have now := remembers_holdAfter (fun m hm => alive m (by omega)) text hik last
  rw [holdAfter] at released
  have hb : seesText (frames k) = false := by
    by_contra hsh
    have := advance_text (holdAfter frames k) (alive k le_rfl) (by simpa using hsh)
    simp [released] at this
  obtain hsa | ⟨-, next, -⟩ | ⟨-, ⟨_, next⟩, -⟩ | ⟨⟨s, hs⟩, -, rest, safe⟩ :=
    advance_blank (holdAfter frames k) (alive k le_rfl) hb
  · exact absurd (hsa.symm.trans released) held
  · cases next.symm.trans released
  · cases next.symm.trans released
  · rw [hs] at now
    obtain ⟨j, above, below, turn, he⟩ := now
    refine ⟨rest, safe, j, above, below, turn, fun hu => he ?_⟩
    exact stagedDuringTurn_of_under (fun n hn => alive n (by omega)) hu

def draftFrame : Detection :=
  { state := .idleWithInput, decidedBy := "" }

def turnFrame : Detection :=
  { state := .working, readings := [⟨.title, .working, "", 0⟩], decidedBy := "" }

def restFrame : Detection :=
  { state := .idle, readings := [⟨.screen, .idle, "", 0⟩], decidedBy := "",
    composerSemantic := some .clean }

def framesOf (frames : List Detection) (n : Nat) : Detection :=
  frames.getD n restFrame

theorem draft_released_by_turn :
    ∃ j, 0 < j ∧ j < 2 ∧ (framesOf [draftFrame, turnFrame] j).turnRunningAt.isSome = true := by
  have hl : ∀ m, 0 < m → m < 2 → seesText (framesOf [draftFrame, turnFrame] m) = false := by
    intro m above below
    obtain rfl : m = 1 := by omega
    rfl
  obtain ⟨-, -, j, above, below, turn, -⟩ :=
    @release_needs_turn _ 0 2 (by decide) (by decide) rfl hl (by decide) (by decide)
  exact ⟨j, above, below, turn⟩

/-- A hold stays clear in a later turn in which no composer is proven. -/
theorem clear_after_release :
    let later := framesOf [draftFrame, turnFrame, restFrame, turnFrame]
    let again := framesOf [{ turnFrame with composerSemantic := some .humanInput }, restFrame,
      draftFrame, turnFrame, restFrame]
    (holdAfter later 4 = .clear ∧ (later 3).turnRunningAt.isSome = true) ∧
      seesText (again 0) = true ∧ (again 0).turnRunningAt.isSome = true ∧
      holdAfter again 5 = .clear ∧
      ¬ ∃ j, 2 < j ∧ j < 4 ∧ ∃ h, 2 < h ∧ h < j ∧ (again h).turnRunningAt = none := by
  refine ⟨⟨by decide, by decide⟩, by decide, by decide, by decide, ?_⟩
  rintro ⟨j, above, below, h, above', below', -⟩
  omega

end ComposerHold

end Cyclops
