import Cyclops.Identity.Ancestry
import Cyclops.Proto.State

/-!
# Sensor fusion

How one recompute turns what its sensors read into a verdict: the winning title rule and the winning
screen rule are fused by the manifest's priority order, the stored hook reading is applied on top,
and process-bound liveness may admit `Idle` on a frame the rules left unconfirmed.
-/

namespace Cyclops.Fusion

open Cyclops.Identity (ProcId)

/-! ## Rules and their winners -/

/-- The part of a capture a rule reads. -/
inductive Region where
  | paneTitle
  | bottomNonEmptyLines (n : Nat)
deriving DecidableEq

/-- One manifest rule. `matchesEsc joined lines escLines` is its compiled matcher. -/
structure CompiledRule where
  id : String
  state : AgentState
  composerSemantic : Option ComposerSemantic := none
  region : Region
  lifecycleEvidence : Bool := true
  activeStartTerminal : Bool := false
  matchesEsc : String → List String → Option (List String) → Bool

structure Manifest where
  id : String
  rules : List CompiledRule

/-- A successful capture: its rows, bottom up, and the same rows with their styling. -/
structure Screen where
  rows : List String
  escaped : Option (List String) := none

structure Winner where
  index : Nat
  rule : CompiledRule

def Manifest.winner (m : Manifest) (test : CompiledRule → Bool) : Option Winner :=
  (m.rules.zipIdx.find? fun p => test p.1).map fun p => ⟨p.2, p.1⟩

def titleWinner (m : Manifest) (title : String) : Option Winner :=
  m.winner fun r => r.region = .paneTitle && r.matchesEsc title [title] none

def manifestUsesScreenTier (m : Manifest) : Bool :=
  m.rules.any fun r => r.region ≠ .paneTitle

def screenRuleMatches (r : CompiledRule) (screen : Screen) : Bool :=
  match r.region with
  | .paneTitle => false
  | .bottomNonEmptyLines n =>
    let sel := (screen.rows.take n).reverse
    let esc := screen.escaped.map fun rows => (rows.take n).reverse
    r.matchesEsc ("\n".intercalate sel) sel esc

def screenWinnerEsc (m : Manifest) (screen : Screen) : Option Winner :=
  m.winner fun r => screenRuleMatches r screen

/-- What the highest-priority matching composer rule says of the composer, whichever
rule wins the runtime state. -/
def screenComposerSemanticEsc (m : Manifest) (screen : Screen) : Option ComposerSemantic :=
  (m.rules.find? fun r =>
    r.region ≠ .paneTitle && r.composerSemantic.isSome && screenRuleMatches r screen).bind
      CompiledRule.composerSemantic

def winnerConfirmsIdle (winner : Option Winner) : Bool :=
  winner.any fun w => w.rule.lifecycleEvidence && w.rule.state.idleClass

/-! ## Fusing the tiers -/

def Winner.reading (w : Winner) (sensor : Sensor) (ts : Nat) : SensorReading :=
  ⟨sensor, w.rule.state, w.rule.id, ts⟩

/-- Fuse the tier winners into a detection. Both readings are kept whenever both tiers
fired, whatever the verdict. -/
def fuse (m : Manifest) (title screen : Option Winner) (screenRequired idleConfirmed : Bool)
    (ts : Nat) : Detection :=
  let readings := (title.map (·.reading .title ts)).toList
    ++ (screen.map (·.reading .screen ts)).toList
  -- Winners are compared by their place in the manifest, as the source does by address.
  let winner := (m.rules.zipIdx.find? fun p =>
    title.any (·.index = p.2) || screen.any (·.index = p.2)).map Prod.fst
  if screenRequired && !idleConfirmed && winner.any (·.state.idleClass) then
    match screen.filter fun s => !s.rule.state.idleClass with
    | some s =>
      { state := s.rule.state, readings, disagreement := true, decidedBy := s.rule.id,
        composerSemantic := s.rule.composerSemantic }
    | none =>
      { state := .unknown, readings, decidedBy := "idle_unconfirmed",
        composerSemantic := screen.bind (·.rule.composerSemantic) }
  else
    match winner with
    | some w =>
      { state := w.state, readings, decidedBy := w.id,
        disagreement := title.any fun t => screen.any fun s => t.rule.state ≠ s.rule.state,
        composerSemantic := screen.bind (·.rule.composerSemantic) }
    | none => { state := .unknown, readings, decidedBy := "no_rule" }

/-! ## The stored hook reading -/

structure HookEntry where
  panePid : ProcId
  manifest : Option String
  state : AgentState
  rule : String
  ts : Nat
  disagreements : Nat := 0
  activeStart : Bool := false
  authoritativeEnd : Bool := false
  promoted : Bool := false

namespace HookEntry

def reading (e : HookEntry) : SensorReading :=
  ⟨.hook, e.state, e.rule, e.ts⟩

def describes (e : HookEntry) (agent : Option ProcId) (manifest : Option String) : Bool :=
  agent = some e.panePid && e.manifest = manifest

def activeStartFor (e : HookEntry) (agent : ProcId) (manifest : Option String) : Bool :=
  e.activeStart && e.describes (some agent) manifest

end HookEntry

def hookReadingTtlMs : Nat := 300000

def hookDisagreeLimit : Nat := 3

/-- Whether a stored hook reading still counts. -/
inductive HookAction where
  | use
  | drop

def newerVisualWorking (d : Detection) (ts : Nat) : Bool :=
  d.readings.any fun r => r.sensor ≠ .hook && r.state = .working && r.ts ≥ ts

def hookActionObservedWithTerminal (e : HookEntry) (d : Detection)
    (idleConfirmed activeStartTerminal inMode bindingStable : Bool) (nowMs : Nat) :
    HookEntry × HookAction :=
  if e.activeStart then
    if idleConfirmed && (e.promoted || activeStartTerminal) && d.state.idleClass && !inMode
        && !d.stale && bindingStable then (e, .drop)
    else (e, .use)
  else if e.authoritativeEnd then
    if d.state.idleClass || newerVisualWorking d e.ts then (e, .drop) else (e, .use)
  else if nowMs - e.ts > hookReadingTtlMs then (e, .drop)
  else if d.state = .unknown then (e, .use)
  else if d.state = e.state then ({ e with disagreements := 0 }, .use)
  else
    let e := { e with disagreements := e.disagreements + 1 }
    if e.disagreements ≥ hookDisagreeLimit then (e, .drop) else (e, .use)

def applyHookReading (d : Detection) (e : HookEntry) : Detection :=
  let newer := newerVisualWorking d e.ts
  let visualState := d.state
  let d := { d with readings := d.readings ++ [e.reading] }
  if e.authoritativeEnd && newer then d
  else if e.authoritativeEnd && e.state = .idle
      && (visualState = .unknown || visualState = .idle) then
    { d with state := .idle, decidedBy := "hook:" ++ e.rule }
  else if e.activeStart && e.state = .working && !visualState.isBlocked then
    { d with state := .working, decidedBy := "hook:" ++ e.rule,
             disagreement := d.disagreement
               || (visualState ≠ .unknown && visualState ≠ .working) }
  else if visualState = .unknown then
    { d with state := e.state, decidedBy := "hook:" ++ e.rule }
  else if e.state ≠ visualState then { d with disagreement := true }
  else d

def hookStage (hook : Option HookEntry) (admitted : Option ProcId) (manifestId : Option String)
    (d : Detection) (idleConfirmed activeStartTerminal inMode bindingStable : Bool)
    (nowMs : Nat) : Option HookEntry × Detection :=
  match hook with
  | none => (none, d)
  | some e =>
    -- Attribution failed: the reading is neither used nor destroyed.
    if admitted = none then (some e, d)
    else if !e.describes admitted manifestId then (none, d)
    else
      match hookActionObservedWithTerminal e d idleConfirmed activeStartTerminal inMode
          bindingStable nowMs with
      | (e, .use) => (some e, applyHookReading d e)
      | (_, .drop) => (none, d)

/-! ## Liveness -/

/-- May process-bound liveness admit `Idle` on this frame? -/
def livenessAdmitsIdle (d : Detection) (screen : Option CompiledRule)
    (activeStart inMode bindingStable : Bool) : Bool :=
  d.state = .unknown && d.decidedBy = "idle_unconfirmed"
    && screen.any (fun r => r.state.idleClass && r.composerSemantic = some .clean)
    && d.hasScreenReading && !activeStart && !d.stale && !inMode && bindingStable

def livenessIdleAdmission (hook : Option HookEntry) (admitted : Option ProcId)
    (manifestId : Option String) (screen : Option CompiledRule)
    (livenessVerified bindingStable inMode : Bool) (d : Detection) : Detection :=
  match admitted, manifestId with
  | some agent, some id =>
    let activeStart := hook.any fun e => e.activeStartFor agent (some id)
    if livenessAdmitsIdle d screen activeStart inMode bindingStable && livenessVerified then
      { d with state := .idle,
               decidedBy := "liveness:" ++ (screen.map CompiledRule.id).getD "screen" }
    else d
  | _, _ => d

/-! ## Screen evidence through the stages -/

theorem fuse_hasScreenReading (m : Manifest) (t s : Option Winner) (r c : Bool) (ts : Nat) :
    (fuse m t s r c ts).hasScreenReading = s.isSome := by
  have readings : (fuse m t s r c ts).readings =
      (t.map (·.reading .title ts)).toList ++ (s.map (·.reading .screen ts)).toList := by
    unfold fuse
    dsimp only
    split_ifs
    · split <;> rfl
    · split <;> rfl
  rw [Detection.hasScreenReading, readings]
  cases t <;> cases s <;> simp [Winner.reading]

structure KeepsScreen (before after : Detection) : Prop where
  composer : after.composerSemantic = before.composerSemantic
  reading : after.hasScreenReading = before.hasScreenReading
  stale : after.stale = before.stale

theorem KeepsScreen.refl (d : Detection) : KeepsScreen d d :=
  ⟨rfl, rfl, rfl⟩

theorem KeepsScreen.trans {a b c : Detection} (ab : KeepsScreen a b) (bc : KeepsScreen b c) :
    KeepsScreen a c :=
  ⟨bc.composer.trans ab.composer, bc.reading.trans ab.reading, bc.stale.trans ab.stale⟩

theorem applyHookReading_keeps (d : Detection) (e : HookEntry) :
    KeepsScreen d (applyHookReading d e) := by
  have appended : (d.readings ++ [e.reading]).any (fun r => decide (r.sensor = .screen)) =
      d.readings.any fun r => decide (r.sensor = .screen) := by
    simp [HookEntry.reading]
  unfold applyHookReading
  dsimp only
  split_ifs <;> exact ⟨rfl, appended, rfl⟩

theorem hookStage_keeps (hook : Option HookEntry) (admitted : Option ProcId)
    (m : Option String) (d : Detection)
    (i a im b : Bool) (n : Nat) :
    KeepsScreen d (hookStage hook admitted m d i a im b n).2 := by
  cases hook with
  | none => exact .refl d
  | some =>
    unfold hookStage
    dsimp only
    split_ifs
    · exact .refl d
    · exact .refl d
    · split
      · exact applyHookReading_keeps d _
      · exact .refl d

theorem livenessIdleAdmission_keeps (hook : Option HookEntry) (a : Option ProcId)
    (m : Option String) (s : Option CompiledRule)
    (l b i : Bool) (d : Detection) :
    KeepsScreen d (livenessIdleAdmission hook a m s l b i d) := by
  unfold livenessIdleAdmission
  split
  · dsimp only
    split_ifs
    · exact ⟨rfl, rfl, rfl⟩
    · exact .refl d
  · exact .refl d

end Cyclops.Fusion
