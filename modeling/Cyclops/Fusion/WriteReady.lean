import Cyclops.Fusion.Observe

/-!
# Write-readiness and the capture it rests on

A verdict that allows a write has to rest on one capture: the screen came back, showed a composer
that is clean or holds a ghost suggestion, and the pane was the same, alive and out of mode, before
and after it.

Results: `Observation.observe_ready`, `write_ready_rests_on_one_capture`,
`replaced_pane_published_ready`.
-/

namespace Cyclops.Fusion

open Observation Option Detection

open Cyclops.Identity (ProcId)

/-- A published verdict rests on one stable capture of this observation. -/
structure OneCapture (o : Observation) (e : DetEntry) : Prop where
  composer : ∃ m screen, o.manifest = some m ∧ o.screen m = some screen ∧
    (screenComposerSemanticEsc m screen = some .clean ∨
      screenComposerSemanticEsc m screen = some .ghostSuggestion)
  /-- The row, recipient and binding read after the capture are those read before it, and
  the pane is alive and out of mode on that read too. -/
  after : ∃ a, o.after = some a ∧ a.row.panePid = o.before.row.panePid ∧
    a.recipient = o.before.recipient ∧ a.binding = o.before.binding ∧
    a.row.dead = false ∧ a.row.inMode = false
  alive : o.before.row.dead = false
  outOfMode : o.before.row.inMode = false
  clear : e.hold = .clear

namespace Observation

variable {o : Observation} {s : PaneState} {e : DetEntry}

/-! ## Screen evidence of a verdict -/

theorem rulesVerdict_screen {m : Manifest} (hr : (o.rulesVerdict m).hasScreenReading) :
    ∃ screen, o.screen m = some screen ∧
      (o.rulesVerdict m).composerSemantic = screenComposerSemanticEsc m screen := by
  unfold rulesVerdict at hr ⊢
  cases hc : o.screen m with
  | none =>
    -- With no capture no screen rule can have won.
    have hf := fuse_hasScreenReading m (titleWinner m o.row.title)
      none (manifestUsesScreenTier m) (winnerConfirmsIdle none) o.ts
    simp only [hc] at hr
    split_ifs at hr <;> exact absurd (hf.symm.trans hr) (by simp)
  | some screen =>
    refine ⟨screen, rfl, ?_⟩
    split_ifs <;> rfl

theorem visualVerdict_screen (hr : o.visualVerdict.hasScreenReading) :
    o.row.dead = false ∧ ∃ m screen, o.manifest = some m ∧ o.screen m = some screen ∧
      o.visualVerdict.composerSemantic = screenComposerSemanticEsc m screen := by
  unfold visualVerdict at hr ⊢
  split_ifs at hr ⊢ with hd
  · cases hr
  · cases hb : o.manifest with
    | none => simp [hb, hasScreenReading] at hr
    | some m =>
      simp only [hb] at hr
      obtain ⟨screen, captured, hc⟩ := rulesVerdict_screen hr
      exact ⟨by simpa using hd, m, screen, rfl, captured, hc⟩

theorem verdict_keeps (o : Observation) : KeepsScreen o.visualVerdict o.verdict := by
  have staged : KeepsScreen o.visualVerdict (if o.row.dead then (o.hook, o.visualVerdict)
        else hookStage o.hook o.admitted o.manifestId o.visualVerdict
          (winnerConfirmsIdle (o.manifest.bind o.screenRule))
          ((o.manifest.bind o.screenRule).any (·.rule.activeStartTerminal)) o.row.inMode
          o.bindingStable o.ts).2 := by
    split_ifs
    · exact .refl _
    · exact hookStage_keeps ..
  unfold verdict
  dsimp only
  split
  · exact staged
  · exact staged.trans (livenessIdleAdmission_keeps ..)

def ShowsComposer (o : Observation) : Prop :=
  ∃ m screen, o.manifest = some m ∧ o.screen m = some screen ∧
    (screenComposerSemanticEsc m screen = some .clean ∨
      screenComposerSemanticEsc m screen = some .ghostSuggestion)

theorem verdict_evidence (hr : o.verdict.baseWriteReady = .ok ()) :
    o.row.dead = false ∧ o.ShowsComposer := by
  obtain ⟨-, reading, -, hc⟩ := baseWriteReady_evidence hr
  have hk := o.verdict_keeps
  rw [hk.reading] at reading
  rw [hk.composer] at hc
  obtain ⟨ha, m, screen, bound, captured, hs⟩ := visualVerdict_screen reading
  rw [hs] at hc
  exact ⟨ha, m, screen, bound, captured, hc⟩

/-! ## What a published write answer proves -/

theorem settle_ready (hs : (o.settle s).entry = some e) (hr : e.detection.writeReady = true) :
    o.row.inMode = false ∧ o.unobservable = false ∧ o.verdict.baseWriteReady = .ok () ∧
      e.hold = .clear := by
  unfold settle at hs
  cases hf : o.frozen s.entry with simp only [hf, some.injEq] at hs
  | some =>
    subst hs
    cases hr
  | none =>
    subst hs
    dsimp only at hr ⊢
    split_ifs at hr with hu
    · cases hr
    · cases hr
    · rw [stamped_writeReady] at hr
      simp only [Bool.or_eq_true, not_or, Bool.not_eq_true] at hu
      exact ⟨hr.1, hu.1, hr.2.1, hr.2.2⟩

theorem observeInMode_refuses (p : Option DetEntry) :
    (o.observeInMode p).detection.writeReady = false := by
  unfold observeInMode
  cases p <;> cases o.unobservable <;> simp [stamped]

theorem retainStale_refuses {p : Option DetEntry} (hk : o.retainStale p = some e) :
    e.detection.writeReady = false := by
  simp only [retainStale, map_eq_some_iff] at hk
  obtain ⟨entry, -, rfl⟩ := hk
  refine Bool.eq_false_iff.mpr fun hr => ?_
  obtain ⟨-, base, -⟩ := (stamped_writeReady _ _ _).mp hr
  have hf := (baseWriteReady_evidence base).1
  cases hf

/-- A published verdict that allows a write comes from a settled observation. -/
theorem observe_ready (ho : (o.observe s).entry = some e) (hr : e.detection.writeReady = true) :
    o.row.dead = false ∧ o.row.inMode = false ∧ o.unobservable = false ∧ e.hold = .clear ∧
      o.ShowsComposer := by
  have hs : ∀ t : PaneState, (o.settle t).entry = some e → o.row.dead = false ∧
      o.row.inMode = false ∧ o.unobservable = false ∧ e.hold = .clear ∧ o.ShowsComposer := by
    intro t ho
    obtain ⟨outOfMode, observable, base, clear⟩ := settle_ready ho hr
    obtain ⟨ha, he⟩ := verdict_evidence base
    exact ⟨ha, outOfMode, observable, clear, he⟩
  unfold observe at ho
  split_ifs at ho with hf
  · cases ho
    rw [observeInMode_refuses] at hr
    cases hr
  · cases hk : o.retainStale s.entry with
    | none =>
      simp only [hk] at ho
      exact hs s ho
    | some =>
      simp only [hk, some.injEq] at ho
      rw [← ho, retainStale_refuses hk] at hr
      cases hr
  · exact hs s ho

end Observation

/-! ## The bookends -/

theorem composerCaptureBindingIsStable_iff {b : PaneRead} {aft : Option PaneRead} :
    composerCaptureBindingIsStable b aft = true ↔
      ∃ a, aft = some a ∧ a.row.panePid = b.row.panePid ∧
        a.recipient = b.recipient ∧ a.binding = b.binding ∧
        a.row.dead = false ∧ a.row.inMode = false := by
  cases aft with
  | none => simp [composerCaptureBindingIsStable]
  | some => simp [composerCaptureBindingIsStable]; tauto

def alwaysClean : Manifest where
  id := "clean"
  rules := [{ id := "composer", state := .idle, composerSemantic := some .clean,
              region := .bottomNonEmptyLines 1, matchesEsc := fun _ _ _ => true }]

def cleanFrame (before : PaneRead) (after : Option PaneRead) : Observation :=
  { before, after, manifest := some alwaysClean, capture := some ⟨["> "], none⟩ }

def cleanVerdict (block : Option String) : Detection :=
  { state := .idle, readings := [⟨.screen, .idle, "composer", 0⟩], decidedBy := "composer",
    writeBlock := block, composerSemantic := some .clean }

theorem cleanVerdict_passes (b : Option String) : (cleanVerdict b).baseWriteReady = .ok () := by
  have hr : "composer".startsWith "hook:" = false := by decide +kernel
  simp [baseWriteReady, cleanVerdict, screenProvesWriteSafeComposer,
    hasScreenReading, conflictingEvidence]

theorem cleanFrame_verdict {b : PaneRead} (a : Option PaneRead)
    (alive : (cleanFrame b a).row.dead = false) :
    ∃ block, (cleanFrame b a).verdict = cleanVerdict block := by
  -- An idle verdict is nothing for liveness to admit.
  have admitted : ∀ ag id screen v stable i block,
      livenessIdleAdmission none ag id screen v stable i (cleanVerdict block) =
        cleanVerdict block := by
    intro ag id screen v stable i block
    cases ag <;> cases id <;> rfl
  have rules : (cleanFrame b a).rulesVerdict alwaysClean =
      if (cleanFrame b a).captureBindingChanged alwaysClean then
        cleanVerdict (some "binding_changed_during_capture")
      else cleanVerdict none := rfl
  have bound : (cleanFrame b a).manifest = some alwaysClean := rfl
  simp only [verdict, visualVerdict, alive, bound, rules, Bool.false_eq_true,
    if_false]
  split_ifs
  · exact ⟨_, admitted ..⟩
  · exact ⟨_, admitted ..⟩

theorem Observation.settle_first_sight {o : Observation} (ends : Ends)
    (hr : o.unobservable = false) :
    ∃ e, (o.settle ⟨none, ends⟩).entry = some e ∧
      e.detection = o.verdict.stamped o.row.inMode (ComposerHold.clear.advance o.verdict none) := by
  have hk : ComposerHold.clear.releaseAfterSettledVisibleEmpty o.verdict = .clear := rfl
  refine ⟨_, by simp [settle, frozen, identityUnproven]; rfl, ?_⟩
  simp [hr, settleTurn, turnEnded, baseHold, carried, composerHoldCarriedEntry, hk]

theorem cleanFrame_ready (b : PaneRead) (a : Option PaneRead)
    (ha : (cleanFrame b a).row.dead = false)
    (outOfMode : (cleanFrame b a).row.inMode = false)
    (hr : (cleanFrame b a).unobservable = false) :
    ∃ e, ((cleanFrame b a).observe {}).entry = some e ∧ e.detection.writeReady = true := by
  obtain ⟨block, verdict⟩ := cleanFrame_verdict a ha
  obtain ⟨e, settled, hs⟩ := settle_first_sight none hr
  have hc : (cleanFrame b a).captureFailed = false := rfl
  refine ⟨e, ?_, ?_⟩
  · simpa [observe, outOfMode, hc] using settled
  · rw [hs, verdict, stamped_writeReady]
    exact ⟨outOfMode, cleanVerdict_passes block, rfl⟩

/-- Every verdict that allows a write rests on one capture, exactly when the reads after the capture
agree with those before it or the read before it refuses by itself. -/
theorem write_ready_rests_on_one_capture (before : PaneRead) (after : Option PaneRead) :
    (∀ (o : Observation) (s : PaneState) (e : DetEntry), o.before = before → o.after = after →
        (o.observe s).entry = some e → e.detection.writeReady = true → OneCapture o e) ↔
      (composerCaptureBindingIsStable before after = true ∨ before.row.dead = true ∨
        before.row.inMode = true ∨ before.binding = .unprovable) := by
  constructor
  · intro honest
    by_contra hr
    simp only [not_or, Bool.not_eq_true] at hr
    obtain ⟨hun, alive, outOfMode, hrea⟩ := hr
    obtain ⟨e, observed, hre⟩ :=
      cleanFrame_ready before after alive outOfMode (decide_eq_false hrea)
    obtain ⟨a, found, hsa⟩ := (honest _ {} e rfl rfl observed hre).after
    have hs := composerCaptureBindingIsStable_iff.mpr ⟨a, found, hsa⟩
    exact absurd (hun.symm.trans hs) (by simp)
  · rintro hc o s e rfl rfl observed hre
    obtain ⟨alive, outOfMode, observable, clear, he⟩ := observe_ready observed hre
    have hs : composerCaptureBindingIsStable o.before o.after = true := by
      rcases hc with hs | hd | hi | hu
      · exact hs
      · exact absurd hd (by simpa [row] using alive)
      · exact absurd hi (by simpa [row] using outOfMode)
      · simp [unobservable, binding, hu] at observable
    exact ⟨he, composerCaptureBindingIsStable_iff.mp hs, alive, outOfMode, clear⟩

/-! ## An agent replaced during the capture -/

def agentAt (pid : Int) : PaneRead where
  row := { panePid := 10 }
  occupant := .leader pid
  admitted := .bound ⟨⟨10, 1⟩, ⟨pid, 2⟩, ⟨pid, 2⟩, "clean"⟩

/-- The rule tiers refuse the frame, and the stamp allows it again. -/
theorem replaced_pane_published_ready :
    let o := cleanFrame (agentAt 20) (some (agentAt 21))
    o.visualVerdict.writeBlock = some "binding_changed_during_capture" ∧
      ∃ e, (o.observe {}).entry = some e ∧ e.detection.writeReady = true ∧ ¬ OneCapture o e := by
  refine ⟨rfl, ?_⟩
  obtain ⟨e, observed, ready⟩ := cleanFrame_ready (agentAt 20) (some (agentAt 21)) rfl rfl rfl
  refine ⟨e, observed, ready, fun honest => ?_⟩
  obtain ⟨a, found, -, -, same, -⟩ := honest.after
  cases found
  exact absurd same (by decide)

end Cyclops.Fusion
