import Cyclops.Lib.Runs

/-!
# Installed pairs and their known-good

An install stages a client and daemon pair and moves a selector to it.

Result: `known_good_ran_iff`.
-/

namespace Cyclops

open List

/-- The proofs and replay attestations of a selection are left out. -/
structure Selection where
  active : String
  knownGood : String
  legacyActive : Bool
deriving DecidableEq

/-- A direct installation: the name its copy gets in the store, and whether its binaries are one
pair. -/
structure DirectPair where
  copy : String
  matched : Bool

structure PairStore where
  selection : Option Selection := none
  direct : Option DirectPair := none
  /-- The active pairs of the installs that completed, a matching direct pair included. -/
  completed : List String := []

/-- How far an install came. -/
inductive InstallEnd where
  | refused
  | stopped
  | recovered
  | held
  | done

/-- What changes the selector. -/
inductive PairChange where
  | install (candidate : String) (sameReplay : Bool) (ended : InstallEnd)
  | rollback
  | rollbackUndone

namespace PairStore

variable (s : PairStore)

def migrateDirectPair (candidate : String) : PairStore :=
  match s.selection, s.direct with
  | none, some ⟨old, true⟩ =>
    { s with selection := some ⟨old, old, false⟩, completed := old :: s.completed }
  | none, some ⟨old, false⟩ => { s with selection := some ⟨old, candidate, true⟩ }
  | _, _ => s

def activate (candidate : String) (sameReplay : Bool) : PairStore :=
  match s.selection with
  | none => { s with selection := some ⟨candidate, candidate, false⟩ }
  | some p =>
    -- a legacy copy has no replay
    if p.active = candidate ∧ sameReplay = true ∧ p.legacyActive = false then s
    else
      let knownGood := if p.legacyActive then p.knownGood else p.active
      { s with selection := some ⟨candidate, knownGood, false⟩ }

/-- Without an earlier selection there is nothing to restore, and recovery is held. -/
def recoverPriorPairAfterChangeFailure (previous : Option Selection) : PairStore :=
  match previous with
  | none => s
  | some selection => { s with selection }

def rollbackSelection : Option Selection :=
  s.selection.filter fun p => !p.legacyActive && p.active ≠ p.knownGood

def rollback : PairStore :=
  match s.rollbackSelection with
  | none => s
  | some p => { s with selection := some ⟨p.knownGood, p.active, false⟩ }

def step (s : PairStore) : PairChange → PairStore
  | .install _ _ .refused => s
  | .install candidate _ .stopped => s.migrateDirectPair candidate
  | .install candidate sameReplay .recovered =>
    let s := s.migrateDirectPair candidate
    (s.activate candidate sameReplay).recoverPriorPairAfterChangeFailure s.selection
  | .install candidate sameReplay .held =>
    (s.migrateDirectPair candidate).activate candidate sameReplay
  | .install candidate sameReplay .done =>
    let s := (s.migrateDirectPair candidate).activate candidate sameReplay
    { s with completed := candidate :: s.completed }
  | .rollback => s.rollback
  | .rollbackUndone => s

def inUse : Option String :=
  (s.selection.map (·.active)).or (s.direct.map (·.copy))

/-- The known-good pair is in use or was, after a completed install. -/
def KnownGoodRan : Prop :=
  ∀ p, s.selection = some p → p.legacyActive = false →
    p.knownGood = p.active ∨ p.knownGood ∈ s.completed

/-- What is expected of a change. A failed install counts if its recovery was not held. -/
structure Keeps (s : PairStore) (change : PairChange) : Prop where
  ran : (s.step change).KnownGoodRan
  failed : ∀ candidate sameReplay ended, change = .install candidate sameReplay ended →
    ended = .refused ∨ ended = .stopped ∨
      (ended = .recovered ∧ (s.migrateDirectPair candidate).selection.isSome = true) →
    (s.step change).inUse = s.inUse ∧ ∀ p, s.selection = some p → (s.step change).selection = some p
  swapped : change = .rollback → ∀ p, s.rollbackSelection = some p →
    (s.step change).selection = some ⟨p.knownGood, p.active, false⟩ ∧
      (s.step change).rollback.selection = some p

/-- The pair an install or a rollback leaves behind was completely installed. -/
def Careful (s : PairStore) : PairChange → Prop
  | .install candidate sameReplay .held | .install candidate sameReplay .done =>
    ∀ p, (s.migrateDirectPair candidate).selection = some p →
      ¬ (p.active = candidate ∧ sameReplay = true ∧ p.legacyActive = false) →
      if p.legacyActive then p.knownGood = candidate
      else p.active = candidate ∨ p.active ∈ (s.migrateDirectPair candidate).completed
  | .rollback => ∀ p, s.rollbackSelection = some p → p.active ∈ s.completed
  | _ => True

structure Sound (s : PairStore) : Prop where
  fresh : s.selection = none → s.completed = []
  legacy : ∀ p, s.selection = some p → p.legacyActive = true → s.completed = []
  ran : s.KnownGoodRan

variable {s : PairStore} (c : String) (r : Bool)

theorem Sound.migrate (h : s.Sound) : (s.migrateDirectPair c).Sound := by
  unfold migrateDirectPair
  split
  · refine ⟨nofun, ?_, ?_⟩
    · rintro _ ⟨⟩ ⟨⟩
    · rintro _ ⟨⟩ -
      exact .inl rfl
  · next hs _ =>
    refine ⟨nofun, fun _ _ _ => h.fresh hs, ?_⟩
    rintro _ ⟨⟩ ⟨⟩
  · exact h

theorem Sound.activate_ran (h : s.Sound) {more : List String} (hm : more ⊆ [c]) :
    ({ s.activate c r with
      completed := more ++ (s.activate c r).completed }).KnownGoodRan ↔
      ∀ p, s.selection = some p → ¬ (p.active = c ∧ r = true ∧ p.legacyActive = false) →
        if p.legacyActive then p.knownGood = c else p.active = c ∨ p.active ∈ s.completed := by
  have hmore {k : String} : k = c ∨ k ∈ more ++ s.completed ↔ k = c ∨ k ∈ s.completed := by
    rw [mem_append, ← or_assoc, or_iff_left_of_imp fun hk => mem_singleton.mp (hm hk)]
  unfold activate
  cases hs : s.selection with
  | none =>
    refine iff_of_true ?_ nofun
    rintro _ ⟨⟩ -
    exact .inl rfl
  | some p =>
    dsimp only
    split
    · next hsame =>
      refine iff_of_true ?_ ?_
      · intro q hq hl
        exact (h.ran q hq hl).imp_right (mem_append_right more)
      · rintro _ ⟨⟩ hn
        exact absurd hsame hn
    · next hnew =>
      simp only [KnownGoodRan, Option.some.injEq, forall_eq', hmore, hnew]
      cases hl : p.legacyActive with
      | true => simp [h.legacy p hs hl]
      | false => simp

variable {c : String} {r : Bool}

theorem activate_selection : ∃ p, (s.activate c r).selection = some p ∧ p.legacyActive = false := by
  unfold activate
  split
  · exact ⟨_, rfl, rfl⟩
  · next hs =>
    split
    · next hsame => exact ⟨_, hs, hsame.2.2⟩
    · exact ⟨_, rfl, rfl⟩

theorem Sound.activate {completed : List String}
    (hr : ({ s.activate c r with completed }).KnownGoodRan) :
    ({ s.activate c r with completed }).Sound := by
  obtain ⟨p, hp, hl⟩ := @activate_selection s c r
  refine ⟨fun hs => (nomatch hs.symm.trans hp), fun q hq hleg => ?_, hr⟩
  obtain rfl : p = q := Option.some_inj.mp (hp.symm.trans hq)
  exact nomatch hl.symm.trans hleg

theorem migrate_keeps (s : PairStore) (c : String) : (s.migrateDirectPair c).inUse = s.inUse ∧
    ∀ p, s.selection = some p → (s.migrateDirectPair c).selection = some p := by
  unfold migrateDirectPair
  split
  · next hs hd => simp [inUse, hs, hd]
  · next hs hd => simp [inUse, hs, hd]
  · exact ⟨rfl, fun _ => id⟩

theorem recovered_eq {p : Selection} (hp : s.selection = some p) :
    (s.activate c r).recoverPriorPairAfterChangeFailure s.selection = s := by
  obtain ⟨selection, direct, completed⟩ := s
  subst hp
  simp only [activate]
  split <;> rfl

theorem Sound.ran_iff (h : s.Sound) (change : PairChange) :
    (s.step change).KnownGoodRan ↔ s.Careful change := by
  cases change with
  | rollbackUndone => exact iff_of_true h.ran trivial
  | rollback =>
    simp only [PairStore.step, PairStore.rollback, Careful]
    cases hp : s.rollbackSelection with
    | none => exact iff_of_true h.ran nofun
    | some p =>
      have hne : p.active ≠ p.knownGood := by
        have := (Option.filter_eq_some_iff.mp hp).2
        simp_all
      simp [KnownGoodRan, hne]
  | install c r e =>
    cases e with
    | refused => exact iff_of_true h.ran trivial
    | stopped => exact iff_of_true (h.migrate c).ran trivial
    | recovered =>
      refine iff_of_true ?_ trivial
      simp only [PairStore.step]
      cases hp : (s.migrateDirectPair c).selection with
      | none => exact ((h.migrate c).activate_ran c r (nil_subset _)).mpr (by simp [hp])
      | some p =>
        rw [← hp, recovered_eq hp]
        exact (h.migrate c).ran
    | held => exact (h.migrate c).activate_ran c r (nil_subset _)
    | done => exact (h.migrate c).activate_ran c r (Subset.refl _)

theorem Sound.step (h : s.Sound) {change : PairChange} (hr : (s.step change).KnownGoodRan) :
    (s.step change).Sound := by
  cases change with
  | rollbackUndone => exact h
  | rollback =>
    simp only [PairStore.step, PairStore.rollback] at hr ⊢
    split at hr
    · exact h
    · refine ⟨nofun, ?_, hr⟩
      rintro _ ⟨⟩ ⟨⟩
  | install c r e =>
    cases e with
    | refused => exact h
    | stopped => exact h.migrate c
    | recovered =>
      simp only [PairStore.step] at hr ⊢
      cases hp : (s.migrateDirectPair c).selection with
      | none =>
        rw [hp] at hr
        exact Sound.activate hr
      | some p =>
        rw [← hp, recovered_eq hp]
        exact h.migrate c
    | held => exact Sound.activate hr
    | done => exact Sound.activate hr

theorem Sound.keeps_iff (h : s.Sound) (change : PairChange) :
    s.Keeps change ↔ s.Careful change := by
  rw [← h.ran_iff]
  refine ⟨Keeps.ran, fun hr => ⟨hr, ?_, ?_⟩⟩
  · rintro c r e rfl (rfl | rfl | ⟨rfl, hs⟩)
    · exact ⟨rfl, fun _ => id⟩
    · exact migrate_keeps s c
    · obtain ⟨p, hp⟩ := Option.isSome_iff_exists.mp hs
      simp only [PairStore.step, recovered_eq hp]
      exact migrate_keeps s c
  · rintro rfl p hp
    obtain ⟨-, hf⟩ := Option.filter_eq_some_iff.mp hp
    have hs : s.step .rollback = { s with selection := some ⟨p.knownGood, p.active, false⟩ } := by
      simp only [PairStore.step, PairStore.rollback, hp]
    rw [hs]
    obtain ⟨a, knownGood, l⟩ := p
    obtain ⟨rfl, hne⟩ : l = false ∧ a ≠ knownGood := by simpa using hf
    simp [PairStore.rollback, rollbackSelection, Option.filter, hne.symm]

end PairStore

/-- Over every sequence of installs and rollbacks, each change keeps what is expected of it iff each
of them is careful. -/
theorem known_good_ran_iff (direct : Option DirectPair) (changes : List PairChange) :
    Runs.Along PairStore.step PairStore.Keeps { direct } changes ↔
      Runs.Along PairStore.step PairStore.Careful { direct } changes :=
  Runs.along_congr PairStore.Sound (fun _ change h => h.keeps_iff change)
    (fun _ change h hc => h.step ((h.ran_iff change).mpr hc))
    ⟨fun _ => rfl, nofun, nofun⟩

/-- The failed candidate is now known-good, and a rollback selects it. -/
theorem failed_candidate_known_good :
    let s := [.install "first" false .recovered, .install "second" false .done].foldl
      PairStore.step { direct := some ⟨"legacy", false⟩ }
    s.selection = some ⟨"second", "first", false⟩ ∧ s.completed = ["second"] ∧
      s.rollback.inUse = some "first" ∧ ¬ s.KnownGoodRan := by
  refine ⟨by decide, by decide, by decide, fun h => ?_⟩
  have hk := h ⟨"second", "first", false⟩ (by decide) rfl
  revert hk
  decide

end Cyclops
