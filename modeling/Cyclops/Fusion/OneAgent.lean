import Cyclops.Fusion.Barrier
import Cyclops.Fusion.WriteReady

/-!
# A composer hold follows one agent

A hold describes one agent's composer.

Result: `hold_follows_one_agent`.
-/

namespace Cyclops.Fusion

open Cyclops.Identity (ProcId)
open Runs PaneState Observation Option Bool

/-! ## Barriers of an observation -/

def Observation.firstSight (o : Observation) : Barrier :=
  ((o.observe {}).entry.map DetEntry.barrier).getD {}

def Observation.retains (o : Observation) (s : PaneState) : Bool :=
  !o.row.dead && o.captureFailed && (o.retainStale s.entry).isSome

def Observation.startsFrom (o : Observation) (s : PaneState) : Option Barrier :=
  if o.livingInMode then some ((s.entry.map DetEntry.barrier).getD {})
  else if o.retains s then none
  else some (((o.frozen s.entry).map DetEntry.barrier).getD (o.carriedBarrier s.entry))

/-- An event that proves the pane dead or gone, or somebody else in it. -/
def HoldEvent.disproves (k : EntryKey) : HoldEvent → Bool
  | .missing => true
  | .observe o =>
    match o.binding with
    | .gone => true
    | .bound _ => o.key ≠ k
    | .notVendor | .unprovable => false
  | _ => false

def HoldEvent.isOperation : HoldEvent → Bool
  | .observe _ | .missing => false
  | _ => true

/-- A run of a pane, with the barrier one agent's entry last had. -/
structure Memory where
  state : PaneState := {}
  left : Option Barrier := none

def Memory.step (k : EntryKey) (w : Memory) (x : HoldEvent) : Memory :=
  let s := w.state.step x
  let now := (s.entry.filter fun e => e.key = k).map DetEntry.barrier
  { state := s, left := now.or (if x.disproves k then none else w.left) }

def lastHeld (k : EntryKey) (xs : List HoldEvent) : Option Barrier :=
  (xs.foldl (Memory.step k) {}).left

def faithful (s : PaneState) : HoldEvent → Bool
  | .observe o =>
    !o.livingInMode || o.unobservable || s.entry.all fun e => e.barrier = {} || e.key = o.key
  | .releaseUnwrittenHold _ _ _ => s.entry.all fun e => e.turn = none
  | _ => true

/-! ## Rebinding -/

namespace Observation

variable {o : Observation} {s s' : PaneState} {e e' : DetEntry}

theorem Settles.barrier_of_uncarried (hs : Settles o s s' e') (nothing : o.carried s.entry = none) :
    e'.barrier = { hold := ComposerHold.clear.advance o.verdict none } := by
  have base : o.baseHold s.entry = .clear := by
    simp [baseHold, nothing, ComposerHold.releaseAfterSettledVisibleEmpty]
  have hold := hs.hold
  have turn := hs.turn
  have owner := hs.owner
  simp only [carriedBarrier, nothing, base, settleTurn, turnEnded, map_none,
    getD_none, ite_self] at hold turn owner
  simp only [DetEntry.barrier, hold, turn, owner]

theorem firstSight_eq (ho : o.livingInMode = false) :
    o.firstSight = { hold := ComposerHold.clear.advance o.verdict none } := by
  rcases o.observe_cases {} with ⟨_, _, was, -⟩ | ⟨_, _, inMode, -⟩ | ⟨_, inMode, -⟩ | ⟨-, e', hs⟩
  · cases was
  · cases ho.symm.trans inMode
  · cases ho.symm.trans inMode
  · simp only [firstSight, hs.entry]
    exact hs.barrier_of_uncarried rfl

theorem carried_eq_none_of_rebound (hs : Settles o s s' e') (hp : s.entry = some e)
    (hr : e'.key ≠ e.key) : o.carried s.entry = none := by
  cases ha : o.admitted with
  | none => exact carried_of_unadmitted ha hs.unfrozen
  | some =>
    rw [carried_of_admitted ha, hp]
    simp [← hs.key, Ne.symm hr]

/-- An observation that leaves the entry bound to somebody else leaves the barrier of a
first sight. -/
theorem rebinding_starts_afresh (ok : faithful s (.observe o) = true) (prior : s.entry = some e)
    (next : (o.observe s).entry = some e') (hr : e'.key ≠ e.key) :
    e'.barrier = o.firstSight := by
  rcases o.observe_cases s with ⟨e₀, e₁, hk⟩ | ⟨e₀, e₁, inMode, read, was, now, key, same, -⟩ |
      ⟨e₁, -, was, -⟩ | ⟨ho, e₁, hs⟩
  · obtain ⟨was, now, key, -, -⟩ := hk
    cases prior.symm.trans was
    cases next.symm.trans now
    exact absurd key hr
  · cases prior.symm.trans was
    cases next.symm.trans now
    have empty : e.barrier = {} := by
      simp only [faithful, inMode, read, prior, Bool.not_true, Bool.false_or, all_some,
        or_eq_true, decide_eq_true_eq] at ok
      exact ok.resolve_right fun same => hr (key.trans same.symm)
    have first : o.firstSight = {} := by
      simp only [livingInMode] at inMode
      simp [firstSight, observe, inMode]
      rfl
    rw [same, empty, first]
  · cases prior.symm.trans was
  · cases next.symm.trans hs.entry
    rw [hs.barrier_of_uncarried (carried_eq_none_of_rebound hs prior hr), firstSight_eq ho]

/-! ## Remembering -/

theorem frozen_of_held (nobody : o.admitted = none) (hp : o.binding ≠ .gone)
    (held : e.hold ≠ .clear) : o.frozen (some e) = some e := by
  have living : o.row.dead = false := by
    by_contra hd
    have hd : o.before.row.dead = true := by simpa [row] using hd
    exact hp (by simp [binding, PaneRead.binding, hd])
  have seen : o.before.occupant ≠ .gone := by
    intro hg
    exact hp (by simp [binding, PaneRead.binding, hg])
  simp [frozen, identityUnproven, nobody, living, seen, ComposerHold.refuses, held]

theorem admitted_of_undisproved {k : EntryKey} (ho : o.key ≠ k)
    (hu : (HoldEvent.observe o).disproves k = false) :
    o.admitted = none ∧ o.binding ≠ .gone := by
  simp only [HoldEvent.disproves] at hu
  cases binding : o.binding with
  | bound => simp [binding, ho] at hu
  | gone => simp [binding] at hu
  | notVendor | unprovable => simp [admitted, binding, BindingObservation.binding?]

end Observation

/-- What the agent's entry last held is on its entry still, or was nothing. -/
structure Remembers (k : EntryKey) (w : Memory) : Prop where
  tidy : ∀ e, w.state.entry = some e → e.Tidy
  left : ∀ b, w.left = some b →
    (∃ e, w.state.entry = some e ∧ e.key = k ∧ e.barrier = b) ∨
      b = {} ∧ ∀ e, w.state.entry = some e → e.key ≠ k

namespace Remembers

variable {k : EntryKey} {w : Memory} {x : HoldEvent}

theorem initial : Remembers k {} :=
  ⟨by simp, by simp⟩

theorem left_of_unbound (hu : ∀ e', (w.state.step x).entry = some e' → e'.key ≠ k) :
    (w.step k x).left = if x.disproves k then none else w.left := by
  have hn' : (w.state.step x).entry.filter (fun e => decide (e.key = k)) = none := by
    cases next : (w.state.step x).entry with
    | none => rfl
    | some e' => simp [hu e' next]
  simp [Memory.step, hn']

theorem of_step (ht : ∀ e', (w.state.step x).entry = some e' → e'.Tidy)
    (ha : (∀ e', (w.state.step x).entry = some e' → e'.key ≠ k) →
      x.disproves k = false → ∀ b, w.left = some b → b = {}) :
    Remembers k (w.step k x) := by
  refine ⟨ht, fun b left => ?_⟩
  by_cases bound : ∃ e', (w.state.step x).entry = some e' ∧ e'.key = k
  · obtain ⟨e', next, bound⟩ := bound
    exact .inl ⟨e', next, bound, by simpa [Memory.step, next, bound] using left⟩
  · have hu : ∀ e', (w.state.step x).entry = some e' → e'.key ≠ k :=
      fun e' next hs => bound ⟨e', next, hs⟩
    rw [left_of_unbound hu] at left
    cases hd : x.disproves k with
    | true => simp [hd] at left
    | false =>
      rw [hd] at left
      exact .inr ⟨ha hu hd b left, hu⟩

theorem of_same_key (h : Remembers k w) (ht : ∀ e', (w.state.step x).entry = some e' → e'.Tidy)
    (hsa : (w.state.step x).entry.map DetEntry.key = w.state.entry.map DetEntry.key) :
    Remembers k (w.step k x) := by
  refine of_step ht fun hu _ b left => ?_
  rcases h.left b left with ⟨e, was, key, -⟩ | ⟨he, -⟩
  · rw [was, map_some, map_eq_some_iff] at hsa
    obtain ⟨e', next, hs⟩ := hsa
    exact absurd (hs.trans key) (hu e' next)
  · exact he

theorem operation {s : PaneState} (ht : ∀ e, s.entry = some e → e.Tidy)
    (ok : faithful s x = true) (op : x.isOperation = true) :
    (∀ e', (s.step x).entry = some e' → e'.Tidy) ∧
      (s.step x).entry.map DetEntry.key = s.entry.map DetEntry.key := by
  have hu : ∀ t : PaneState, t.entry = s.entry → (∀ e', t.entry = some e' → e'.Tidy) ∧
      t.entry.map DetEntry.key = s.entry.map DetEntry.key :=
    fun t hs => ⟨fun e' next => ht e' (hs ▸ next), by rw [hs]⟩
  have hc : ∀ (t : PaneState) (e e' : DetEntry), s.entry = some e → t.entry = some e' →
      e'.key = e.key → e'.Tidy → (∀ e', t.entry = some e' → e'.Tidy) ∧
        t.entry.map DetEntry.key = s.entry.map DetEntry.key := by
    intro t e e' prior next hk ht'
    refine ⟨fun e₁ hs => ?_, by simp [prior, next, hk]⟩
    cases next.symm.trans hs
    exact ht'
  cases x with
  | observe => cases op
  | missing => cases op
  | claimHold owner agent manifest =>
    rcases s.claimHold_cases owner agent manifest with hs | ⟨e, prior, -, next⟩
    · exact hu _ (congrArg entry hs)
    · exact hc _ e _ prior (congrArg entry next) rfl (fun clear => (by cases clear))
  | setHoldOwned owner change =>
    rcases s.setHoldOwned_cases owner change with hs | ⟨e, since, prior, -, next⟩
    · exact hu _ (congrArg entry hs)
    · exact hc _ e _ prior (congrArg entry next) rfl (fun clear => (by cases clear))
  | bindTurn owner turn since =>
    rcases s.bindTurn_cases owner turn since with ⟨hs, -⟩ | ⟨e, agent, manifest, prior, -, -,
        owned, -, ⟨-, -, next⟩ | ⟨-, -, next⟩⟩
    · exact hu _ (congrArg entry hs)
    · exact hu _ ((congrArg entry next).trans rfl)
    · refine hc _ e _ prior (congrArg entry next) rfl fun clear => ?_
      -- An owned hold is not clear, and binding a turn does not clear it.
      have clear : e.hold = .clear := by
        by_cases hw : e.hold.isWaiting = true
        · simp [restamp, hw] at clear
        · simpa [restamp, hw] using clear
      have hun := congrArg Barrier.owner (ht e prior clear)
      cases owned.symm.trans hun
  | releaseUnwrittenHold owner agent manifest =>
    rcases s.releaseUnwrittenHold_cases owner agent manifest with hs | ⟨e, prior, -, next⟩
    · exact hu _ (congrArg entry hs)
    · refine hc _ e _ prior (congrArg entry next) rfl fun _ => ?_
      have hf : e.turn = none := by simpa [faithful, prior] using ok
      simp [DetEntry.barrier, restamp, hf]
  | clearHoldOwner owner =>
    rcases s.clearHoldOwner_cases owner with hs | ⟨e, prior, -, next⟩
    · exact hu _ (congrArg entry hs)
    · exact hc _ e _ prior (congrArg entry next) rfl fun _ => rfl
  | recordEnd => exact hu _ rfl

theorem observe {o : Observation} (h : Remembers k w)
    (ok : faithful w.state (.observe o) = true) : Remembers k (w.step k (.observe o)) := by
  rcases o.observe_cases w.state with ⟨e, e', hk⟩ |
      ⟨e, e', inMode, read, was, now, key, same, -⟩ | ⟨e', -, was, now, key, empty, -⟩ |
      ⟨-, e', hs⟩
  · obtain ⟨was, now, key, same, -⟩ := hk
    refine h.of_same_key (fun e₁ next => ?_) (by simp [step, was, now, key])
    cases now.symm.trans next
    exact (h.tidy e was).of_barrier same
  · have ht : ∀ e₁, (o.observe w.state).entry = some e₁ → e₁.Tidy := by
      intro e₁ next
      cases now.symm.trans next
      exact (h.tidy e was).of_barrier same
    refine of_step ht fun hu _ b left => ?_
    -- The binding was rewritten: the entry had no barrier, or was this observation's.
    simp only [faithful, inMode, read, was, Bool.not_true, Bool.false_or, all_some,
      or_eq_true, decide_eq_true_eq] at ok
    rcases h.left b left with ⟨e₁, was₁, bound, hb⟩ | ⟨hn, -⟩
    · cases was.symm.trans was₁
      rcases ok with hn | hsa
      · exact hb.symm.trans hn
      · exact absurd ((key.trans hsa.symm).trans bound) (hu e' now)
    · exact hn
  · refine of_step (fun e₁ next => ?_) fun _ _ b left => ?_
    · cases now.symm.trans next
      exact fun _ => empty
    · rcases h.left b left with ⟨e, was', -⟩ | ⟨hn, -⟩
      · cases was.symm.trans was'
      · exact hn
  · refine of_step (fun e₁ next => ?_) fun hu hund b left => ?_
    · cases hs.entry.symm.trans next
      exact hs.tidy
    · -- Nobody was admitted, so a held entry would have been frozen.
      have ho : o.key ≠ k := fun same => hu e' hs.entry (hs.key.trans same)
      obtain ⟨hno, hp⟩ := admitted_of_undisproved ho hund
      rcases h.left b left with ⟨e, was, -, hb⟩ | ⟨hn, -⟩
      · have clear : e.hold = .clear := by
          by_contra held
          have hf := frozen_of_held hno hp held
          have hun := hs.unfrozen
          rw [was, hf] at hun
          cases hun
        exact hb.symm.trans (h.tidy e was clear)
      · exact hn

theorem step (h : Remembers k w) (ok : faithful w.state x = true) : Remembers k (w.step k x) := by
  cases op : x.isOperation with
  | true =>
    obtain ⟨ht, hs⟩ := operation h.tidy ok op
    exact h.of_same_key ht hs
  | false =>
    cases x with
    | observe => exact h.observe ok
    | missing =>
      refine of_step (by simp [step, observeMissing]) fun _ hd => ?_
      cases hd
    | _ => cases op

theorem state_run (k : EntryKey) (xs : List HoldEvent) (w : Memory) :
    (xs.foldl (Memory.step k) w).state = xs.foldl PaneState.step w.state := by
  induction xs generalizing w with
  | nil => rfl
  | cons x xs ih => exact ih (w.step k x)

theorem run {xs : List HoldEvent} (h : Remembers k w)
    (ok : Along PaneState.step (fun s x => faithful s x = true) w.state xs) :
    Remembers k (xs.foldl (Memory.step k) w) := by
  induction xs generalizing w with
  | nil => exact h
  | cons x xs ih => exact ih (h.step ok.1) ok.2

theorem starts {o : Observation} {ag : ProcId} {b b' : Barrier} (h : Remembers k w)
    (ok : faithful w.state (.observe o) = true) (had : o.key = k)
    (ha : o.admitted = some ag) (left : w.left = some b)
    (hs : o.startsFrom w.state = some b') : b' = b := by
  have read : o.unobservable = false := by
    by_contra hun
    have hno := admitted_of_unobservable (by simpa using hun)
    cases ha.symm.trans hno
  have hu : ∀ p, o.frozen p = none := by
    intro p
    simp [frozen, identityUnproven, read, ha]
  unfold startsFrom at hs
  split_ifs at hs with inMode
  · simp only [some.injEq] at hs
    subst hs
    rcases h.left b left with ⟨e, was, -, hb⟩ | ⟨hn, ho⟩
    · simp [was, hb]
    · cases was : w.state.entry with
      | none => exact hn.symm
      | some e =>
        simp only [faithful, inMode, read, was, Bool.not_true, Bool.false_or, all_some,
          or_eq_true, decide_eq_true_eq] at ok
        have he := ok.resolve_right fun hsa => ho e was (hsa.trans had)
        simp [hn, he]
  · rw [hu, map_none, getD_none, some.injEq] at hs
    subst hs
    rw [carriedBarrier, carried_of_admitted ha, had]
    rcases h.left b left with ⟨e, was, key, hb⟩ | ⟨hn, ho⟩
    · simp [was, Option.filter, key, hb]
    · cases was : w.state.entry with
      | none => exact hn.symm
      | some e => simp [hn, Option.filter, ho e was]

end Remembers

/-- Where no observation in a mode finds somebody else behind a barrier, a rebound entry has the
barrier of a first sight, and an agent admitted again starts from the barrier it last had. -/
theorem hold_follows_one_agent (xs : List HoldEvent) (x : HoldEvent)
    (ok : Along step (fun s x => faithful s x = true) {} (xs ++ [x])) :
    (∀ e e', (xs.foldl step {}).entry = some e →
      ((xs ++ [x]).foldl step {}).entry = some e' → e'.key ≠ e.key →
      ∃ o, x = .observe o ∧ e'.barrier = o.firstSight) ∧
    (∀ o agent manifest b b', x = .observe o → o.key = ⟨some agent, some manifest⟩ →
      lastHeld ⟨some agent, some manifest⟩ xs = some b →
      o.startsFrom (xs.foldl step {}) = some b' → b' = b) := by
  obtain ⟨hb, last, -⟩ := along_append.mp ok
  rw [List.foldl_append]
  constructor
  · intro e e' hw next hr
    cases op : x.isOperation with
    | true =>
      have ht := (Remembers.run (k := e.key) .initial hb).tidy
      rw [Remembers.state_run] at ht
      obtain ⟨-, hsa⟩ := Remembers.operation ht last op
      simp only [List.foldl_cons, List.foldl_nil] at next
      rw [next, hw] at hsa
      exact absurd (by simpa using hsa) hr
    | false =>
      cases x with
      | observe o => exact ⟨o, rfl, Observation.rebinding_starts_afresh last hw next hr⟩
      | missing => cases next
      | _ => cases op
  · rintro o agent manifest b b' rfl ha left hst
    have hre := Remembers.run (k := ⟨some agent, some manifest⟩) .initial hb
    have hs := Remembers.state_run ⟨some agent, some manifest⟩ xs {}
    refine hre.starts (by rw [hs]; exact last) ha (congrArg EntryKey.agent ha) left ?_
    rw [hs]
    exact hst

/-! ## Copy mode -/

def scrolling (read : PaneRead) : Observation :=
  { before := { read with row := { panePid := 10, inMode := true } }, manifest := some alwaysClean }

def shellAt (pid : Int) : PaneRead :=
  { agentAt pid with admitted := .notVendor }

def heldByFirst : List HoldEvent :=
  [.observe (cleanFrame (agentAt 20) (some (agentAt 20))),
   .claimHold "m-1#1" (some ⟨20, 2⟩) (some "clean")]

def heldThroughDoubt : List HoldEvent :=
  heldByFirst ++ [.observe (scrolling (agentAt 20)), .observe (cleanFrame (shellAt 30) none)]

theorem held_hold_returns : ∃ b, (cleanFrame (agentAt 20) (some (agentAt 20))).startsFrom
      (heldThroughDoubt.foldl step {}) = some b ∧
      b = { hold := .staged, owner := some "m-1#1" } :=
  ⟨_, rfl, (hold_follows_one_agent heldThroughDoubt
    (.observe (cleanFrame (agentAt 20) (some (agentAt 20)))) (by decide)).2
      _ ⟨20, 2⟩ "clean" _ _ rfl (by decide) (by decide) rfl⟩

/-- In copy mode the barrier of one agent becomes another's, or is lost. -/
theorem hold_passed_in_copy_mode :
    (let s := heldByFirst.foldl step {}
     let s' := s.step (.observe (scrolling (agentAt 21)))
     s.entry.map DetEntry.key = some ⟨some ⟨20, 2⟩, some "clean"⟩ ∧
       s'.entry.map DetEntry.key = some ⟨some ⟨21, 2⟩, some "clean"⟩ ∧
       s'.entry.map DetEntry.barrier = some { hold := .staged, owner := some "m-1#1" } ∧
       (scrolling (agentAt 21)).firstSight = {}) ∧
    (let xs := heldByFirst ++ [.observe (scrolling (shellAt 30))]
     lastHeld ⟨some ⟨20, 2⟩, some "clean"⟩ xs = some { hold := .staged, owner := some "m-1#1" } ∧
       (cleanFrame (agentAt 20) (some (agentAt 20))).startsFrom (xs.foldl step {}) = some {}) := by
  decide

end Cyclops.Fusion
