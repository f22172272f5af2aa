import Cyclops.Fusion.Barrier
import Cyclops.Fusion.WriteReady

/-!
# Turn pins and the holds they protect

The store of turn ends pins the turn an active hold waits on, so that a burst of later ends cannot
evict its release.

Result: `pin_never_outlives_hold`.
-/

namespace Cyclops.Fusion

open Cyclops.Identity (ProcId)
open Runs PaneState Observation Option Bool

def HoldEvent.within (agent : ProcId) (manifest : String) : HoldEvent → Bool
  | .observe o => o.unobservable || o.key = ⟨some agent, some manifest⟩
  | .missing => false
  | .recordEnd a m _ => a = agent && m = manifest
  | _ => true

/-- No barrier is released by its owner while it waits on a turn. -/
def releasesUnbound (s : PaneState) : HoldEvent → Bool
  | .clearHoldOwner owner | .releaseUnwrittenHold owner _ _ =>
    s.entry.all fun e => e.holdOwner ≠ some owner || e.turn = none
  | _ => true

structure Pinned (agent : ProcId) (manifest : String) (s : PaneState) : Prop where
  /-- An entry describes this binding or nobody. -/
  bound : ∀ e, s.entry = some e → e.agent = none ∨ e.key = ⟨some agent, some manifest⟩
  owned : ∀ e, s.entry = some e → e.holdOwner.isSome → e.hold ≠ .clear
  turn : ∀ e, s.entry = some e → e.turn.isSome → e.holdOwner.isSome
  pin : ∀ t, s.ends.pinnedFor agent manifest = some t →
    ∃ e, s.entry = some e ∧ e.key = ⟨some agent, some manifest⟩ ∧ e.turn = some t

namespace Pinned

variable {ag : ProcId} {mf : String} {s : PaneState}

theorem initial : Pinned ag mf {} :=
  ⟨by simp, by simp, by simp, by simp [Ends.pinnedFor]⟩

theorem of_entry {s' : PaneState} {e' : DetEntry} (now : s'.entry = some e')
    (hb : e'.agent = none ∨ e'.key = ⟨some ag, some mf⟩)
    (ho : e'.holdOwner.isSome → e'.hold ≠ .clear) (ht : e'.turn.isSome → e'.holdOwner.isSome)
    (pin : ∀ t, s'.ends.pinnedFor ag mf = some t →
      e'.key = ⟨some ag, some mf⟩ ∧ e'.turn = some t) : Pinned ag mf s' := by
  refine ⟨?_, ?_, ?_, fun t hp => ⟨e', now, pin t hp⟩⟩
  all_goals
    intro e hs
    cases now.symm.trans hs
    assumption

variable {e : DetEntry} {t : TurnKey}

theorem pin_of_entry (h : Pinned ag mf s) (hw : s.entry = some e)
    (hp : s.ends.pinnedFor ag mf = some t) :
    e.key = ⟨some ag, some mf⟩ ∧ e.turn = some t := by
  obtain ⟨e', same, pin⟩ := h.pin t hp
  cases hw.symm.trans same
  exact pin

theorem of_same_turn {s' : PaneState} {e' : DetEntry} (h : Pinned ag mf s)
    (hw : s.entry = some e) (hn : s'.entry = some e') (hk : e'.key = e.key)
    (hs : e'.turn = e.turn) (he : s'.ends = s.ends)
    (ho : e'.holdOwner.isSome → e'.hold ≠ .clear)
    (how : e.holdOwner.isSome → e'.holdOwner.isSome) : Pinned ag mf s' := by
  refine of_entry hn ?_ ho (fun hwa => how (h.turn e hw (hs ▸ hwa))) ?_
  · rw [hk, show e'.agent = e.agent from congrArg EntryKey.agent hk]
    exact h.bound e hw
  · intro t hp
    rw [he] at hp
    rw [hk, hs]
    exact h.pin_of_entry hw hp

/-! ## Observations -/

theorem settleEnds_pin {ends : Ends} {next : ComposerHold} {ended : Option Bool}
    (stopped : next.isTurnStarted = false)
    (ha : ended = some true → ends.holds ag mf t = true)
    (hw : ∀ t', ends.pinnedFor ag mf = some t' → t' = t) :
    (settleEnds ends (some ag) (some mf) (some t) next ended).pinnedFor ag mf = none := by
  simp only [settleEnds, stopped, false_eq_true, if_false]
  cases hp : ends.pinnedFor ag mf with
  | none =>
    split_ifs
    · rw [(Ends.unpinned hp).1, hp]
    · rw [(Ends.unpinned hp).2, hp]
  | some t' =>
    obtain rfl := hw t' hp
    split_ifs with hr
    · simp only [and_eq_true, decide_eq_true_eq] at hr
      exact Ends.pinnedFor_take hp (ha hr.2)
    · exact Ends.pinnedFor_retire hp

theorem settleTurn_pin {ends : Ends} {turn : Option TurnKey} {hold : ComposerHold} {d : Detection}
    (hw : ∀ t, ends.pinnedFor ag mf = some t → turn = some t)
    (hp : (settleTurn ends (some ag) (some mf) turn hold d).ends.pinnedFor ag mf = some t) :
    turn = some t ∧
      (settleTurn ends (some ag) (some mf) turn hold d).hold.isTurnStarted = true := by
  cases turn with
  | none => exact absurd (hw t hp) (by simp)
  | some t' =>
    have ha : turnEnded ends (some ag) (some mf) (some t') = some (ends.holds ag mf t') := rfl
    -- The diagnostic of a missing end does not move the pin.
    have hs : (settleEnds ends (some ag) (some mf) (some t')
        (hold.advance d (some (ends.holds ag mf t')))
        (some (ends.holds ag mf t'))).pinnedFor ag mf = some t := by
      simp only [settleTurn] at hp
      split_ifs at hp
      · rwa [Ends.pinnedFor_reserve] at hp
      · exact hp
    have started : (hold.advance d (some (ends.holds ag mf t'))).isTurnStarted = true := by
      by_contra hst
      rw [settleEnds_pin (by simpa using hst) (by simp)
        fun u hf => by simpa using (hw u hf).symm] at hs
      cases hs
    refine ⟨?_, started⟩
    simp only [settleEnds, started] at hs
    exact hw t hs

section

variable (h : Pinned ag mf s)

include h

theorem observe {o : Observation} (hwi : (HoldEvent.observe o).within ag mf = true) :
    Pinned ag mf (o.observe s) := by
  have hr : o.admitted = none ∨ o.key = ⟨some ag, some mf⟩ := by
    simp only [HoldEvent.within, or_eq_true, decide_eq_true_eq] at hwi
    exact hwi.imp_left admitted_of_unobservable
  rcases o.observe_cases s with ⟨e, e', was, now, key, same, ends⟩ |
      ⟨e, e', -, read, was, now, key, same, ends⟩ | ⟨e', -, was, now, key, empty, ends⟩ |
      ⟨-, e', hs⟩
  · obtain ⟨hsam, sameOwner, hsa⟩ := Barrier.mk.inj same
    refine h.of_same_turn was now key hsa ends ?_ ?_
    · rw [hsam, sameOwner]
      exact h.owned e was
    · rw [sameOwner]
      exact id
  · obtain ⟨hsam, sameOwner, hsa⟩ := Barrier.mk.inj same
    have mine : e'.key = ⟨some ag, some mf⟩ := by
      simpa [HoldEvent.within, read, ← key] using hwi
    refine of_entry now (.inr mine) ?_ ?_ fun t hp => ⟨mine, ?_⟩
    · rw [hsam, sameOwner]
      exact h.owned e was
    · rw [hsa, sameOwner]
      exact h.turn e was
    · rw [ends] at hp
      exact hsa.trans (h.pin_of_entry was hp).2
  · obtain ⟨-, sameOwner, hsa⟩ := Barrier.mk.inj empty
    refine of_entry now ?_ (by simp [sameOwner]) (by simp [hsa]) ?_
    · rw [key, show e'.agent = o.admitted from congrArg EntryKey.agent key]
      exact hr
    · intro t hp
      rw [ends] at hp
      obtain ⟨e, same, -⟩ := h.pin t hp
      cases was.symm.trans same
  · have ho : e'.holdOwner.isSome → e'.hold ≠ .clear := by
      intro how clear
      simp [hs.owner, clear] at how
    have hwa : ∀ t, (o.carriedBarrier s.entry).turn = some t →
        (o.carriedBarrier s.entry).owner.isSome := by
      intro t hw
      rw [carriedBarrier_turn, bind_eq_some_iff] at hw
      obtain ⟨e, carried, hw⟩ := hw
      have was : s.entry = some e := (filter_eq_some_iff.mp carried).1
      rw [carriedBarrier_owner, carried]
      exact h.turn e was (by simp [hw])
    refine of_entry hs.entry ?_ ho ?_ ?_
    · rw [hs.key, show e'.agent = o.admitted from congrArg EntryKey.agent hs.key]
      exact hr
    · intro hw
      rw [hs.turn] at hw
      split_ifs at hw with hst
      · obtain ⟨t, ht⟩ := isSome_iff_exists.mp hw
        rw [hs.owner, if_neg (by rintro clear; simp [clear, ComposerHold.isTurnStarted] at hst)]
        exact hwa t ht
      · cases hw
    · intro t hp
      rw [hs.ends] at hp
      simp only [HoldEvent.within, or_eq_true, decide_eq_true_eq] at hwi
      rcases hwi with hu | mine
      · -- An observation that read nothing freezes every entry, so there was none.
        have hno : s.entry = none := by
          simpa [frozen, hu] using hs.unfrozen
        rw [admitted_of_unobservable hu] at hp
        obtain ⟨e, was, -⟩ := h.pin t (by simpa [settleTurn, settleEnds] using hp)
        cases was.symm.trans hno
      · have ha : o.admitted = some ag := congrArg EntryKey.agent mine
        have hn : o.manifestId = some mf := congrArg EntryKey.manifest mine
        have hw : ∀ t, s.ends.pinnedFor ag mf = some t →
            (o.carriedBarrier s.entry).turn = some t := by
          intro t hp
          obtain ⟨e, was, key, ht⟩ := h.pin t hp
          rw [carriedBarrier_turn, carried_of_admitted ha, was]
          simp [Option.filter, key, mine, ht]
        rw [ha, hn] at hp
        obtain ⟨ht, hst⟩ := settleTurn_pin hw hp
        have hold := hs.hold
        rw [ha, hn] at hold
        refine ⟨hs.key.trans mine, ?_⟩
        rw [hs.turn, hold, if_pos hst, ht]

/-! ## Operations and runs -/

theorem bindTurn (o : String) (turn : TurnKey) (since : Nat) :
    Pinned ag mf (s.bindTurn o turn since).2 := by
  rcases s.bindTurn_cases o turn since with ⟨hs, -⟩ | ⟨e, a, m, was, named, ruled, owned, free, ha⟩
  · rw [hs]
    exact h
  have hk : e.key = ⟨some ag, some mf⟩ :=
    (h.bound e was).resolve_left (by simp [named])
  obtain rfl : a = ag := some.inj (named.symm.trans (congrArg EntryKey.agent hk))
  obtain rfl : m = mf := some.inj (ruled.symm.trans (congrArg EntryKey.manifest hk))
  obtain ⟨ht, hp⟩ := @Ends.pin_eq s.ends a m turn
  rcases ha with ⟨-, refused, next⟩ | ⟨-, accepted, next⟩
  · -- Another turn holds the pin, and keeps it.
    rw [next]
    refine ⟨h.bound, h.owned, h.turn, fun t hn => h.pin t ?_⟩
    rw [hp] at hn
    cases held : s.ends.pinnedFor a m with
    | none =>
      have := ht.mpr (by simp [held])
      cases refused.symm.trans this
    | some => simpa [held] using hn
  · rw [next]
    refine of_entry rfl (.inr hk) (fun _ => ?_) (fun _ => by simp [restamp, owned]) ?_
    · have held := h.owned e was (by simp [owned])
      simp only [restamp]
      split_ifs
      · simp
      · exact held
    · intro t hn
      rw [hp] at hn
      refine ⟨hk, ?_⟩
      cases held : s.ends.pinnedFor a m with
      | none => simpa [held, restamp] using hn
      | some u =>
        obtain rfl := ht.mp accepted u held
        simpa [held, restamp] using hn

theorem step {x : HoldEvent} (hw : x.within ag mf = true) (ok : releasesUnbound s x = true) :
    Pinned ag mf (s.step x) := by
  cases x with
  | observe => exact h.observe hw
  | missing => cases hw
  | claimHold o a m =>
    rcases s.claimHold_cases o a m with hs | ⟨e, was, -, next⟩
    · exact (congrArg (Pinned ag mf) hs).mpr h
    · rw [PaneState.step, next]
      exact h.of_same_turn was rfl rfl rfl rfl (fun _ => (by simp [restamp])) (fun _ => rfl)
  | setHoldOwned o change =>
    rcases s.setHoldOwned_cases o change with hs | ⟨e, since, was, -, next⟩
    · exact (congrArg (Pinned ag mf) hs).mpr h
    · rw [PaneState.step, next]
      exact h.of_same_turn was rfl rfl rfl rfl (fun _ => (by simp [restamp])) id
  | bindTurn o turn since => exact h.bindTurn o turn since
  | releaseUnwrittenHold o a m =>
    rcases s.releaseUnwrittenHold_cases o a m with hs | ⟨e, was, owned, next⟩
    · exact (congrArg (Pinned ag mf) hs).mpr h
    · have hf : e.turn = none := by simpa [releasesUnbound, was, owned] using ok
      rw [PaneState.step, next]
      refine of_entry rfl (h.bound e was) (by simp [restamp]) (by simp [restamp, hf]) fun t hp => ?_
      cases hf.symm.trans (h.pin_of_entry was hp).2
  | clearHoldOwner o =>
    rcases s.clearHoldOwner_cases o with hs | ⟨e, was, owned, next⟩
    · exact (congrArg (Pinned ag mf) hs).mpr h
    · have hf : e.turn = none := by simpa [releasesUnbound, was, owned] using ok
      rw [PaneState.step, next]
      refine of_entry rfl (h.bound e was) (by simp [restamp]) (by simp [restamp]) fun t hp => ?_
      cases hf.symm.trans (h.pin_of_entry was hp).2
  | recordEnd =>
    simp only [HoldEvent.within, and_eq_true, decide_eq_true_eq] at hw
    obtain ⟨rfl, rfl⟩ := hw
    exact ⟨h.bound, h.owned, h.turn, fun t hp => h.pin t (by
      simpa [step, recordEnd] using hp)⟩

theorem run {xs : List HoldEvent} (hw : ∀ x ∈ xs, x.within ag mf = true)
    (ok : Along PaneState.step (fun s x => releasesUnbound s x = true) s xs) :
    Pinned ag mf (xs.foldl PaneState.step s) := by
  induction xs generalizing s with
  | nil => exact h
  | cons x xs ih =>
    exact ih (h.step (hw x List.mem_cons_self) ok.1)
      (fun y hm => hw y (List.mem_cons_of_mem x hm)) ok.2

theorem bindTurn_isSome {o : String} {turn : TurnKey} {since : Nat} (was : s.entry = some e)
    (hk : e.key = ⟨some ag, some mf⟩) (owned : e.holdOwner = some o)
    (free : e.turn = none) : (s.bindTurn o turn since).1.isSome := by
  have hu : s.ends.pinnedFor ag mf = none := by
    cases hp : s.ends.pinnedFor ag mf with
    | none => rfl
    | some => cases free.symm.trans (h.pin_of_entry was hp).2
  have ha : (s.ends.pin ag mf turn).1 = true :=
    Ends.pin_eq.1.mpr (by simp [hu])
  have named : e.agent = some ag := congrArg EntryKey.agent hk
  have ruled : e.manifest = some mf := congrArg EntryKey.manifest hk
  cases han : s.ends.pin ag mf turn with
  | mk taken =>
    rw [han] at ha
    obtain rfl : taken = true := ha
    simp [PaneState.bindTurn, was, named, ruled, owned, free, han]

end

end Pinned

/-- Where no waiting barrier is released by its owner, a pinned turn is the one an owned, held entry
waits on, and an owner can bind its acknowledged turn. -/
theorem pin_never_outlives_hold (agent : ProcId) (manifest : String) (xs : List HoldEvent)
    (within : ∀ x ∈ xs, x.within agent manifest = true)
    (ok : Along step (fun s x => releasesUnbound s x = true) {} xs) :
    (∀ t, (xs.foldl step {}).ends.pinnedFor agent manifest = some t →
      ∃ e, (xs.foldl step {}).entry = some e ∧
        e.key = ⟨some agent, some manifest⟩ ∧ e.holdOwner.isSome ∧ e.hold.refuses ∧
        e.turn = some t) ∧
    (∀ e, (xs.foldl step {}).entry = some e → e.holdOwner = none → e.turn = none) ∧
    (∀ e owner turn since, (xs.foldl step {}).entry = some e →
      e.key = ⟨some agent, some manifest⟩ → e.holdOwner = some owner → e.turn = none →
      ((xs.foldl PaneState.step {}).bindTurn owner turn since).1.isSome) := by
  have h := Pinned.initial.run within ok
  refine ⟨fun t hp => ?_, fun e was hr => ?_, fun e owner turn since was key owned hf =>
    h.bindTurn_isSome was key owned hf⟩
  · obtain ⟨e, was, key, turn⟩ := h.pin t hp
    have owned := h.turn e was (by simp [turn])
    exact ⟨e, was, key, owned, by simpa [ComposerHold.refuses] using h.owned e was owned, turn⟩
  · by_contra hw
    have owned := h.turn e was (isSome_iff_ne_none.mpr hw)
    simp [hr] at owned

/-! ## A claim during the turn -/

def cleanPane : Observation :=
  cleanFrame (agentAt 20) (some (agentAt 20))

def boundTurn : List HoldEvent :=
  [.observe cleanPane, .claimHold "m-1#1" (some ⟨20, 2⟩) (some "clean"),
   .bindTurn "m-1#1" ⟨["t1"]⟩ 5]

def endedTurn : List HoldEvent :=
  boundTurn ++ [.recordEnd ⟨20, 2⟩ "clean" ⟨["t1"]⟩, .observe cleanPane,
    .claimHold "m-2#1" (some ⟨20, 2⟩) (some "clean")]

theorem next_turn_binds_after_end :
    ((endedTurn.foldl step {}).bindTurn "m-2#1" ⟨["t2"]⟩ 9).1.isSome := by
  obtain ⟨e, was, key, owned, hf⟩ : ∃ e, (endedTurn.foldl step {}).entry = some e ∧
      e.key = ⟨some ⟨20, 2⟩, some "clean"⟩ ∧ e.holdOwner = some "m-2#1" ∧ e.turn = none :=
    ⟨_, rfl, by decide⟩
  exact (pin_never_outlives_hold ⟨20, 2⟩ "clean" endedTurn (by decide)
    (by decide)).2.2 e "m-2#1" ⟨["t2"]⟩ 9 was key owned hf

/-- The barrier is released, the turn stays pinned, and the next delivery's turn is refused. -/
theorem claim_strands_pin :
    let s := (boundTurn ++ [HoldEvent.clearHoldOwner "m-1#1"]).foldl step {}
    let s' := s.step (.claimHold "m-2#1" (some ⟨20, 2⟩) (some "clean"))
    s.ends.pinnedFor ⟨20, 2⟩ "clean" = some ⟨["t1"]⟩ ∧
      s.entry.map DetEntry.barrier = some {} ∧
      s'.entry.map DetEntry.barrier = some { hold := .staged, owner := some "m-2#1" } ∧
      (s'.bindTurn "m-2#1" ⟨["t2"]⟩ 9).1 = none := by
  decide

end Cyclops.Fusion
