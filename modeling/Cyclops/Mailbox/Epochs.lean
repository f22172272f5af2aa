import Cyclops.Mailbox.Refinement
import Cyclops.Mailbox.Replay

/-!
# Execution epochs

An attempt may be reopened once after a stop before its write, and reminded once after its
notification.
-/

namespace Cyclops

open Checked FiniteMap

/-! ## Counters -/

/-- An attempt was reopened and reminded at most once each. -/
structure Counted (record : NotificationRecord) : Prop where
  reopened : record.preWriteReopenCount ≤ 1
  reminded : record.unclaimedReminderCount ≤ 1

theorem Counted.executionEpoch_eq {record : NotificationRecord} (h : Counted record) :
    record.executionEpoch = 2 * record.preWriteReopenCount + record.unclaimedReminderCount := by
  have := h.reopened
  have := h.reminded
  simp only [NotificationRecord.executionEpoch, saturatingAddU8, saturatingMulU8]
  omega

theorem Counted.executionEpoch_le {record : NotificationRecord} (h : Counted record) :
    record.executionEpoch ≤ 3 := by
  have := h.reopened
  have := h.reminded
  rw [h.executionEpoch_eq]
  omega

variable {line : LedgerLine} {current record : NotificationRecord} {rp : Bool}

theorem TransitionChecked.preWriteReopenCount {fact : NotificationTransition}
    (h : TransitionChecked fact rp (some current)) (line : LedgerLine) :
    (current.state = .blockedPreWrite ∧ fact.state = .gating ∧ current.preWriteReopenCount = 0 ∧
        (transitionRecord line fact current).preWriteReopenCount = 1) ∨
      (¬ (current.state = .blockedPreWrite ∧ fact.state = .gating) ∧
        (transitionRecord line fact current).preWriteReopenCount = current.preWriteReopenCount) := by
  by_cases hr : current.state = .blockedPreWrite ∧ fact.state = .gating
  · have hu := h.edge_iff.2.1
    have hz : current.preWriteReopenCount = 0 := by
      by_contra hne
      exact hu ⟨hr.1, hr.2, by omega⟩
    refine .inl ⟨hr.1, hr.2, hz, ?_⟩
    simp [transitionRecord, hr, hz, saturatingAddU8]
  · exact .inr ⟨hr, if_neg hr⟩

theorem Counted.transition {fact : NotificationTransition} (h : Counted current)
    (hc : TransitionChecked fact rp (some current)) :
    Counted (transitionRecord line fact current) := by
  refine ⟨?_, h.reminded⟩
  rcases hc.preWriteReopenCount line with ⟨-, -, -, ho⟩ | ⟨-, hs⟩
  · exact ho.le
  · rw [hs]
    exact h.reopened

namespace Board

variable {b b' : Board} {key : EntryKey}

def Counted (b : Board) : Prop :=
  ∀ key record, b.record key = some record → Cyclops.Counted record

theorem Counted.act (h : b.Counted) {a : Action} (hg : b.Guard rp a) : (b.act a).Counted := by
  intro key record held
  have hcu := h key
  generalize hp : b.record key = prior at hcu
  have hs := hp ▸ record_act hg held
  cases hs with
  | kept => exact hcu record rfl
  | started => exact ⟨Nat.zero_le 1, Nat.zero_le 1⟩
  | superseded line current => exact { hcu current rfl with }
  | moved hm =>
    have hc := hcu _ rfl
    cases hm with
    | transition line fact _ _ hch => exact hc.transition hch
    | reminded => exact ⟨hc.reopened, le_rfl⟩
    | settled => exact { hc with }
  | ended he =>
    have hc := hcu _ rfl
    cases he with
    | withdrawn | stagedCleared | reconciled => exact { hc with }

end Board

/-! ## Later records of one attempt -/

def beforeWrite (state : NotificationState) : Bool :=
  state matches .queued | .gating

structure Later (current record : NotificationRecord) : Prop where
  same : record.attemptId = current.attemptId
  epoch : current.executionEpoch ≤ record.executionEpoch
  gate : current.executionEpoch = record.executionEpoch → beforeWrite current.state = false →
    beforeWrite record.state = false

namespace Later

theorem refl (record : NotificationRecord) : Later record record :=
  ⟨rfl, le_rfl, fun _ h => h⟩

theorem trans {first s t : NotificationRecord} (h : Later first s)
    (h' : Later s t) : Later first t where
  same := h'.same.trans h.same
  epoch := h.epoch.trans h'.epoch
  gate := by
    intro hs hf
    have hle := h.epoch
    have hl' := h'.epoch
    exact h'.gate (by omega) (h.gate (by omega) hf)

theorem of_ended (hs : record.attemptId = current.attemptId)
    (hep : record.executionEpoch = current.executionEpoch)
    (he : beforeWrite record.state = false) : Later current record :=
  ⟨hs, hep.ge, fun _ _ => he⟩

theorem transition {fact : NotificationTransition} (hc : Counted current)
    (hch : TransitionChecked fact false (some current)) :
    Later current (transitionRecord line fact current) := by
  have hc' : Counted (transitionRecord line fact current) := hc.transition hch
  have hr : (transitionRecord line fact current).unclaimedReminderCount =
      current.unclaimedReminderCount := rfl
  have he := hc.executionEpoch_eq
  have he' := hc'.executionEpoch_eq
  rcases hch.preWriteReopenCount line with ⟨-, -, hz, ho⟩ | ⟨hk, hs⟩
  · exact ⟨hch.same.symm, by omega, fun _ => by omega⟩
  · refine ⟨hch.same.symm, by omega, fun _ hl => ?_⟩
    change beforeWrite fact.state = false
    rcases transitionAllowed_live.mp hch.allowed with ha | ⟨-, hb, -⟩
    · revert hk hl ha
      cases current.state <;> cases fact.state <;> decide
    · rw [hb]
      rfl

theorem reminded (hc : Counted current) (hu : current.unclaimedReminderCount = 0) :
    Later current (remindedRecord line current) := by
  have hc' : Counted (remindedRecord line current) := ⟨hc.reopened, le_rfl⟩
  have he := hc.executionEpoch_eq
  have he' := hc'.executionEpoch_eq
  have hre : (remindedRecord line current).preWriteReopenCount = current.preWriteReopenCount := rfl
  have hr : (remindedRecord line current).unclaimedReminderCount = 1 := rfl
  exact ⟨rfl, by omega, fun _ => by omega⟩

theorem settled (hne : current.state.settledByClaim current.transport ≠ current.state) :
    Later current (settledRecord line current) := by
  refine of_ended rfl rfl ?_
  rcases settledByClaim_cases hne with hs | hs <;>
  · change beforeWrite (current.state.settledByClaim current.transport) = false
    rw [hs]
    rfl

end Later

namespace Board

variable {b b' b'' : Board}

structure Follows (b b' : Board) : Prop where
  issued : b.issued ⊆ b'.issued
  later : ∀ key record, b'.record key = some record → record.attemptId ∈ b.issued →
    ∃ current, b.record key = some current ∧ Later current record

theorem Follows.refl (b : Board) : b.Follows b :=
  ⟨Finset.Subset.refl _, fun _ record held _ => ⟨record, held, .refl record⟩⟩

theorem Follows.trans (h : b.Follows b') (h' : b'.Follows b'') : b.Follows b'' where
  issued := h.issued.trans h'.issued
  later := by
    intro key record held hi
    obtain ⟨m, hm, hl⟩ := h'.later key record held (h.issued hi)
    obtain ⟨current, hc, he⟩ := h.later key m hm (hl.same ▸ hi)
    exact ⟨current, hc, he.trans hl⟩

theorem Follows.act (hco : b.Counted) {a : Action} (hg : b.Guard false a) :
    b.Follows (b.act a) where
  issued := b.issued_subset_act a
  later := by
    intro key record held hi
    have hc := hco key
    generalize hp : b.record key = prior at hc ⊢
    have hs := hp ▸ record_act hg held
    cases hs with
    | kept => exact ⟨record, rfl, .refl record⟩
    | started _ line ai hf => exact absurd hi hf
    | superseded line current => exact ⟨current, rfl, .of_ended rfl rfl rfl⟩
    | @moved current _ hm =>
      refine ⟨current, rfl, ?_⟩
      cases hm with
      | transition line fact _ _ hche => exact .transition (hc current rfl) hche
      | reminded line _ _ _ hu => exact .reminded (hc current rfl) hu
      | settled line _ hch => exact .settled hch
    | @ended current _ he =>
      refine ⟨current, rfl, ?_⟩
      cases he with
      | withdrawn line attempt _ _ hsa => exact .of_ended hsa rfl rfl
      | stagedCleared | reconciled => exact .of_ended rfl rfl rfl

end Board

/-! ## Journals -/

variable [DigestScheme] {p q : MailboxProjection} {w : WorkspaceId}
  {ok : MailboxProjection → LedgerLine → Prop}

/-- In every reachable projection an epoch is at most three. -/
theorem Reachable.counted (h : Reachable w p) : p.board.Counted :=
  h.board_invariant (fun _ _ held => (nomatch held)) fun _ _ _ hb hg => hb.act hg

theorem Applies.follows (hp : Reachable w p) (h : Applies false p line q) :
    p.board.Follows q.board := by
  obtain ⟨m, -, hg, hbo⟩ := h.board hp.coherent
  rw [hbo]
  have hbot := hg.invariant (fun b => p.board.Follows b ∧ b.Counted)
    (fun b a hb hgu => ⟨hb.1.trans (.act hb.2 hgu), hb.2.act hgu⟩)
    ⟨.refl p.board, hp.counted⟩
  exact hbot.1

theorem Journal.follows {xs ys : List LedgerLine} (h : Journal ok w (xs ++ ys) q) :
    ∃ p, Journal ok w xs p ∧ p.board.Follows q.board := by
  induction ys using List.reverseRecOn generalizing q with
  | nil => exact ⟨q, by simpa using h, .refl q.board⟩
  | append_singleton ys line ih =>
    rw [← List.append_assoc] at h
    obtain ⟨p', before, -, ha⟩ := h.concat_inv
    obtain ⟨p, hp, hf⟩ := ih before
    exact ⟨p, hp, hf.trans (ha.follows before.reachable)⟩

end Cyclops
