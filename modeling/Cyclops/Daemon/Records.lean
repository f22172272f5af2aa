import Cyclops.Daemon.Emission

/-!
# The records of the current daemon

What holds of every current record while only the current daemon appends: the states it reaches, the
transport of an attempt that has not written, and when a record carries the cause of a stop before
the write.
-/

namespace Cyclops

open Checked FiniteMap NotificationState

def modernState (state : NotificationState) : Bool :=
  Board.liveState state || state == .withdrawnByOperator || state == .superseded

structure ModernRecord (record : NotificationRecord) : Prop where
  state : modernState record.state = true
  /-- A transport other than the doorbell is chosen at the write. -/
  gated : record.state = .queued ∨ record.state = .gating → record.transport = .doorbell
  stopped : record.state = .blockedPreWrite → record.preWriteCause ≠ some .pasteCommandUnwritten →
    record.transport = .doorbell
  /-- The cause of a stop is kept while stopped, and by a claim before the write. -/
  cause : record.preWriteCause ≠ none →
    record.state = .blockedPreWrite ∨ withdrawnByClaimBeforeWrite record = true

namespace ModernRecord

variable {r : NotificationRecord} {line : LedgerLine}

theorem of_ended (hs : modernState r.state = true)
    (he : r.state ≠ .queued ∧ r.state ≠ .gating ∧ r.state ≠ .blockedPreWrite)
    (hc : r.preWriteCause = none) : ModernRecord r where
  state := hs
  gated := fun h => absurd h (not_or.mpr ⟨he.1, he.2.1⟩)
  stopped := fun h => absurd h he.2.2
  cause := fun h => absurd hc h

theorem queued (a : NotificationAttemptId) (m : MessageId)
    (k : RecipientKey) : ModernRecord (queuedRecord line a m k) where
  state := rfl
  gated := fun _ => rfl
  stopped := fun h => (nomatch h)
  cause := fun h => absurd rfl h

theorem superseded : ModernRecord (supersededRecord line r) :=
  of_ended rfl ⟨nofun, nofun, nofun⟩ rfl

theorem withdrawn {a : AttemptRef} : ModernRecord (withdrawnRecord line a r) :=
  of_ended rfl ⟨nofun, nofun, nofun⟩ rfl

theorem gating_of_stopped {fact : NotificationTransition}
    (hch : TransitionChecked fact false (some r)) (hs : fact.state = .blockedPreWrite)
    (hc : fact.preWriteCause ≠ some .pasteCommandUnwritten) : r.state = .gating := by
  have ha := hch.allowed
  simp only [notificationTransitionAllowed, hs, Bool.false_and,
    beq_eq_false_iff_ne.mpr hc] at ha
  revert ha
  cases r.state <;> decide

theorem transition (h : ModernRecord r) {fact : NotificationTransition}
    (hch : TransitionChecked fact false (some r))
    (hl : Board.liveState fact.state = true)
    (hga : fact.state = .gating → Board.Gateable r) (hqu : fact.state ≠ .queued) :
    ModernRecord (transitionRecord line fact r) where
  state := by simp [transitionRecord, modernState, hl]
  gated := by
    rintro (hs | hs)
    · exact absurd hs hqu
    · have hg : fact.state = .gating := hs
      have ht : r.transport = .doorbell := by
        rcases hga hg with hq | ⟨hb, hc⟩
        · exact h.gated (.inl hq)
        · exact h.stopped hb hc
      simp [transitionRecord, NotificationTransition.isMailboxClose, hg, ht]
  stopped := by
    intro hs hc
    have hbl : fact.state = .blockedPreWrite := hs
    have hg := gating_of_stopped hch hbl hc
    simp [transitionRecord, NotificationTransition.isMailboxClose, hbl, h.gated (.inr hg)]
  cause := by
    intro hc
    exact .inl (by_contra fun hne => hc (hch.preWriteCause_iff.mpr hne))

theorem settled (hne : r.state.settledByClaim r.transport ≠ r.state) :
    ModernRecord (settledRecord line r) := by
  have hs : (settledRecord line r).state = .withdrawn ∨
      (settledRecord line r).state = .notified := settledByClaim_cases hne
  rcases hs with hs | hs
  · refine ⟨by rw [hs]; rfl, by simp [hs], by simp [hs], fun hc => .inr ?_⟩
    have hn : (settledRecord line r).preWriteCause = some .claimedBeforeWrite := by
      simp only [settledRecord] at hc ⊢
      split
      · rfl
      · next hno => exact absurd (if_neg hno) hc
    simp [withdrawnByClaimBeforeWrite, hs, hn]
  · refine of_ended (by rw [hs]; rfl) (by simp [hs]) (if_neg fun hw => ?_)
    exact absurd (hw.1.symm.trans hs) nofun

theorem not_queued_of_allowed {next : NotificationState} {c : Option NotificationPreWriteCause}
    (h : notificationTransitionAllowed r next c false = true) : next ≠ .queued := by
  rintro rfl
  simp only [notificationTransitionAllowed] at h
  revert h
  cases r.state <;> simp [canTransitionTo]

end ModernRecord

namespace Board

def Modern (b : Board) : Prop :=
  ∀ key record, b.record key = some record → ModernRecord record

variable {b : Board} {key : EntryKey}

theorem Modern.hold (h : b.Modern) {rec : NotificationRecord} (hr : ModernRecord rec) :
    (b.hold key rec).Modern := by
  intro k o held
  simp only [Board.hold, Function.update_apply] at held
  split at held
  · cases held
    exact hr
  · exact h k o held

theorem Modern.act (h : b.Modern) {action : Action} (guarded : b.Guard false action)
    (live : b.Live action) : (b.act action).Modern := by
  cases action with
  | file => exact h
  | settle => exact h
  | supersede key =>
    obtain ⟨-, -, ⟨line, rfl⟩, -⟩ := guarded
    cases held : b.record key with
    | none => exact h
    | some current =>
      have hh : (b.hold key (supersededRecord line current)).Modern := h.hold .superseded
      exact hh
  | start =>
    obtain ⟨-, -, -, ⟨line, hq⟩, -⟩ := guarded
    rw [hq]
    exact h.hold (.queued _ _ _)
  | move key record seq =>
    obtain ⟨current, held, moves⟩ := guarded
    have hc := h key current held
    have ht : (b.track record seq).Modern := fun k other hk => h k other (by simpa using hk)
    refine ht.hold ?_
    cases moves with
    | transition line fact _ _ checked =>
      exact hc.transition checked live.1 (fun hg => (live.2 hg).2 current held)
        (ModernRecord.not_queued_of_allowed checked.allowed)
    | reminded line pending notified =>
      rcases (live.2 rfl).2 current held with hq | ⟨hb, -⟩
      · exact absurd (hq.symm.trans notified) nofun
      · exact absurd (hb.symm.trans notified) nofun
    | settled line pending changed => exact .settled changed
  | put =>
    obtain ⟨current, held, he⟩ := guarded
    cases he with
    | withdrawn => exact h.hold .withdrawn
    | stagedCleared => cases (show withdrawnAfterStaging = _ from live)
    | reconciled => cases (show notified = _ from live)
  | release => exact live.elim

end Board

variable [DigestScheme]

theorem Journal.modern {w : WorkspaceId} {ls : List LedgerLine}
    {p : MailboxProjection} (h : Journal Emits w ls p) : p.board.Modern :=
  h.board_invariant Board.Modern (fun _ _ _ _ he hm => he.live hm) (fun _ _ held => (nomatch held))
    fun _ _ hb hg hl => hb.act hg hl

end Cyclops
