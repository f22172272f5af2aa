import Cyclops.Daemon
import Cyclops.Mailbox.Refinement
import Cyclops.Mailbox.Replay

/-!
# Composer barriers

An attempt that wrote to a composer keeps a barrier there: a copy of its record, kept in step with
it by every action.

Result: `barriers_coherent`.
-/

namespace Cyclops

open Checked FiniteMap Function MailboxProjection Option Bool

def holdsComposer (state : NotificationState) : Bool :=
  state matches .writing | .staged | .submitting | .submitted | .submittedUnverified | .notified |
    .attentionRequired

variable {s : NotificationState}

theorem holdsComposer_of_canTransitionTo {next : NotificationState}
    (h : s.canTransitionTo next = true) (holds : holdsComposer s = true) :
    holdsComposer next = true ∧ next ≠ .writing := by
  revert h holds
  cases s <;> cases next <;> decide

theorem holdsComposer_of_allowed {current : NotificationRecord} {next : NotificationState}
    {c : Option NotificationPreWriteCause} {rp : Bool}
    (h : notificationTransitionAllowed current next c rp = true)
    (holds : holdsComposer current.state = true) :
    holdsComposer next = true ∧ next ≠ .writing ∨
      next = .blockedPreWrite ∧ c = some .pasteCommandUnwritten := by
  simp only [notificationTransitionAllowed, withdrawnByClaimBeforeWrite, or_eq_true,
    and_eq_true, beq_iff_eq] at h
  rcases h with ((h | ⟨⟨-, hn⟩, hc⟩) | ⟨⟨⟨-, -⟩, hn⟩, -⟩) | ⟨⟨-, hw, -⟩, -⟩
  · exact .inl (holdsComposer_of_canTransitionTo h holds)
  · exact .inr ⟨hn, hc⟩
  · exact .inl ⟨hn ▸ rfl, by simp [hn]⟩
  · rw [hw] at holds
    cases holds

theorem settled_notified_of_holds {t : NotificationTransport}
    (h : s.settledByClaim t ≠ s) (holds : holdsComposer s = true) :
    s.settledByClaim t = .notified := by
  revert h holds
  cases s <;> cases t <;> decide

theorem not_holdsComposer_of_canWithdraw (h : s.canWithdrawBeforeWrite = true) :
    holdsComposer s = false := by
  revert h
  cases s <;> decide

theorem not_holdsComposer_of_preWrite (h : Board.preWrite s = true) : holdsComposer s = false := by
  revert h
  cases s <;> decide

theorem withdrawnByClaim_state {rec : NotificationRecord}
    (h : withdrawnByClaimBeforeWrite rec = true) : rec.state = .withdrawn := by
  simp only [withdrawnByClaimBeforeWrite, and_eq_true, beq_iff_eq] at h
  exact h.1

namespace Board

variable {b : Board} {rp : Bool} {key : EntryKey} {current next : NotificationRecord}

/-! ## What a move keeps -/

theorem Moves.same (h : b.Moves rp key current next) (hr : current.recipient = key.1)
    (hm : current.messageId = key.2) :
    next.attemptId = current.attemptId ∧ next.recipient = key.1 ∧ next.messageId = key.2 := by
  cases h with
  | transition line fact recipient hme hc =>
    exact ⟨hc.same.symm, recipient, hme⟩
  | reminded | settled => exact ⟨rfl, hr, hm⟩

theorem Ends.same (h : b.Ends rp key current next) (hr : current.recipient = key.1)
    (hm : current.messageId = key.2) :
    next.attemptId = current.attemptId ∧ next.recipient = key.1 ∧ next.messageId = key.2 := by
  cases h with
  | withdrawn line a recipient hme hs => exact ⟨hs, recipient, hme⟩
  | stagedCleared | reconciled => exact ⟨rfl, hr, hm⟩

theorem Moves.bound (h : b.Moves rp key current next) (hbo : isBoundWrite next = true) :
    ∃ bd, next.binding = some bd ∧ bd.recipient = next.recipient := by
  obtain ⟨hs, hso⟩ := and_eq_true_iff.mp hbo
  rw [beq_iff_eq] at hs
  obtain ⟨bd, hb⟩ := isSome_iff_exists.mp hso
  cases h with
  | transition line fact hr hm hch =>
    have hf : fact.binding = some bd := by
      simpa [transitionRecord, show fact.state = .writing from hs] using hb
    exact ⟨bd, hb, (hch.bound hf).2⟩
  | reminded => cases hs
  | settled line hp hc =>
    have hs : current.state.settledByClaim current.transport = .writing := hs
    rcases settledByClaim_cases hc with h | h <;> rw [hs] at h <;> cases h

theorem Moves.holds (h : b.Moves rp key current next)
    (hba : b.barrier current.attemptId ≠ none) (holds : holdsComposer current.state = true)
    (hwr : isProvenUnwritten next = false) :
    holdsComposer next.state = true ∧ next.binding = current.binding := by
  cases h with
  | transition line fact hre hm hche =>
    rcases holdsComposer_of_allowed hche.allowed holds with ⟨hh, hw⟩ | ⟨hs, hc⟩
    · have hb : fact.state ≠ .blockedPreWrite := by
        intro hb
        rw [hb] at hh
        cases hh
      exact ⟨hh, by simp [transitionRecord, hw, hb]⟩
    · simp [isProvenUnwritten, transitionRecord, hs, hc] at hwr
  | reminded line hp hn hd hu hr => exact absurd hr hba
  | settled line hp hch =>
    have hs := settled_notified_of_holds hch holds
    exact ⟨by simp [settledRecord, hs, holdsComposer], by simp [settledRecord, hs]⟩

/-! ## Fenced boards -/

structure Fenced (b : Board) : Prop where
  keyed : ∀ {key record}, b.record key = some record →
    record.recipient = key.1 ∧ record.messageId = key.2 ∧ record.attemptId ∈ b.issued
  unique : ∀ {key key' record record'}, b.record key = some record →
    b.record key' = some record' → record.attemptId = record'.attemptId → key = key'
  attempt : ∀ {a record}, b.barrier a = some record → record.attemptId = a ∧ a ∈ b.issued
  bound : ∀ {a record}, b.barrier a = some record →
    ∃ binding, record.binding = some binding ∧ binding.recipient = record.recipient
  written : ∀ {a record}, b.barrier a = some record → b.written a ≠ none
  holds : ∀ {a record}, b.barrier a = some record → holdsComposer record.state = true
  alone : ∀ {a a' record record'}, b.barrier a = some record → b.barrier a' = some record' →
    record.recipient = record'.recipient → a = a'
  current : ∀ {a record key now}, b.barrier a = some record → b.record key = some now →
    now.attemptId = a → record = now

namespace Fenced

variable (h : b.Fenced)
include h

theorem barrier_eq_none (held : b.record key = some current)
    (hs : holdsComposer current.state = false) : b.barrier current.attemptId = none := by
  refine eq_none_iff_forall_ne_some.mpr fun rec hb => ?_
  have heq := h.current hb held rfl
  have hh := h.holds hb
  rw [heq, hs] at hh
  cases hh

theorem hold (held : b.record key = some current)
    (hs : next.attemptId = current.attemptId) (hr : next.recipient = key.1)
    (hm : next.messageId = key.2) :
    (∀ {k rec}, (b.hold key next).record k = some rec →
      rec.recipient = k.1 ∧ rec.messageId = k.2 ∧ rec.attemptId ∈ b.issued) ∧
    ∀ {k k' rec r'}, (b.hold key next).record k = some rec →
      (b.hold key next).record k' = some r' → rec.attemptId = r'.attemptId →
      k = k' := by
  simp only [Board.hold, update_apply]
  refine ⟨fun {k rec} hk => ?_, fun {k k' rec r'} hk hk' heq => ?_⟩
  · split at hk
    · next hke =>
      cases hk
      exact hke ▸ ⟨hr, hm, hs ▸ (h.keyed held).2.2⟩
    · exact h.keyed hk
  · split at hk <;> split at hk'
    · next hke hke' => rw [hke, hke']
    · next hke _ =>
      cases hk
      exact hke ▸ h.unique held hk' (hs ▸ heq)
    · next _ hke' =>
      cases hk'
      exact hke' ▸ h.unique hk held (hs ▸ heq)
    · exact h.unique hk hk' heq

theorem release (a : NotificationAttemptId) : (b.act (.release a)).Fenced := by
  have hs : ∀ {x rec}, (b.act (.release a)).barrier x = some rec → b.barrier x = some rec := by
    intro x rec hx
    simp only [act, update_apply] at hx
    split at hx
    · cases hx
    · exact hx
  exact { h with
    attempt := fun hx => h.attempt (hs hx)
    bound := fun hx => h.bound (hs hx)
    written := fun hx => h.written (hs hx)
    holds := fun hx => h.holds (hs hx)
    alone := fun hx hx' => h.alone (hs hx) (hs hx')
    current := fun hx => h.current (hs hx) }

variable {r : NotificationRecord} {seq : Nat}

theorem start (hg : b.Guard rp (.start key r)) : (b.act (.start key r)).Fenced := by
  obtain ⟨-, unissued, -, ⟨line, hre⟩, -⟩ := hg
  have hr : r.recipient = key.1 := by rw [hre]; rfl
  have hm : r.messageId = key.2 := by rw [hre]; rfl
  refine {
    keyed := ?_, unique := ?_, bound := h.bound, written := h.written, holds := h.holds
    alone := h.alone, attempt := ?_, current := ?_ }
  · intro k o hk
    simp only [act, Board.hold, update_apply] at hk
    split at hk
    · next hke =>
      cases hk
      subst hke
      exact ⟨hr, hm, Finset.mem_insert_self _ _⟩
    · obtain ⟨h₁, h₂, h₃⟩ := h.keyed hk
      exact ⟨h₁, h₂, Finset.mem_insert_of_mem h₃⟩
  · intro k k' r₁ r₂ hk hk' heq
    simp only [act, Board.hold, update_apply] at hk hk'
    split at hk <;> split at hk'
    · next hke hke' => rw [hke, hke']
    · cases hk
      exact absurd (heq ▸ (h.keyed hk').2.2) unissued
    · cases hk'
      exact absurd (heq ▸ (h.keyed hk).2.2) unissued
    · exact h.unique hk hk' heq
  · intro a o ha
    exact ⟨(h.attempt ha).1, Finset.mem_insert_of_mem (h.attempt ha).2⟩
  · intro a o k now ha hk heq
    simp only [act, Board.hold, update_apply] at hk
    split at hk
    · cases hk
      exact absurd (heq ▸ (h.attempt ha).2) unissued
    · exact h.current ha hk heq

theorem replace (held : b.record key = some current)
    (hf : b.barrier current.attemptId = none) (hs : next.attemptId = current.attemptId)
    (hr : next.recipient = key.1) (hm : next.messageId = key.2) : (b.hold key next).Fenced := by
  obtain ⟨hke, hu⟩ := h.hold held hs hr hm
  refine { h with keyed := hke, unique := hu, current := ?_ }
  intro a o k now ha hk heq
  simp only [Board.hold, update_apply] at hk
  split at hk
  · cases hk
    rw [hs] at heq
    rw [← heq, show (b.hold key next).barrier = b.barrier from rfl, hf] at ha
    cases ha
  · exact h.current ha hk heq

theorem put (hg : b.Guard rp (.put key r)) : (b.act (.put key r)).Fenced := by
  obtain ⟨current, held, he⟩ := hg
  obtain ⟨hr, hm, -⟩ := h.keyed held
  obtain ⟨hs, hr', hm'⟩ := he.same hr hm
  refine h.replace held ?_ hs hr' hm'
  cases he with
  | withdrawn line a _ _ _ hu =>
    refine h.barrier_eq_none held ?_
    rcases hu with hw | ⟨-, hc⟩
    · exact not_holdsComposer_of_canWithdraw hw
    · rw [withdrawnByClaim_state hc]
      rfl
  | stagedCleared line hcl hst hre | reconciled line hcl ha hre =>
    exact hre

theorem supersede {s : MailboxEntryState} {r : Option NotificationRecord}
    (hg : b.Guard rp (.supersede key s r)) :
    (b.act (.supersede key s r)).Fenced := by
  obtain ⟨-, -, ⟨line, rfl⟩, hu⟩ := hg
  cases held : b.record key with
  | none => exact { h with }
  | some current =>
    obtain ⟨hr, hm, -⟩ := h.keyed held
    have hf := h.barrier_eq_none held (not_holdsComposer_of_preWrite (hu current held))
    have hre : (b.hold key (supersededRecord line current)).Fenced :=
      h.replace held hf rfl hr hm
    exact { hre with }

theorem follow {b' : Board} (held : b.record key = some current)
    (hs : next.attemptId = current.attemptId) (hr : next.recipient = key.1)
    (hm : next.messageId = key.2) (hre : b'.record = (b.hold key next).record)
    (hi : b'.issued = b.issued)
    (hb : ∀ {a other}, b'.barrier a = some other → b'.written a ≠ none ∧
      (a = next.attemptId ∧ other = next ∨ a ≠ next.attemptId ∧ b.barrier a = some other))
    (hn : ∀ {other}, b'.barrier next.attemptId = some other → holdsComposer next.state = true ∧
      (∃ bd, next.binding = some bd ∧ bd.recipient = next.recipient) ∧
      ∀ {a other}, a ≠ next.attemptId → b'.barrier a = some other →
        other.recipient ≠ next.recipient) : b'.Fenced := by
  obtain ⟨hke, hu⟩ := h.hold held hs hr hm
  refine {
    keyed := by rw [hre, hi]; exact hke
    unique := by rw [hre]; exact hu
    attempt := ?_, bound := ?_, written := fun ha => (hb ha).1, holds := ?_, alone := ?_
    current := ?_ }
  · intro a other ha
    rw [hi]
    rcases (hb ha).2 with ⟨rfl, rfl⟩ | ⟨-, hold⟩
    · exact ⟨rfl, hs ▸ (h.keyed held).2.2⟩
    · exact h.attempt hold
  · intro a other ha
    rcases (hb ha).2 with ⟨rfl, rfl⟩ | ⟨-, hold⟩
    · exact (hn ha).2.1
    · exact h.bound hold
  · intro a other ha
    rcases (hb ha).2 with ⟨rfl, rfl⟩ | ⟨-, hold⟩
    · exact (hn ha).1
    · exact h.holds hold
  · intro a a' other o' ha ha' heq
    rcases (hb ha).2 with ⟨rfl, rfl⟩ | ⟨hne, hold⟩ <;>
      rcases (hb ha').2 with ⟨rfl, rfl⟩ | ⟨hn', ho'⟩
    · rfl
    · exact absurd heq.symm ((hn ha).2.2 hn' ha')
    · exact absurd heq ((hn ha').2.2 hne ha)
    · exact h.alone hold ho' heq
  · intro a other k now ha hk heq
    rw [hre] at hk
    simp only [Board.hold, update_apply] at hk
    rcases (hb ha).2 with ⟨rfl, rfl⟩ | ⟨hne, hold⟩
    · split at hk
      · exact some.inj hk
      · next hkey => exact absurd (h.unique hk held (heq.trans hs)) hkey
    · split at hk
      · cases hk
        exact absurd heq.symm hne
      · exact h.current hold hk heq

theorem crossed (held : b.record key = some current)
    (hmo : b.Moves rp key current next) (hbo : isBoundWrite next = true) :
    (b.act (.move key next seq)).Fenced := by
  obtain ⟨hr, hm, -⟩ := h.keyed held
  obtain ⟨hsa, hr', hm'⟩ := hmo.same hr hm
  have hs : next.state = .writing := by
    simpa using (and_eq_true_iff.mp hbo).1
  -- A barrier is the new one, or an old one at another recipient.
  have hb : ∀ {a o}, (b.act (.move key next seq)).barrier a = some o →
      (a = next.attemptId ∧ o = next) ∨
        (a ≠ next.attemptId ∧ b.barrier a = some o ∧ o.recipient ≠ next.recipient) := by
    intro a o ha
    simp only [act, track, if_pos hbo, Board.hold] at ha
    split at ha
    · next hat => exact .inl ⟨hat, (some.inj ha).symm⟩
    · next hat =>
      obtain ⟨hold, hne⟩ := filter_eq_some_iff.mp ha
      exact .inr ⟨hat, hold, by simpa using hne⟩
  refine h.follow held hsa hr' hm' (by simp [act, Board.hold]) (by simp [act, Board.hold])
    (fun {a o} ha => ⟨?_, (hb ha).imp_right fun ho => ⟨ho.1, ho.2.1⟩⟩)
    fun _ => ⟨hs ▸ rfl, hmo.bound hbo, fun hne ha => ?_⟩
  · simp only [act, track, if_pos hbo, Board.hold, update_apply]
    rcases hb ha with ⟨rfl, -⟩ | ⟨hne, hold, -⟩
    · simp
    · rw [if_neg hne]
      exact h.written hold
  · exact ((hb ha).resolve_left fun own => hne own.1).2.2

omit h in
theorem barrier_of_moved (hb : isBoundWrite r = false) {a : NotificationAttemptId}
    {o : NotificationRecord} (ha : (b.track r seq).barrier a = some o) :
    (b.track r seq).written a = b.written a ∧
      (a = r.attemptId ∧ o = r ∧ b.barrier a ≠ none ∧ isProvenUnwritten r = false ∨
        a ≠ r.attemptId ∧ b.barrier a = some o) := by
  unfold track at ha ⊢
  rw [hb] at ha ⊢
  cases hu : isProvenUnwritten r with
  | true =>
    simp only [hu, false_eq_true, if_false, if_true, update_apply] at ha ⊢
    split at ha
    · cases ha
    · next hne => exact ⟨if_neg hne, .inr ⟨hne, ha⟩⟩
  | false =>
    simp only [hu, false_eq_true, if_false] at ha ⊢
    refine ⟨trivial, ?_⟩
    split at ha
    · next hat =>
      exact .inl ⟨hat.1, (some.inj ha).symm, isSome_iff_ne_none.mp hat.2, trivial⟩
    · next hat =>
      refine .inr ⟨fun heq => hat ⟨heq, ?_⟩, ha⟩
      rw [ha]
      rfl

theorem moved (held : b.record key = some current)
    (hmo : b.Moves rp key current next) (hb : isBoundWrite next = false) :
    (b.act (.move key next seq)).Fenced := by
  obtain ⟨hr, hm, -⟩ := h.keyed held
  obtain ⟨hsa, hr', hm'⟩ := hmo.same hr hm
  have hc : next.recipient = current.recipient := hr'.trans hr.symm
  -- The moved record takes the place of a barrier equal to the current record.
  have hold {other} (ha : (b.act (.move key next seq)).barrier next.attemptId = some other) :
      b.barrier next.attemptId = some current ∧ isProvenUnwritten next = false := by
    rcases (barrier_of_moved hb ha).2 with ⟨-, -, hs, hw⟩ | ⟨hne, -⟩
    · obtain ⟨old, hold⟩ := ne_none_iff_exists'.mp hs
      exact ⟨h.current hold held hsa.symm ▸ hold, hw⟩
    · exact absurd rfl hne
  refine h.follow held hsa hr' hm' (by simp [act, Board.hold]) (by simp [act, Board.hold])
    (fun {a other} ha => ?_) fun ha => ?_
  · obtain ⟨hw, hca⟩ := barrier_of_moved hb ha
    refine ⟨fun hn => ?_, hca.imp_left fun ho => ⟨ho.1, ho.2.1⟩⟩
    rcases hca with ⟨rfl, -⟩ | ⟨-, old⟩
    · exact h.written (hold ha).1 (hw ▸ hn)
    · exact h.written old (hw ▸ hn)
  · obtain ⟨old, hw⟩ := hold ha
    obtain ⟨hh, hbi⟩ := hmo.holds (by simp [← hsa, old]) (h.holds old) hw
    refine ⟨hh, ?_, fun {a other} hne ha' heq => hne ?_⟩
    · rw [hbi, hc]
      exact h.bound old
    · rcases (barrier_of_moved hb ha').2 with ⟨ho, -⟩ | ⟨-, ho'⟩
      · exact ho
      · exact h.alone ho' old (heq.trans hc)

theorem act {action : Action} (hg : b.Guard rp action) : (b.act action).Fenced := by
  cases action with
  | file | settle => exact { h with }
  | supersede => exact h.supersede hg
  | start => exact h.start hg
  | move key r =>
    obtain ⟨current, held, hm⟩ := hg
    cases hb : isBoundWrite r with
    | true => exact h.crossed held hm hb
    | false => exact h.moved held hm hb
  | put => exact h.put hg
  | release a => exact h.release a

end Fenced

end Board

/-! ## Reachable projections -/

theorem Reachable.fenced [DigestScheme] {w : WorkspaceId} {p : MailboxProjection}
    (h : Reachable w p) : p.board.Fenced := by
  refine h.board_invariant ?_ fun _ _ _ hf hg => hf.act hg
  exact {
    keyed := fun h => (nomatch h), unique := fun h => (nomatch h), attempt := fun h => (nomatch h)
    bound := fun h => (nomatch h), written := fun h => (nomatch h), holds := fun h => (nomatch h)
    alone := fun h => (nomatch h), current := fun h => (nomatch h) }

/-- Barriers are keyed by their attempts, bound to their recipients, one to a recipient, and those
of current attempts are their records. -/
theorem barriers_coherent [DigestScheme] {workspaceId : WorkspaceId} {p : MailboxProjection}
    (h : Reachable workspaceId p) :
    (∀ a record, p.activeNotificationBarriers.lookup a = some record →
      record.attemptId = a ∧
      (∃ binding, record.binding = some binding ∧ binding.recipient = record.recipient) ∧
      a ∈ p.notificationWriteSequences ∧
      (record.state = .writing ∨ record.state = .staged ∨ record.state = .submitting ∨
        record.state = .submitted ∨ record.state = .submittedUnverified ∨
        record.state = .notified ∨ record.state = .attentionRequired) ∧
      ∀ now, p.notification record.recipient record.messageId = some now →
        now.attemptId = a → record = now) ∧
    ∀ a a' record record', p.activeNotificationBarriers.lookup a = some record →
      p.activeNotificationBarriers.lookup a' = some record' → a ≠ a' →
      record.recipient ≠ record'.recipient := by
  have hf := h.fenced
  refine ⟨fun a record ha => ⟨(hf.attempt ha).1, hf.bound ha, ?_, ?_, ?_⟩, ?_⟩
  · exact mem_iff_lookup.mpr (ne_none_iff_exists'.mp (hf.written ha))
  · have hh := hf.holds ha
    revert hh
    cases record.state <;> simp [holdsComposer]
  · intro now hn hat
    exact hf.current ha hn hat
  · intro a a' record record' ha ha' hne hs
    exact hne (hf.alone ha ha' hs)

theorem sample_barrier :
    ∃ p record binding,
      @replay constantDigests sampleWorkspace (sampleDaemon []).store.writer.lines = .ok p ∧
      p.activeNotificationBarriers.lookup sampleAttempt = some record ∧
      record.state = .writing ∧ record.binding = some binding ∧
      binding.recipient = record.recipient := by
  have hw : ((@replay constantDigests sampleWorkspace
      (sampleDaemon []).store.writer.lines).toOption.map fun p =>
        (p.activeNotificationBarriers.lookup sampleAttempt).map NotificationRecord.state) =
      some (some .writing) := by
    decide
  obtain ⟨p, hre, hb⟩ := exists_ok_of_toOption hw
  obtain ⟨record, hr, hs⟩ := map_eq_some_iff.mp hb
  have hc := @barriers_coherent constantDigests _ p (@Reachable.replay _ _ constantDigests _ hre)
  obtain ⟨-, ⟨binding, hbi, hbo⟩, -⟩ := hc.1 sampleAttempt record hr
  exact ⟨p, record, binding, hre, hr, hs, hbi, hbo⟩

end Cyclops
