import Cyclops.Mailbox.Epochs

/-!
# What later rows keep

Rows are only added.
-/

namespace Cyclops

open Checked FiniteMap

variable [DigestScheme] {p q : MailboxProjection} {line : LedgerLine} {w : WorkspaceId}
  {ok : MailboxProjection → LedgerLine → Prop}

theorem Applies.messages {rp : Bool} (h : Applies rp p line q) :
    q.messages = p.messages ∨ ∃ m md r, MessageAccepted p line m md r ∧
      q.messages = p.messages.insert m line := by
  obtain ⟨mutation, hm, hq⟩ := applies_iff.mp h
  obtain ⟨-, -, hf, -⟩ := commitLine_frame hq
  cases (accepted_of_prepare hm).2.2 with
  | message checked => exact .inr ⟨_, _, _, checked, hf⟩
  | _ => exact .inl hf

theorem Applies.message {rp : Bool} (h : Applies rp p line q) {m : MessageId}
    {row : LedgerLine} (hm : p.messages.lookup m = some row) : q.messages.lookup m = some row := by
  rcases h.messages with heq | ⟨m', _, _, checked, heq⟩
  · rw [heq, hm]
  · have hne : m ≠ m' := by
      rintro rfl
      exact checked.fresh (mem_iff_lookup.mpr ⟨row, hm⟩)
    rw [heq, AList.lookup_insert_ne hne, hm]

theorem Applies.settled {rp : Bool} (h : Applies rp p line q) (hp : Coherent p)
    {key : EntryKey} {s : MailboxEntryState} (he : p.board.entry key = some s)
    (hs : s ≠ .pending) : q.board.entry key = some s := by
  obtain ⟨m, -, hg, hbo⟩ := h.board hp
  rw [hbo]
  exact hg.invariant (fun b => b.entry key = some s)
    (fun _ _ hb hgu => Board.act_entry_of_settled hgu hb hs) he

/-! ## Advancing -/

def Advances (p q : MailboxProjection) : Prop :=
  Relation.ReflTransGen (fun p q => ∃ line, Applies false p line q) p q

namespace Advances

theorem refl (p : MailboxProjection) : Advances p p :=
  Relation.ReflTransGen.refl

theorem single (h : Applies false p line q) : Advances p q :=
  Relation.ReflTransGen.single ⟨line, h⟩

theorem trans {p' : MailboxProjection} (h : Advances p q) (h' : Advances q p') : Advances p p' :=
  Relation.ReflTransGen.trans h h'

theorem invariant (inv : MailboxProjection → Prop)
    (hpr : ∀ p line q, Reachable w p → inv p → Applies false p line q → inv q)
    (hp : Reachable w p) (h : Advances p q) (hi : inv p) :
    Reachable w q ∧ inv q := by
  induction h with
  | refl => exact ⟨hp, hi⟩
  | tail _ hr ih =>
    obtain ⟨line, ha⟩ := hr
    exact ⟨.apply ih.1 ha, hpr _ line _ ih.1 ih.2 ha⟩

section

variable (hp : Reachable w p) (h : Advances p q)

include hp h

theorem reachable : Reachable w q :=
  (h.invariant (fun _ => True) (fun _ _ _ _ _ _ => trivial) hp trivial).1

theorem message {m : MessageId} {row : LedgerLine} (hm : p.messages.lookup m = some row) :
    q.messages.lookup m = some row :=
  (h.invariant (fun q => q.messages.lookup m = some row)
    (fun _ _ _ _ hs ha => ha.message hs) hp hm).2

theorem head_le : p.head ≤ q.head := by
  refine (h.invariant (fun q => p.head ≤ q.head) ?_ hp le_rfl).2
  intro p' line q' _ hle ha
  obtain ⟨hs, hh, -⟩ := ha.seq
  omega

/-- A message of a later projection is an earlier one, or is numbered after all of
them. -/
theorem message_cases {m : MessageId} {row : LedgerLine} (hm : q.messages.lookup m = some row) :
    p.messages.lookup m = some row ∨ p.head < row.seq := by
  let inv (q : MailboxProjection) : Prop := p.head ≤ q.head ∧
    ∀ m row, q.messages.lookup m = some row → p.messages.lookup m = some row ∨ p.head < row.seq
  have hi : inv q := by
    refine (h.invariant inv ?_ hp ⟨le_rfl, fun _ _ hm => .inl hm⟩).2
    rintro p' line q' - ⟨hle, hc⟩ ha
    obtain ⟨hs, hh, -⟩ := ha.seq
    refine ⟨by omega, fun m row hm => ?_⟩
    rcases ha.messages with heq | ⟨m', _, _, -, heq⟩
    · exact hc m row (heq ▸ hm)
    · rw [heq, lookup_insert_ite] at hm
      split at hm
      · cases hm
        exact .inr (by omega)
      · exact hc m row hm
  exact hi.2 m row hm

theorem settled {key : EntryKey} {s : MailboxEntryState}
    (he : p.board.entry key = some s) (hs : s ≠ .pending) : q.board.entry key =
    some s :=
  (h.invariant (fun q => q.board.entry key = some s)
    (fun _ _ _ hr he ha => ha.settled hr.coherent he hs) hp he).2

theorem held {key : EntryKey} (hr : p.board.record key ≠ none) : q.board.record key ≠ none := by
  refine (h.invariant (fun q => q.board.record key ≠ none) ?_ hp hr).2
  intro p line q hre hr ha
  obtain ⟨m, -, hg, hbo⟩ := ha.board hre.coherent
  rw [hbo]
  exact hg.invariant (fun b => b.record key ≠ none)
    (fun _ a hb _ => Board.act_record_ne_none hb a) hr

theorem follows : p.board.Follows q.board :=
  (h.invariant (fun q => p.board.Follows q.board)
    (fun _ _ _ hr hf ha => hf.trans (ha.follows hr)) hp
    (.refl p.board)).2

end

end Advances

/-! ## Stores and daemons -/

namespace MessageStore

variable {st : MessageStore} {env : Env}

theorem AppendOutcome.advances {r : MessageStore × Except Failure Unit}
    (h : AppendOutcome st line r) : Advances st.projection r.1.projection := by
  cases h with
  | applied _ _ ha => exact .single ha
  | _ => exact .refl _

theorem Sound.perform_advances {α : Type} (h : st.Sound ok w)
    {plan : Except Failure (Plan α)} (hm : st.Meets ok plan) :
    Advances st.projection (st.perform plan env).1.projection := by
  rcases perform_fst plan with heq | ⟨line, result, hpl, heq⟩
  · rw [heq]
    exact .refl _
  · rw [heq]
    exact (h.aligned.append_outcome (hm line result hpl).1).advances

theorem replay_of_openJournal {b : String} {rs : List LedgerLine}
    (h : MessageStore.openJournal w b rs = .ok st) :
    replay w rs = .ok st.projection := by
  simp only [MessageStore.openJournal, bind_eq_ok, pure_eq_ok] at h
  obtain ⟨writer, -, projection, hr, rfl⟩ := h
  cases hre : replay w rs with
  | error =>
    rw [hre] at hr
    cases hr
  | ok =>
    rw [hre] at hr
    cases hr
    rfl

theorem Sound.openJournal_advances (h : st.Sound ok w) {b : String} {r : MessageStore}
    (ho : MessageStore.openJournal w b st.writer.records = .ok r) :
    Advances st.projection r.projection := by
  obtain ⟨q, hj, hc⟩ := h.records
  rw [hj.unique (replay_of_openJournal ho)]
  rcases hc with ⟨-, rfl⟩ | ⟨row, -, ha⟩
  · exact .refl _
  · exact .single ha

theorem Sound.recover_advances {rs : List NotificationRecord}
    {env : NotificationAttemptId → Env} (h : st.Sound ok w) (hm : Recovers ok) :
    Advances st.projection (MessageStore.recoverNotifications env rs st).1.projection :=
  (h.recover_invariant hm (fun r => Advances st.projection r.projection)
    (.refl _) fun r rec now _ hs ha =>
      ha.trans (hs.perform_advances (hm r rec now))).2

end MessageStore

end Cyclops
