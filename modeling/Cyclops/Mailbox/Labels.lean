import Cyclops.Daemon
import Cyclops.Lib.Runs

/-!
# Labels

A label that can be displayed is checked when a route enters the directory, and again when a message
is presented.
-/

namespace Cyclops

open Checked FiniteMap List

/-! ## Labels of a directory -/

/-- Every route of the directory has a label that can be displayed. -/
structure MailboxDirectory.Labelled (directory : MailboxDirectory) : Prop where
  byAddress : ∀ {address identity}, directory.byAddress.lookup address = some identity →
    isDisplayLabel identity.label = true
  byRecipient : ∀ {recipient identity}, directory.byRecipient.lookup recipient = some identity →
    isDisplayLabel identity.label = true

namespace MailboxDirectory

variable {d d' : MailboxDirectory} {a : List MailboxIdentity}
  {i : MailboxIdentity}

theorem labelled_empty (w : WorkspaceId) : (empty w).Labelled :=
  ⟨fun h => (nomatch h), fun h => (nomatch h)⟩

theorem Labelled.addAgent (h : d.Labelled) (ha : d.addAgent i = .ok d') :
    d'.Labelled ∧ isDisplayLabel i.label = true := by
  simp only [MailboxDirectory.addAgent, bind_eq_ok, refuseIf_eq_ok, exists_const, pure_eq_ok,
    Bool.not_eq_false] at ha
  obtain ⟨-, -, hla, -, -, rfl⟩ := ha
  refine ⟨⟨fun hl => ?_, fun hl => ?_⟩, hla⟩
  · dsimp only at hl
    split at hl
    · rw [lookup_insert_ite] at hl
      split at hl
      · cases hl
        exact hla
      · exact h.byAddress hl
    · exact h.byAddress hl
  · dsimp only at hl
    rw [lookup_insert_ite] at hl
    split at hl
    · cases hl
      exact hla
    · exact h.byRecipient hl

theorem Labelled.addAgents (h : d.Labelled) (ha : a.foldlM MailboxDirectory.addAgent d = .ok d') :
    d'.Labelled ∧ ∀ i ∈ a, isDisplayLabel i.label = true := by
  induction a generalizing d with
  | nil =>
    rw [foldlM_nil, pure_eq_ok] at ha
    exact ⟨ha ▸ h, fun _ hm => absurd hm not_mem_nil⟩
  | cons first rest ih =>
    rw [foldlM_cons, bind_eq_ok] at ha
    obtain ⟨added, hf, hr⟩ := ha
    obtain ⟨had, hlab⟩ := h.addAgent hf
    obtain ⟨hl, hla⟩ := ih had hr
    exact ⟨hl, forall_mem_cons.mpr ⟨hlab, hla⟩⟩

theorem Labelled.addPane (h : d.Labelled)
    (hla : ∀ i ∈ a, isDisplayLabel i.label = true) {pane : TmuxPaneId}
    (ha : d.addPane a pane = .ok d') : d'.Labelled := by
  unfold MailboxDirectory.addPane at ha
  split at ha
  · next i hf =>
    simp only [bind_eq_ok, refuseIf_eq_ok, exists_const, pure_eq_ok] at ha
    obtain ⟨-, rfl⟩ := ha
    have hm : i ∈ a := by
      refine mem_of_mem_filter (p := fun i => i.key.paneId = some pane) ?_
      rw [hf]
      exact mem_singleton.mpr rfl
    refine ⟨fun hl => ?_, h.byRecipient⟩
    rw [lookup_insert_ite] at hl
    split at hl
    · cases hl
      exact hla i hm
    · exact h.byAddress hl
  · rw [pure_eq_ok] at ha
    exact ha ▸ h

theorem labelled_new {w : WorkspaceId} (h : new w a = .ok d) : d.Labelled := by
  simp only [new, bind_eq_ok] at h
  obtain ⟨r, hr, h⟩ := h
  obtain ⟨hl, hla⟩ := (labelled_empty w).addAgents hr
  exact Runs.foldlM_invariant (fun _ _ _ hs ht => hs.addPane hla ht) hl h

theorem isDisplayLabel_admin : isDisplayLabel d.admin.label = true := by
  change isDisplayLabel "admin" = true
  decide

theorem Labelled.identityForRecipient (h : d.Labelled) {k : RecipientKey}
    (hi : d.identityForRecipient k = some i) :
    isDisplayLabel i.label = true := by
  unfold MailboxDirectory.identityForRecipient at hi
  split at hi
  · cases hi
    exact isDisplayLabel_admin
  · exact h.byRecipient hi

variable {ids : List MailboxIdentity}

theorem mem_firstOccurrences {seen : List RecipientKey}
    (h : i ∈ firstOccurrences seen ids) : i ∈ ids := by
  induction ids generalizing seen with
  | nil => exact h
  | cons first rest ih =>
    unfold firstOccurrences at h
    split at h
    · exact mem_cons_of_mem _ (ih h)
    · rcases mem_cons.mp h with rfl | h
      · exact mem_cons_self
      · exact mem_cons_of_mem _ (ih h)

theorem Labelled.resolveRecipientKeys (h : d.Labelled) {keys : List RecipientKey}
    (hr : d.resolveRecipientKeys keys = .ok ids) :
    ∀ i ∈ ids, isDisplayLabel i.label = true := by
  simp only [MailboxDirectory.resolveRecipientKeys, bind_eq_ok, mapM_eq_ok, pure_eq_ok] at hr
  obtain ⟨f, hf, rfl⟩ := hr
  intro i hm
  obtain ⟨key, -, hk⟩ := exists_of_forall₂ hf.flip (mem_firstOccurrences hm)
  simp only [resolveRecipientKey, refuseIf_bind_eq_ok, orRefuse_eq_ok] at hk
  exact h.identityForRecipient hk.2

theorem Labelled.resolve (h : d.Labelled) {addresses : List String}
    (hr : d.resolve addresses = .ok ids) :
    ∀ i ∈ ids, isDisplayLabel i.label = true := by
  unfold MailboxDirectory.resolve at hr
  intro i hm
  split at hr
  · cases hr
    obtain ⟨key, hk⟩ := mem_values.mp ((mem_insertionSort _).mp hm)
    exact h.byRecipient hk
  · simp only [bind_eq_ok, mapM_eq_ok, pure_eq_ok] at hr
    obtain ⟨-, -, found, hf, rfl⟩ := hr
    obtain ⟨address, -, ha⟩ := exists_of_forall₂ hf.flip (mem_firstOccurrences hm)
    unfold resolveAddress at ha
    split at ha
    · cases ha
      exact isDisplayLabel_admin
    · exact h.byAddress (orRefuse_eq_ok.mp ha)

theorem Labelled.resolveSend (h : d.Labelled) {r : MailboxSend} (hr : d.resolveSend r = .ok ids) :
    ∀ i ∈ ids, isDisplayLabel i.label = true := by
  unfold MailboxDirectory.resolveSend at hr
  split at hr
  · exact h.resolveRecipientKeys (refuseIf_bind_eq_ok.mp hr).2
  · exact h.resolve hr

end MailboxDirectory

/-! ## Presentations -/

theorem validateDisplayLabel_eq_ok {kind l : String} {u : Unit} :
    validateDisplayLabel kind l = .ok u ↔ isDisplayLabel l = true := by
  rw [validateDisplayLabel, refuseIf_eq_ok, Bool.not_eq_false]

theorem recipientLabelsFrom_identities {ids : List MailboxIdentity}
    (h : ∀ identity ∈ ids, isDisplayLabel identity.label = true) (i : Nat) :
    ∃ ls, recipientLabelsFrom i (ids.map MailboxIdentity.key)
      (ids.map fun identity => ⟨identity.key, identity.label⟩) = .ok ls := by
  induction ids generalizing i with
  | nil => exact ⟨[], rfl⟩
  | cons first rest ih =>
    obtain ⟨hf, hr⟩ := forall_mem_cons.mp h
    obtain ⟨ls, hl⟩ := ih hr (i + 1)
    refine ⟨first.label :: ls, ?_⟩
    exact refuseIf_bind_eq_ok.mpr ⟨not_not.mpr rfl, bind_eq_ok.mpr
      ⟨(), validateDisplayLabel_eq_ok.mpr hf, bind_eq_ok.mpr ⟨ls, hl, rfl⟩⟩⟩

theorem presentationLabels_identities {s : String} {ids : List MailboxIdentity}
    (hs : isDisplayLabel s = true)
    (h : ∀ identity ∈ ids, isDisplayLabel identity.label = true) :
    ∃ labels, presentationLabels (ids.map MailboxIdentity.key)
      ⟨s, ids.map fun identity => ⟨identity.key, identity.label⟩⟩ = .ok labels := by
  obtain ⟨labels, hl⟩ := recipientLabelsFrom_identities h 0
  refine ⟨(s, labels), ?_⟩
  simp only [presentationLabels, bind_eq_ok, validateDisplayLabel_eq_ok, refuseIf_eq_ok,
    length_map, ne_eq, not_true_eq_false, not_false_eq_true, exists_const]
  exact ⟨hs, trivial, labels, hl, rfl⟩

theorem presentationLabels_sender {ks : List RecipientKey}
    {p : MessagePresentation} {ls : String × List String}
    (h : presentationLabels ks p = .ok ls) :
    isDisplayLabel p.senderLabel = true := by
  obtain ⟨_, hs, -⟩ := bind_eq_ok.mp h
  exact validateDisplayLabel_eq_ok.mp hs

end Cyclops
