import Cyclops.Roster.Daemon

/-!
# Adoptions leave with proof

An adoption, with the border settings saved in it, is to leave the registry only through an
operator's clear after the border was restored, or when its pane or root process was seen gone on
the server it belongs to.

Result: `adoptions_leave_with_proof`.
-/

namespace Cyclops.Roster

open FiniteMap State Registry List Option ProcRead

section

variable (serverOf : SessionInstanceId → ServerGeneration) (w : WorkspaceId)

/-- The steps that act on what they have checked, in the state they start from. -/
def State.careful (s : State) : Action → Bool
  | .nameCommit k _ read _ _ =>
    match s.tasks[k]? with
    | some (.name _ recipient paneRoot _ knownFormat _) =>
      (s.registry.forRoute recipient paneRoot).all fun current =>
        knownFormat.getD read.borderFormat = current.borderFormat
    | _ => true
  | .clearCommit k _ _ =>
    match s.tasks[k]? with
    | some (.clear recipient paneRoot pending) =>
      (s.registry.forRoute recipient paneRoot).all fun current =>
        pending.any fun looked => looked.1.borderFormat = current.borderFormat
    | _ => true
  | .removedCommit k _ _ _ =>
    match s.tasks[k]? with
    | some (.removed w _ recipient adoptions) =>
      (expectedAdoption recipient adoptions).all fun expected =>
        expected.recipient.all fun route =>
          (sessionInstanceId route).map serverOf =
            s.watchers[w]?.map fun watcher => serverOf watcher.instance_
    | _ => true
  | .reconcileCommit k _ _ _ =>
    match s.tasks[k]? with
    | some (.reconcile w live existing) =>
      s.watchers[w]?.all fun watcher =>
        s.registry.panes.entries.all fun entry =>
          entry.2.session ≠ watcher.session ||
            (sessionInstanceId entry.1 = some watcher.instance_ && justified live entry.2) ||
            ((sessionInstanceId entry.1).map serverOf = some (serverOf watcher.instance_) &&
              (existing.find? fun looked => looked.recipient = some entry.1).any fun looked =>
                looked.paneId = entry.2.paneId && looked.paneRoot = entry.2.paneRoot)
    | _ => true
  | .settleCommit k _ =>
    match s.tasks[k]? with
    | some (.settle _ checked) =>
      checked.all fun looked => looked.1.recipient.all fun recipient =>
        (s.registry.forRecipient recipient).all fun current =>
          current.paneRoot = looked.1.paneRoot
    | _ => true
  | .resetPrune k _ =>
    match s.tasks[k]? with
    | some (.reset dead live) =>
      s.registry.panes.entries.all fun entry =>
        live.contains entry.2.paneId || dead.any (·.showsLoss serverOf entry.1 entry.2)
    | _ => true
  | _ => true

end

/-! ## 1. Links and tasks -/

/-- A slot with a watcher has the identity of the watcher's session, or none. -/
def Linked (s : State) : Prop :=
  ∀ (idx w : Nat) (slot : Slot) (instance_ : SessionInstanceId), s.slots[idx]? = some slot →
    slot.link.watcher = some w → slot.link.identity = some instance_ →
    ∃ watcher, s.watchers[w]? = some watcher ∧ watcher.instance_ = instance_

def Task.Consistent : Task → Prop
  | .removed _ _ _ adoptions => ∀ adoption ∈ adoptions, adoption.Consistent
  | _ => True

structure Sound (s : State) : Prop where
  keyed : s.registry.WellKeyed
  linked : Linked s
  tasks : ∀ task ∈ s.tasks, task.Consistent

section

variable {s : State}

theorem Linked.of_slots (h : Linked s) {slots : List Slot}
    (ho : ∀ (idx : Nat) (new : Slot), slots[idx]? = some new →
      new.link.watcher = none ∨ new.link.identity = none ∨
        ∃ slot, s.slots[idx]? = some slot ∧ new.link = slot.link)
    (r : Registry) (t : List Task) : Linked ⟨r, s.watchers, slots, t⟩ := by
  intro idx w new i hf hw hi
  obtain none | none | ⟨slot, before, hs⟩ := ho idx new hf
  · rw [none] at hw
    cases hw
  · rw [none] at hi
    cases hi
  · exact h idx w slot i before (hs ▸ hw) (hs ▸ hi)

theorem Linked.modify (h : Linked s) (idx : Nat) {f : Slot → Slot}
    (he : ∀ slot, (f slot).link.watcher = none ∨ (f slot).link.identity = none ∨
      (f slot).link = slot.link) (r : Registry) (t : List Task) :
    Linked ⟨r, s.watchers, s.slots.modify idx f, t⟩ := by
  refine h.of_slots (fun j new hf => ?_) r t
  rw [getElem?_modify] at hf
  obtain ⟨slot, before, rfl⟩ := map_eq_some_iff.mp hf
  split
  · exact (he slot).imp id (.imp id fun hs => ⟨slot, before, hs⟩)
  · exact .inr (.inr ⟨slot, before, rfl⟩)

theorem Linked.publish (h : Linked s) {w : Nat} {watcher : Watcher}
    (known : s.watchers[w]? = some watcher) (idx : Nat) :
    Linked { s with slots := s.slots.modify idx fun slot =>
      { slot with observedLive := true, link := ⟨true, some watcher.instance_, some w⟩ } } := by
  intro j v new i hf hw hi
  rw [getElem?_modify] at hf
  obtain ⟨slot, before, rfl⟩ := map_eq_some_iff.mp hf
  split at hw
  · rename_i same
    rw [if_pos same] at hi
    cases hw
    cases hi
    exact ⟨watcher, known, rfl⟩
  · rename_i other
    rw [if_neg other] at hi
    exact h j v slot i before hw hi

theorem Linked.of_watchers (h : Linked s) {watchers : List Watcher}
    (hk : ∀ (w : Nat) (watcher : Watcher), s.watchers[w]? = some watcher →
      ∃ w', watchers[w]? = some w' ∧ w'.instance_ = watcher.instance_) :
    Linked { s with watchers } := by
  intro idx w slot i hf hw hi
  obtain ⟨watcher, known, rfl⟩ := h idx w slot i hf hw hi
  exact hk w watcher known

variable {p : Processes} {r : RecipientKey}

theorem adoptionRoute_spec {workspaceId : WorkspaceId} {idx w : Nat} {pane : TmuxPaneId}
    {root : ProcessInstanceId} {row : PaneRow} (hl : Linked s)
    (h : s.adoptionRoute workspaceId idx w pane p = some (r, root, row)) :
    ∃ watcher, s.watchers[w]? = some watcher ∧ row.pane = pane ∧
      r = ⟨workspaceId, .agent watcher.instance_ pane⟩ := by
  unfold adoptionRoute at h
  split at h
  · obtain ⟨key, reported, h⟩ := bind_eq_some_iff.mp h
    obtain ⟨listed, found, h⟩ := bind_eq_some_iff.mp h
    obtain ⟨o, -, eq⟩ := map_eq_some_iff.mp h
    cases eq
    obtain ⟨watcher, known, listed⟩ := bind_eq_some_iff.mp found
    obtain ⟨slot, held, reported⟩ := bind_eq_some_iff.mp reported
    split at reported
    · rename_i watching
      obtain ⟨i, identified, rfl⟩ := map_eq_some_iff.mp reported
      obtain ⟨w', known', hs⟩ := hl idx w slot i held watching identified
      rw [known] at known'
      cases known'
      exact ⟨watcher, known, by simpa using find?_some listed, by rw [hs]⟩
    · cases reported
  · cases h

/-! ## 2. What the checks prove -/

theorem sessionInstanceId_of_keyed {adoption : Adoption} (h : adoption.KeyedBy r) :
    ∃ i, sessionInstanceId r = some i := by
  have hp := h.pane
  obtain ⟨w, kind⟩ := r
  cases kind with
  | agent i => exact ⟨i, rfl⟩
  | admin => cases hp
  | headless => cases hp

theorem ProcRead.lost_of_gone {r : ProcRead} {e : ProcessInstanceId}
    (h : r.gone e = .ok true) : r.lost e = true := by
  obtain ⟨o, a⟩ := r
  cases o with
  | some => simpa [gone, lost] using h
  | none => cases a <;> simp_all [gone, lost]

theorem asked_of_physicalPaneGone {ans : ServerAnswer} {adoption : Adoption}
    (server : ServerGeneration) (h : physicalPaneGone ans p adoption = .ok true) :
    ∃ e r, adoption.paneRoot = some e ∧
      .asked server adoption.paneId e r ∈ askedAbout server adoption ans p ∧
      (r.all fun r => r.lost e) = true := by
  unfold physicalPaneGone at h
  unfold askedAbout
  cases hr : adoption.paneRoot with
  | none => simp [hr] at h
  | some e =>
    rw [hr] at h
    match ans with
    | .error _ => simp [physicalPaneGoneWithExpected] at h
    | .ok none => exact ⟨e, none, rfl, by simp, rfl⟩
    | .ok (some pid) =>
      exact ⟨e, some (p pid), rfl, by simp, lost_of_gone h⟩

theorem transferred_or_gone {e : List Adoption} {answers : RecipientKey → ServerAnswer}
    {stale t : List RecipientKey}
    (h : transferredRecipients e answers p stale = .ok t)
    (hm : r ∈ stale) (hke : r ∉ t) :
    ∃ adoption, e.find? (fun a => a.recipient = some r) = some adoption ∧
      physicalPaneGone (answers r) p adoption = .ok true := by
  induction stale generalizing t with
  | nil => cases hm
  | cons first rest ih =>
    unfold transferredRecipients at h
    split at h
    · cases h
    · rename_i adoption found
      split at h
      · cases h
      · rename_i gone hv
        split at h
        · cases h
        · rename_i later asked
          cases h
          have hk : r ∉ later := by
            intro held
            apply hke
            cases gone with
            | true => exact held
            | false => exact mem_cons_of_mem _ held
          obtain rfl | hm := mem_cons.mp hm
          · cases gone with
            | true => exact ⟨adoption, found, hv⟩
            | false => exact absurd mem_cons_self hke
          · exact ih asked hm hk

theorem releaseGone_drops (reg : Registry) (saved : Bool) (ks : List RecipientKey) :
    Drops reg (releaseGoneRecipients reg saved ks) fun key _ => key ∈ ks := by
  induction ks generalizing reg with
  | nil => exact .refl reg
  | cons first rest ih =>
    have hl : ∀ reg', Drops reg' (releaseGoneRecipients reg' saved rest)
        fun key _ => key ∈ first :: rest :=
      fun reg' => (ih reg').mono fun _ _ hm => mem_cons_of_mem _ hm
    unfold releaseGoneRecipients
    split
    · exact hl reg
    · split
      · exact hl reg
      · rename_i pr _
        refine .trans ((reg.drops_forget first pr saved).mono ?_) (hl _)
        intro key adoption hg
        exact hg.1 ▸ mem_cons_self

theorem process_of_goneRecipients {c : List (Adoption × ProcRead)} (h : r ∈ goneRecipients c) :
    ∃ adoption reading expected, (adoption, reading) ∈ c ∧
      adoption.recipient = some r ∧ adoption.paneRoot = some expected ∧
      reading.lost expected = true := by
  obtain ⟨⟨adoption, reading⟩, mem, eq⟩ := mem_filterMap.mp h
  cases hv : paneRootGone reading adoption with
  | error => simp [hv] at eq
  | ok gone =>
    cases gone with
    | false => simp [hv] at eq
    | true =>
      simp only [hv] at eq
      unfold paneRootGone at hv
      cases rooted : adoption.paneRoot with
      | none => simp [rooted] at hv
      | some expected =>
        rw [rooted] at hv
        exact ⟨adoption, reading, expected, mem, eq, rooted, lost_of_gone hv⟩

end

/-! ## 3. One step -/

section

variable (serverOf : SessionInstanceId → ServerGeneration) (workspaceId : WorkspaceId)

/-- The adoption is there, or was cleared, or the step acted on a proof of its loss. -/
def Accounted (s : State) (action : Action) (recipient : RecipientKey) (adoption : Adoption) :
    Prop :=
  (∃ adoption', (s.step serverOf workspaceId action).registry.panes.lookup recipient =
      some adoption' ∧ adoption'.borderFormat = adoption.borderFormat) ∨
    s.clears recipient adoption action = true ∨
    ∃ observation ∈ s.evidence serverOf workspaceId action,
      observation.showsLoss serverOf recipient adoption = true

def DropsProven (s : State) (action : Action) : Prop :=
  Drops s.registry (s.step serverOf workspaceId action).registry fun recipient adoption =>
    s.registry.panes.lookup recipient = some adoption → s.careful serverOf action = true →
    s.clears recipient adoption action = true ∨
      ∃ observation ∈ s.evidence serverOf workspaceId action,
        observation.showsLoss serverOf recipient adoption = true

variable {serverOf workspaceId} {s : State} {recipient : RecipientKey} {adoption : Adoption}
  {k : Nat} {a : Action} {saved : Bool} {p : Processes}

theorem expectedAdoption_mem {r : Option RecipientKey} {a : List Adoption}
    {e : Adoption} (h : expectedAdoption r a = some e) :
    e ∈ a := by
  obtain ho | ⟨-, only⟩ := or_eq_some_iff.mp h
  · obtain ⟨recipient, -, hf⟩ := bind_eq_some_iff.mp ho
    exact mem_of_find?_eq_some hf
  · split at only
    · cases only
      exact mem_singleton_self _
    · cases only

theorem stale_of_unjustified {e : List Adoption} {i : SessionInstanceId}
    {live : List (String × ProcessInstanceId)} {l : Adoption} (hm : l ∈ e)
    (ho : l.recipient = some recipient) (pane : l.paneId = adoption.paneId)
    (hr : l.paneRoot = adoption.paneRoot)
    (hu : sessionInstanceId recipient = some i → justified live adoption = false) :
    recipient ∈ staleAdoptionRecipients e i live := by
  have same : justified live l = justified live adoption := by
    simp only [justified, pane, hr]
  refine mem_filterMap.mpr ⟨l, mem_filter.mpr ⟨hm, ?_⟩, ho⟩
  by_cases he : sessionInstanceId recipient = some i
  · simp [same, hu he]
  · simp [ho, he]

theorem proven_clear {r : Bool} : DropsProven serverOf workspaceId s (.clearCommit k r saved) := by
  simp only [DropsProven, step]
  split
  · rename_i c pr pending ht
    split
    · exact .refl _
    · rename_i hd
      refine (s.registry.drops_clear c pr saved).mono ?_
      rintro recipient adoption ⟨rfl, hr⟩ hf hc
      simp only [careful, ht] at hc
      simp only [ht, clears]
      rw [Registry.forRoute_eq_some.mpr ⟨hf, hr⟩] at hc
      cases pending with
      | none => simp at hc
      | some =>
        have hp : r = true := by simpa using hd
        exact .inl (by simpa [hp] using hc)
  · exact .refl _

theorem accounted_name (hs : Sound s) {read : Snapshot} {he : Bool}
    (filed : s.registry.panes.lookup recipient = some adoption)
    (hc : s.careful serverOf (.nameCommit k p read he saved) = true) :
    Accounted serverOf workspaceId s (.nameCommit k p read he saved) recipient
      adoption := by
  simp only [Accounted, step]
  split
  · rename_i r n pr row kf ks ht
    simp only [careful, ht] at hc
    simp only [ht, evidence, commitName]
    split
    · rename_i c cr currentRow slot hro held
      split
      · exact .inl ⟨adoption, filed, rfl⟩
      · rename_i hu
        split
        · exact .inl ⟨adoption, filed, rfl⟩
        · obtain kept | ⟨ho, replaced⟩ := s.registry.lookup_adopt _ _ saved filed
          · exact .inl ⟨adoption, kept, rfl⟩
          · cases ho
            by_cases hr : adoption.paneRoot = some pr
            · rw [Registry.forRoute_eq_some.mpr ⟨filed, hr⟩] at hc
              exact .inl ⟨_, replaced, by simpa using hc⟩
            · -- The pane has another root now, as the route that was read again shows.
              have hf : c = recipient ∧ cr = pr := by
                simp only [Bool.or_eq_true, decide_eq_true_eq, not_or,
                  Decidable.not_not] at hu
                exact hu.1
              obtain ⟨rfl, rfl⟩ := hf
              obtain ⟨w, known, listed, hk⟩ := adoptionRoute_spec hs.linked hro
              have hp := (hs.keyed _ _ filed).pane
              simp only [known, hro]
              refine .inr (.inr ⟨_, mem_singleton_self _, ?_⟩)
              subst hk
              have same : currentRow.paneId = adoption.paneId := by
                simpa [RecipientKey.paneId, PaneRow.paneId, listed] using hp
              simp [Observation.showsLoss, sessionInstanceId, same, hr]
    · exact .inl ⟨adoption, filed, rfl⟩
  · exact .inl ⟨adoption, filed, rfl⟩

theorem proven_removed (sound : Sound s) {answer : ServerAnswer} :
    DropsProven serverOf workspaceId s (.removedCommit k answer p saved) := by
  simp only [DropsProven, step]
  split
  · rename_i w pane reported adoptions task
    simp only [careful, task, evidence]
    cases checked : expectedAdoption reported adoptions with
    | none => exact .refl _
    | some expected =>
      dsimp only
      split
      · rename_i route paneRoot gone own rooted
        refine (s.registry.drops_forget route paneRoot saved).mono ?_
        rintro recipient adoption ⟨rfl, same⟩ filed careful
        have server : (sessionInstanceId recipient).map serverOf =
            s.watchers[w]?.map fun watcher => serverOf watcher.instance_ := by
          simpa [own] using careful
        have consistent := sound.tasks _ (mem_of_getElem? task) expected
          (expectedAdoption_mem checked) recipient own
        have pane : expected.paneId = adoption.paneId :=
          some.inj (consistent.symm.trans (sound.keyed _ _ filed).pane)
        obtain ⟨instance_, agent⟩ := sessionInstanceId_of_keyed (sound.keyed _ _ filed)
        cases known : s.watchers[w]? with
        | none => simp [known, agent] at server
        | some watcher =>
          rw [known] at server
          obtain ⟨root, reading, rooted', asked, lost⟩ :=
            asked_of_physicalPaneGone (serverOf watcher.instance_) gone
          cases rooted.symm.trans rooted'
          refine .inr ⟨_, asked, ?_⟩
          simp [Observation.showsLoss, server, pane, same, lost]
      · exact .refl _
  · exact .refl _

theorem proven_reconcile {answers : RecipientKey → ServerAnswer} :
    DropsProven serverOf workspaceId s (.reconcileCommit k answers p saved) := by
  simp only [DropsProven, step]
  split
  · rename_i w live existing task
    cases known : s.watchers[w]? with
    | none => exact .refl _
    | some watcher =>
      simp only [careful, task, known, evidence]
      split
      · exact .refl _
      · rename_i transferred asked
        refine (s.registry.drops_restoreSessionPreserving watcher.session watcher.instance_ live
          transferred saved).mono ?_
        rintro recipient adoption ⟨session, dropped, unjustified⟩ filed careful
        have entry := all_eq_true.mp careful ⟨recipient, adoption⟩ (AList.mem_lookup_iff.mp filed)
        obtain ⟨server, looked, found, pane, root⟩ : (sessionInstanceId recipient).map serverOf =
            some (serverOf watcher.instance_) ∧ ∃ looked,
              existing.find? (fun a => a.recipient = some recipient) = some looked ∧
              looked.paneId = adoption.paneId ∧ looked.paneRoot = adoption.paneRoot := by
          have unkept : (decide (sessionInstanceId recipient = some watcher.instance_) &&
              justified live adoption) = false := by
            simpa using unjustified
          simpa [session, unkept, Option.any_eq_true] using entry
        have own : looked.recipient = some recipient := by simpa using find?_some found
        have stale := stale_of_unjustified (mem_of_find?_eq_some found) own pane root unjustified
        obtain ⟨looked', found', gone⟩ := transferred_or_gone asked stale dropped
        cases found.symm.trans found'
        obtain ⟨expected, reading, rooted, he, lost⟩ :=
          asked_of_physicalPaneGone (serverOf watcher.instance_) gone
        refine .inr ⟨.asked (serverOf watcher.instance_) looked.paneId expected reading,
          mem_flatMap.mpr ⟨looked, mem_of_find?_eq_some found, ?_⟩, ?_⟩
        · rw [own]
          exact he
        · rw [root] at rooted
          simp [Observation.showsLoss, server, pane, rooted, lost]
  · exact .refl _

/-- A recipient is released on the root that was read for it, if the registry still has that root. -/
theorem rootsRead_showsLoss {checked : List (Adoption × ProcRead)}
    (gone : recipient ∈ goneRecipients checked)
    (same : ∀ looked ∈ checked, looked.1.recipient = some recipient →
      adoption.paneRoot = looked.1.paneRoot) :
    ∃ observation ∈ rootsRead checked, observation.showsLoss serverOf recipient adoption = true := by
  obtain ⟨looked, reading, expected, mem, own, rooted, lost⟩ := process_of_goneRecipients gone
  refine ⟨.process expected reading, ?_, ?_⟩
  · exact mem_filterMap.mpr ⟨(looked, reading), mem, by simp [rooted]⟩
  · simp [Observation.showsLoss, same _ mem own, rooted, lost]

theorem proven_settle : DropsProven serverOf workspaceId s (.settleCommit k saved) := by
  simp only [DropsProven, step]
  split
  · rename_i idx checked task
    simp only [careful, task, evidence]
    refine (releaseGone_drops s.registry saved (goneRecipients checked)).mono ?_
    intro recipient adoption gone filed careful
    refine .inr (rootsRead_showsLoss gone fun looked mem own => ?_)
    have all := all_eq_true.mp careful looked mem
    simpa [own, forRecipient, filed] using all
  · exact .refl _

theorem proven_bootRelease (hs : Sound s) {session : String} :
    DropsProven serverOf workspaceId s (.bootRelease session p saved) := by
  simp only [DropsProven, step]
  split
  · exact .refl _
  · refine (releaseGone_drops s.registry saved _).mono ?_
    intro recipient adoption gone filed _
    refine .inr (rootsRead_showsLoss gone fun looked mem own => ?_)
    -- The adoption was read from the registry itself, where its key is its recipient.
    obtain ⟨found, hm, rfl⟩ := mem_map.mp mem
    obtain ⟨key, hfound⟩ := mem_values.mp (mem_filter.mp hm).1
    cases (hs.keyed key found hfound).own.symm.trans own
    cases hfound.symm.trans filed
    rfl

theorem proven_prune : DropsProven serverOf workspaceId s (.resetPrune k saved) := by
  simp only [DropsProven, step]
  split
  · rename_i dead live task
    simp only [careful, task, evidence]
    refine (s.registry.drops_pruneOrphans live saved).mono ?_
    intro recipient adoption orphan filed careful
    have entry := all_eq_true.mp careful ⟨recipient, adoption⟩ (AList.mem_lookup_iff.mp filed)
    have seen : dead.any (·.showsLoss serverOf recipient adoption) = true := by
      simpa [orphan] using entry
    exact .inr (any_eq_true.mp seen)
  · exact .refl _

def Action.commits : Action → Bool
  | .bootRelease .. | .nameCommit .. | .clearCommit .. | .removedCommit ..
  | .reconcileCommit .. | .settleCommit .. | .resetPrune .. => true
  | _ => false

theorem preserves_step (hq : a.commits = false) :
    Preserves s.registry (s.step serverOf workspaceId a).registry := by
  cases a with
  | rename idx n saved =>
    simp only [step]
    split
    · exact .refl _
    · exact s.registry.preserves_renameSession _ n saved
  | rebind key e r saved =>
    exact s.registry.preserves_rebindProcess key e r saved
  | moveWindow key pr d status saved =>
    exact s.registry.preserves_moveWindow key pr d status saved
  | connect | snapshot | watch | detach | retire | removedLook | resetStart => exact .refl _
  | publish | clearLook | reconcileLook | resetCollect | nameLook | settleLook =>
    simp only [step]
    repeat' split
    all_goals exact .refl _
  | bootRelease | nameCommit | clearCommit | removedCommit | reconcileCommit | settleCommit
  | resetPrune => cases hq

/-- A careful step loses no adoption without proof. -/
theorem careful_step (hs : Sound s) (hc : s.careful serverOf a = true)
    (hf : s.registry.panes.lookup recipient = some adoption) :
    Accounted serverOf workspaceId s a recipient adoption := by
  have hp : DropsProven serverOf workspaceId s a →
      Accounted serverOf workspaceId s a recipient adoption := fun hd =>
    (hd.stays recipient adoption hf).imp (fun kept => ⟨adoption, kept, rfl⟩) fun hpr => hpr hf hc
  cases hq : a.commits with
  | false => exact .inl ((preserves_step hq).keeps recipient adoption hf)
  | true =>
    cases a with
    | bootRelease => exact hp (proven_bootRelease hs)
    | nameCommit => exact accounted_name hs hf hc
    | clearCommit => exact hp proven_clear
    | removedCommit => exact hp (proven_removed hs)
    | reconcileCommit => exact hp proven_reconcile
    | settleCommit => exact hp proven_settle
    | resetPrune => exact hp proven_prune
    | _ => cases hq

/-! The invariant holds along every run. -/

theorem wellKeyed_commitName (hs : Sound s) (r : NameRequest) (n : RecipientKey)
    (pr : ProcessInstanceId) (row : PaneRow) (kf ks : Option (Option String))
    (p : Processes) (read : Snapshot) (he saved : Bool) :
    (s.commitName workspaceId r n pr row kf ks p read he saved).WellKeyed := by
  unfold commitName
  split
  · rename_i c cr currentRow slot route held
    split
    · exact hs.keyed
    · rename_i unchanged
      split
      · exact hs.keyed
      · refine hs.keyed.adopt _ saved (fun key ho => ?_) ⟨pr, rfl⟩
        cases ho
        have hsa : c = n := by
          simp only [Bool.or_eq_true, decide_eq_true_eq, not_or,
            Decidable.not_not] at unchanged
          exact unchanged.1.1
        obtain ⟨w, -, -, key⟩ := adoptionRoute_spec hs.linked route
        rw [← hsa, key]
        rfl
  · exact hs.keyed

theorem Sound.keyed_step (hs : Sound s) (a : Action) :
    (s.step serverOf workspaceId a).registry.WellKeyed := by
  cases hq : a.commits with
  | false => exact (preserves_step hq).keyed hs.keyed
  | true =>
    cases a with
    | nameCommit =>
      simp only [step]
      split
      · exact wellKeyed_commitName hs _ _ _ _ _ _ _ _ _ _
      · exact hs.keyed
    | bootRelease => exact (proven_bootRelease hs).keyed hs.keyed
    | clearCommit => exact proven_clear.keyed hs.keyed
    | removedCommit => exact (proven_removed hs).keyed hs.keyed
    | reconcileCommit => exact proven_reconcile.keyed hs.keyed
    | settleCommit => exact proven_settle.keyed hs.keyed
    | resetPrune => exact proven_prune.keyed hs.keyed
    | _ => cases hq

theorem Sound.linked_step (hs : Sound s) (a : Action) : Linked (s.step serverOf workspaceId a) := by
  have hl := hs.linked
  cases a with
  | connect =>
    refine hl.of_watchers fun w known h => ⟨known, ?_, rfl⟩
    rw [getElem?_append_left (List.getElem?_eq_some_iff.mp h).1, h]
  | snapshot =>
    refine hl.of_watchers fun v known h => ⟨_, by rw [getElem?_modify, h]; rfl, ?_⟩
    split <;> rfl
  | watch =>
    refine hl.of_slots (fun idx new found => ?_) _ _
    rw [getElem?_append] at found
    split at found
    · exact .inr (.inr ⟨new, found, rfl⟩)
    · rw [getElem?_singleton] at found
      split at found
      · cases found
        exact .inl rfl
      · cases found
  | publish idx =>
    simp only [step]
    split
    · exact hl
    · exact hl.publish ‹_› idx
  | detach idx => exact hl.modify idx (fun _ => .inl rfl) _ _
  | retire idx =>
    refine hl.modify idx (fun slot => ?_) _ _
    exact .inr (.inr rfl)
  | rename idx =>
    simp only [step]
    split
    · exact hl
    · refine hl.modify idx (fun slot => ?_) _ _
      exact .inr (.inr rfl)
  | settleCommit =>
    simp only [step]
    split
    · exact hl.modify _ (fun _ => .inr (.inl rfl)) _ _
    · exact hl
  | rebind | moveWindow | removedLook | resetStart => exact hl
  | bootRelease | nameCommit | clearLook | reconcileLook | resetCollect | resetPrune | nameLook
  | settleLook | clearCommit | removedCommit | reconcileCommit =>
    -- slots and watchers stay as they are, whatever was read
    simp only [step]
    repeat' split
    all_goals exact hl

theorem consistent_open {tasks : List Task} {task : Task}
    (h : ∀ task ∈ tasks, task.Consistent) (hn : task.Consistent) :
    ∀ t ∈ tasks ++ [task], t.Consistent := by
  intro t hm
  obtain hm | eq := mem_append.mp hm
  · exact h t hm
  · cases mem_singleton.mp eq
    exact hn

theorem consistent_set {tasks : List Task} {task : Task}
    (h : ∀ task ∈ tasks, task.Consistent) (hn : task.Consistent) (k : Nat) :
    ∀ t ∈ tasks.set k task, t.Consistent := by
  intro t hm
  obtain hm | eq := mem_or_eq_of_mem_set hm
  · exact h t hm
  · exact eq ▸ hn

theorem Sound.tasks_step (hs : Sound s) (a : Action) :
    ∀ task ∈ (s.step serverOf workspaceId a).tasks, task.Consistent := by
  have ht := hs.tasks
  have hf : ∀ k, ∀ task ∈ s.tasks.set k .done, task.Consistent :=
    @consistent_set s.tasks .done ht trivial
  cases a with simp only [step]
  | connect | snapshot | watch | detach | retire | rebind | moveWindow => exact ht
  | bootRelease | publish | rename => split <;> exact ht
  | removedLook =>
    refine consistent_open ht fun adoption hm => ?_
    obtain ⟨key, hfi⟩ := mem_values.mp (mem_filter.mp hm).1
    have hk := hs.keyed key adoption hfi
    intro recipient ho
    cases hk.own.symm.trans ho
    exact hk.pane
  | resetStart => exact consistent_open ht trivial
  | clearLook | reconcileLook =>
    split
    · exact ht
    · exact consistent_open ht trivial
  | nameLook =>
    split
    · exact ht
    · split <;> exact consistent_open ht trivial
  | settleLook =>
    split
    · exact ht
    · split
      · exact consistent_open ht trivial
      · exact ht
  | resetCollect k =>
    split
    · exact @consistent_set s.tasks (.reset _ _) ht trivial k
    · exact ht
  | nameCommit k | settleCommit k | resetPrune k =>
    split
    · exact hf k
    · exact ht
  | clearCommit k =>
    split
    · split <;> exact hf k
    · exact ht
  | removedCommit k =>
    split
    · split
      · exact hf k
      · split <;> exact hf k
    · exact ht
  | reconcileCommit k =>
    split
    · split
      · exact ht
      · split <;> exact hf k
    · exact ht

theorem Sound.step (hs : Sound s) (a : Action) : Sound (s.step serverOf workspaceId a) :=
  ⟨hs.keyed_step a, hs.linked_step a, hs.tasks_step a⟩

end

theorem Sound.start {ps : List Adoption} (w : List WindowChrome)
    (hc : ∀ adoption ∈ ps, adoption.Consistent) : Sound (start ps w) where
  keyed := load_wellKeyed w hc
  linked := fun _ _ _ _ hf => by cases hf
  tasks := fun _ hm => by cases hm

/-- In careful runs an adoption leaves, or loses its border settings, only by a clear that put them
back or on an observation of its loss on its own server. -/
theorem adoptions_leave_with_proof (serverOf : SessionInstanceId → ServerGeneration)
    (workspaceId : WorkspaceId) {panes : List Adoption} (windows : List WindowChrome)
    (consistent : ∀ adoption ∈ panes, adoption.Consistent) (actions : List Action)
    (action : Action)
    (careful : Runs.Along (step serverOf workspaceId)
      (fun s action => s.careful serverOf action = true) (start panes windows)
      (actions ++ [action]))
    {recipient : RecipientKey} {adoption : Adoption}
    (filed : (actions.foldl (step serverOf workspaceId)
      (start panes windows)).registry.panes.lookup recipient = some adoption) :
    Accounted serverOf workspaceId
      (actions.foldl (step serverOf workspaceId) (start panes windows)) action
      recipient adoption := by
  obtain ⟨-, hl⟩ := Runs.along_append.mp careful
  have hs : Sound (actions.foldl (step serverOf workspaceId) (start panes windows)) :=
    Runs.foldl_invariant Sound (fun _ action hs => hs.step action) (.start windows consistent)
  exact careful_step hs hl.1 filed

/-! ## 4. Runs of two sessions on two servers -/

def home : WorkspaceId := ⟨⟨1, Uuid.one_ne_zero⟩⟩

def firstSession : SessionInstanceId := ⟨⟨1, Uuid.one_ne_zero⟩⟩

def secondSession : SessionInstanceId := ⟨⟨2, Uuid.two_ne_zero⟩⟩

def generations (instance_ : SessionInstanceId) : ServerGeneration :=
  if instance_ = firstSession then ⟨"boot", ⟨900, 1, by decide, Nat.one_pos⟩⟩
  else ⟨"boot", ⟨901, 2, by decide, Nat.two_pos⟩⟩

def shell : ProcessInstanceId := ⟨100, 7, by decide, by decide⟩

def onlyShell : Processes := fun pid =>
  if pid = 100 then ⟨some shell, true⟩ else ⟨none, false⟩

def firstPane : RecipientKey := ⟨home, .agent firstSession ⟨1⟩⟩

def reviewer : Adoption where
  session := "main"
  paneId := "%1"
  label := "reviewer"
  recipient := some firstPane
  paneRoot := some shell
  manifest := none
  panePid := 100
  windowId := "@0"
  borderFormat := some "mine"

/-- A session is watched and attached; it has the pane `%1`. -/
def attach (name : String) (instance_ : SessionInstanceId) : List Action :=
  [.watch name, .connect ⟨instance_, name, [⟨⟨1⟩, 100, false, "@0"⟩]⟩, .publish 0 0]

def naming (label : String) : Action :=
  .nameLook ⟨0, 0, ⟨1⟩, label, none⟩ onlyShell

def runFrom (panes : List Adoption) (actions : List Action) : State :=
  actions.foldl (step generations home) (start panes [])

theorem reviewer_consistent : ∀ adoption ∈ [reviewer], adoption.Consistent := by
  intro adoption hm recipient ho
  cases mem_singleton.mp hm
  cases ho
  decide

/-- A pane that its own watcher reports removed, and that its server does not know, takes its
adoption with it. -/
theorem removed_pane_accounted :
    Accounted generations home (runFrom [reviewer] (attach "main" firstSession ++
        [.removedLook 0 0 ⟨1⟩])) (.removedCommit 0 (.ok none) onlyShell true) firstPane reviewer ∧
      ((runFrom [reviewer] (attach "main" firstSession ++ [.removedLook 0 0 ⟨1⟩,
        .removedCommit 0 (.ok none) onlyShell true])).registry.panes.lookup firstPane) = none :=
  ⟨adoptions_leave_with_proof generations home [] reviewer_consistent _ _ (by decide)
    (by decide), by decide⟩

theorem not_accounted {s : State} {action : Action} {recipient : RecipientKey} {adoption : Adoption}
    (left : (((s.step generations home action).registry.panes.lookup recipient).any fun a =>
      a.borderFormat = adoption.borderFormat) = false)
    (hu : s.clears recipient adoption action = false)
    (hun : ((s.evidence generations home action).any
      (·.showsLoss generations recipient adoption)) = false) :
    ¬ Accounted generations home s action recipient adoption := by
  rintro (⟨kept, found, hb⟩ | hc | ⟨o, mem, hs⟩)
  · simp [found, hb] at left
  · rw [hu] at hc
    cases hc
  · exact absurd hs (by simpa using any_eq_false.mp hun o mem)

/-- A reset while detached, a pane of the same id elsewhere, a clear that looked too early, and a
second naming. -/
theorem adoptions_leave_without_proof :
    ((runFrom [reviewer] (attach "main" firstSession ++
        [.detach 0, .resetStart true, .resetCollect 0])).registry.panes.lookup firstPane =
          some reviewer ∧
      ¬ Accounted generations home (runFrom [reviewer] (attach "main" firstSession ++
        [.detach 0, .resetStart true, .resetCollect 0])) (.resetPrune 0 true) firstPane
        reviewer) ∧
    ((runFrom [reviewer] (attach "other" secondSession ++
        [.removedLook 0 0 ⟨1⟩])).registry.panes.lookup firstPane = some reviewer ∧
      ¬ Accounted generations home (runFrom [reviewer] (attach "other" secondSession ++
        [.removedLook 0 0 ⟨1⟩])) (.removedCommit 0 (.ok none) onlyShell true) firstPane
        reviewer) ∧
    ((runFrom [] (attach "main" firstSession ++ [.clearLook 0 0 ⟨1⟩ onlyShell,
        naming "reviewer", .nameCommit 1 onlyShell ⟨some "mine", none⟩ false
          true])).registry.panes.lookup firstPane = some reviewer ∧
      ¬ Accounted generations home (runFrom [] (attach "main" firstSession ++
        [.clearLook 0 0 ⟨1⟩ onlyShell, naming "reviewer",
          .nameCommit 1 onlyShell ⟨some "mine", none⟩ false true])) (.clearCommit 0 true true)
        firstPane reviewer) ∧
    ((runFrom [] (attach "main" firstSession ++ [naming "reviewer", naming "tests",
        .nameCommit 0 onlyShell ⟨some "mine", none⟩ false true])).registry.panes.lookup firstPane =
          some reviewer ∧
      ¬ Accounted generations home (runFrom [] (attach "main" firstSession ++
        [naming "reviewer", naming "tests",
          .nameCommit 0 onlyShell ⟨some "mine", none⟩ false true]))
        (.nameCommit 1 onlyShell ⟨some "painted", none⟩ false true) firstPane reviewer) := by
  refine ⟨⟨?_, not_accounted ?_ ?_ ?_⟩, ⟨?_, not_accounted ?_ ?_ ?_⟩, ⟨?_, not_accounted ?_ ?_ ?_⟩,
    ?_, not_accounted ?_ ?_ ?_⟩
  all_goals decide

end Cyclops.Roster
