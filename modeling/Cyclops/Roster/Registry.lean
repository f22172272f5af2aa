import Cyclops.Lib.FiniteMap
import Cyclops.Lib.Runs
import Cyclops.Proto.Identity

/-!
# The adoption registry

Which pane wears which label.
-/

namespace Cyclops.Roster

open FiniteMap

structure Adoption where
  session : String
  paneId : String
  label : String
  recipient : Option RecipientKey
  paneRoot : Option ProcessInstanceId
  manifest : Option String
  panePid : Nat
  windowId : String
  borderFormat : Option String
deriving DecidableEq

structure WindowChrome where
  session : String
  windowId : String
  borderStatus : Option String

structure Registry where
  panes : Map RecipientKey Adoption
  legacyPanes : List Adoption
  windows : Map String WindowChrome

/-- The registry file was not replaced. -/
inductive StateError where
  | io

def sessionInstanceId (key : RecipientKey) : Option SessionInstanceId :=
  match key.recipient with
  | .agent instance_ _ => some instance_
  | _ => none

/-- An adoption is filed under its own recipient, is of that recipient's pane and has a
root. -/
structure Adoption.KeyedBy (adoption : Adoption)
    (recipient : RecipientKey) : Prop where
  own : adoption.recipient = some recipient
  pane : recipient.paneId.map TmuxPaneId.text = some adoption.paneId
  rooted : ∃ root, adoption.paneRoot = some root

def Adoption.Consistent (adoption : Adoption) : Prop :=
  ∀ recipient, adoption.recipient = some recipient →
    recipient.paneId.map TmuxPaneId.text = some adoption.paneId

/-- Hand a window's settings back when no adopted pane is left in it. -/
def releaseWindow (panes : Map RecipientKey Adoption) (legacyPanes : List Adoption)
    (windows : Map String WindowChrome) (windowId : String) :
    Map String WindowChrome × Option WindowChrome :=
  if (values panes).any (·.windowId = windowId) || legacyPanes.any (·.windowId = windowId) then
    (windows, none)
  else (windows.erase windowId, windows.lookup windowId)

namespace Registry

variable (reg : Registry)

def file (adoption : Adoption) : Registry :=
  match adoption.recipient, adoption.paneRoot with
  | some recipient, some _ => { reg with panes := reg.panes.insert recipient adoption }
  | _, _ => { reg with legacyPanes := reg.legacyPanes ++ [adoption] }

def load (panes : List Adoption) (windows : List WindowChrome) : Registry :=
  panes.foldl file ⟨∅, [], windows.foldl (fun m w => m.insert w.windowId w) ∅⟩

def commit (candidate : Registry) (saved : Bool) : Registry × Except StateError Unit :=
  if saved then (candidate, .ok ()) else (reg, .error .io)

/-! ## Reads -/

def forRecipient (recipient : RecipientKey) : Option Adoption :=
  reg.panes.lookup recipient

def forRoute (recipient : RecipientKey) (paneRoot : ProcessInstanceId) : Option Adoption :=
  (reg.panes.lookup recipient).filter fun adoption => adoption.paneRoot = some paneRoot

def inSession (session : String) : List Adoption :=
  (values reg.panes).filter fun adoption => adoption.session = session

def inPane (paneId : String) : List Adoption :=
  (values reg.panes).filter fun adoption => adoption.paneId = paneId

def labelHolder (label : String) (except : Option RecipientKey) : Option Adoption :=
  (values reg.panes).find? fun adoption => adoption.label = label && adoption.recipient ≠ except

/-! ## Changes -/

def renameSession (oldName newName : String) (saved : Bool) : Registry × Except StateError Unit :=
  let moved (adoption : Adoption) : Adoption :=
    if adoption.session = oldName then { adoption with session := newName } else adoption
  let candidate : Registry :=
    { panes := mapValues moved reg.panes
      legacyPanes := reg.legacyPanes.map moved
      windows := mapValues (fun window =>
          if window.session = oldName then { window with session := newName } else window)
        reg.windows }
  let changed := (values reg.panes).any (·.session = oldName) ||
    reg.legacyPanes.any (·.session = oldName) || (values reg.windows).any (·.session = oldName)
  if oldName = newName then (reg, .ok ())
  else if !changed then (reg, .ok ())
  else reg.commit candidate saved

def adopt (adoption : Adoption) (window : WindowChrome) (saved : Bool) :
    Registry × Except StateError Unit :=
  match adoption.recipient with
  | none => (reg, .error .io)
  | some recipient =>
    let candidate : Registry :=
      { panes := reg.panes.insert recipient adoption
        legacyPanes := reg.legacyPanes.filter fun legacy =>
          legacy.session ≠ adoption.session || legacy.paneId ≠ adoption.paneId
        windows :=
          if (reg.windows.lookup window.windowId).isSome then reg.windows
          else reg.windows.insert window.windowId window }
    reg.commit candidate saved

def rebindProcess (recipient : RecipientKey) (expected replacement : ProcessInstanceId)
    (saved : Bool) : Registry × Except StateError Bool :=
  match reg.panes.lookup recipient with
  | none => (reg, .ok false)
  | some current =>
    if current.paneRoot = some replacement then (reg, .ok true)
    else if current.paneRoot ≠ some expected then (reg, .ok false)
    else
      let rebound :=
        { current with paneRoot := some replacement, panePid := replacement.pid }
      let result := reg.commit { reg with panes := reg.panes.insert recipient rebound } saved
      (result.1, result.2.map fun _ => true)

def pendingClear (recipient : RecipientKey) (paneRoot : ProcessInstanceId) :
    Option (Adoption × Option WindowChrome) :=
  (reg.forRoute recipient paneRoot).map fun gone =>
    (gone, (releaseWindow (reg.panes.erase recipient) reg.legacyPanes reg.windows gone.windowId).2)

/-- Drop the adoption of a recipient, and its window's settings with the last one. -/
def without (recipient : RecipientKey) (gone : Adoption) : Registry × Option WindowChrome :=
  let panes := reg.panes.erase recipient
  let released := releaseWindow panes reg.legacyPanes reg.windows gone.windowId
  ({ reg with panes, windows := released.1 }, released.2)

def clear (recipient : RecipientKey) (paneRoot : ProcessInstanceId) (saved : Bool) :
    Registry × Except StateError (Option (Adoption × Option WindowChrome)) :=
  match reg.forRoute recipient paneRoot with
  | none => (reg, .ok none)
  | some gone =>
    let dropped := reg.without recipient gone
    let result := reg.commit dropped.1 saved
    (result.1, result.2.map fun _ => some (gone, dropped.2))

/-- A pane went away: its adoption goes also when that cannot be written. -/
def forget (recipient : RecipientKey) (paneRoot : ProcessInstanceId) (saved : Bool) :
    Registry × Option (Adoption × Option WindowChrome) :=
  match reg.clear recipient paneRoot saved with
  | (after, .ok gone) => (after, gone)
  | (_, .error _) =>
    match reg.forRoute recipient paneRoot with
    | none => (reg, none)
    | some gone =>
      let dropped := reg.without recipient gone
      (dropped.1, some (gone, dropped.2))

def moveWindow (recipient : RecipientKey) (paneRoot : ProcessInstanceId) (destination : String)
    (destinationStatus : Option String) (saved : Bool) :
    Registry × Except StateError (Option WindowChrome) :=
  match reg.forRoute recipient paneRoot with
  | none => (reg, .ok none)
  | some moved =>
    if moved.windowId = destination then (reg, .ok none)
    else
      let panes := reg.panes.insert recipient { moved with windowId := destination }
      let windows :=
        if (reg.windows.lookup destination).isSome then reg.windows
        else reg.windows.insert destination ⟨moved.session, destination, destinationStatus⟩
      let released := releaseWindow panes reg.legacyPanes windows moved.windowId
      let result := reg.commit { reg with panes, windows := released.1 } saved
      (result.1, result.2.map fun _ => released.2)

def justified (live : List (String × ProcessInstanceId)) (adoption : Adoption) : Bool :=
  live.any fun pane => pane.1 = adoption.paneId && adoption.paneRoot = some pane.2

/-- Keep what the panes of a session justify, and the routes that were proven to exist
elsewhere on the server. -/
def restoreSessionPreserving (session : String) (instance_ : SessionInstanceId)
    (live : List (String × ProcessInstanceId)) (retained : List RecipientKey) (saved : Bool) :
    Registry × Except StateError Unit :=
  let panes := retain (fun recipient adoption =>
      adoption.session ≠ session || retained.contains recipient ||
        (sessionInstanceId recipient = some instance_ && justified live adoption))
    reg.panes
  let windows := retain (fun id window =>
      window.session ≠ session || (values panes).any (·.windowId = id) ||
        reg.legacyPanes.any (·.windowId = id))
    reg.windows
  reg.commit { reg with panes, windows } saved

def pruneOrphans (livePanes : List String) (saved : Bool) : Registry × Except StateError Nat :=
  let keep (adoption : Adoption) : Bool := livePanes.contains adoption.paneId
  let panes := retain (fun _ adoption => keep adoption) reg.panes
  let legacyPanes := reg.legacyPanes.filter keep
  let freed := ((values reg.panes).filter (!keep ·) ++ reg.legacyPanes.filter (!keep ·)).map
    Adoption.windowId
  if freed.isEmpty then (reg, .ok 0)
  else
    let windows := freed.foldl
      (fun windows id => (releaseWindow panes legacyPanes windows id).1) reg.windows
    let result := reg.commit { panes, legacyPanes, windows } saved
    (result.1, result.2.map fun _ => freed.length)

/-! ## 1. Adoptions are filed under their recipients -/

def WellKeyed : Prop :=
  ∀ recipient adoption, reg.panes.lookup recipient = some adoption → adoption.KeyedBy recipient

end Registry

variable {reg : Registry}

theorem Registry.commit_cases (reg c : Registry) (s : Bool) : reg.commit c s = (c, .ok ()) ∨
      reg.commit c s = (reg, .error .io) := by
  cases s with
  | false => exact .inr rfl
  | true => exact .inl rfl

variable {recipient : RecipientKey} {adoption : Adoption} {p : ProcessInstanceId}
  {legacyPanes : List Adoption} {windows : Map String WindowChrome}

theorem Registry.forRoute_eq_some : reg.forRoute recipient p = some adoption ↔
      reg.panes.lookup recipient = some adoption ∧ adoption.paneRoot = some p := by
  simp [forRoute]

open Registry

theorem Registry.WellKeyed.file (hk : reg.WellKeyed) (hc : adoption.Consistent) :
    (reg.file adoption).WellKeyed := by
  unfold Registry.file
  split
  · rename_i recipient root hr hro
    intro key f hf
    simp only [lookup_insert_ite] at hf
    split at hf
    · rename_i same
      cases hf
      subst same
      exact ⟨hr, hc key hr, root, hro⟩
    · exact hk key f hf
  · exact hk

theorem Registry.load_wellKeyed {ps : List Adoption} (windows : List WindowChrome)
    (hc : ∀ adoption ∈ ps, adoption.Consistent) :
    (load ps windows).WellKeyed := by
  have hs : Runs.Along file (fun _ adoption => adoption.Consistent)
      ⟨∅, [], windows.foldl (fun m w => m.insert w.windowId w) ∅⟩ ps :=
    Runs.Along.of_forall fun adoption hm _ => hc adoption hm
  exact hs.invariant WellKeyed (fun _ _ hk ok => hk.file ok) fun _ _ hf => by simp at hf

theorem Registry.WellKeyed.refile (hk : reg.WellKeyed) (hfi : adoption.KeyedBy recipient) :
    WellKeyed ⟨reg.panes.insert recipient adoption, legacyPanes, windows⟩ := by
  intro key e hf
  rw [lookup_insert_ite] at hf
  split at hf
  · rename_i same
    cases hf
    exact same ▸ hfi
  · exact hk key e hf

/-! ## 2. Operations that lose nothing -/

def Keeps (reg after : Registry) : Prop :=
  ∀ recipient adoption, reg.panes.lookup recipient = some adoption →
    ∃ adoption', after.panes.lookup recipient = some adoption' ∧
      adoption'.borderFormat = adoption.borderFormat

theorem Keeps.refl (reg : Registry) : Keeps reg reg :=
  fun _ adoption found => ⟨adoption, found, rfl⟩

theorem Keeps.refile {c : Adoption} (hf : reg.panes.lookup recipient = some c)
    (hb : adoption.borderFormat = c.borderFormat) :
    Keeps reg ⟨reg.panes.insert recipient adoption, legacyPanes, windows⟩ := by
  intro key e old
  rw [lookup_insert_ite]
  split
  · rename_i same
    rw [same, hf] at old
    cases old
    exact ⟨adoption, rfl, hb⟩
  · exact ⟨e, old, rfl⟩

structure Preserves (reg after : Registry) : Prop where
  keeps : Keeps reg after
  keyed : reg.WellKeyed → after.WellKeyed

theorem Preserves.refl (reg : Registry) : Preserves reg reg :=
  ⟨.refl reg, id⟩

theorem Preserves.commit {c : Registry} (h : Preserves reg c) (s : Bool) :
    Preserves reg (reg.commit c s).1 := by
  obtain eq | eq := reg.commit_cases c s
  · exact eq ▸ h
  · exact eq ▸ .refl reg

theorem Registry.preserves_renameSession (reg : Registry) (o n : String)
    (s : Bool) : Preserves reg (reg.renameSession o n s).1 := by
  simp only [renameSession]
  split
  · exact .refl reg
  · split
    · exact .refl reg
    · refine .commit ⟨fun recipient adoption hf => ?_, fun hk => ?_⟩ s
      · refine ⟨_, lookup_mapValues.trans (congrArg _ hf), ?_⟩
        beta_reduce
        split <;> rfl
      · intro recipient adoption hf
        rw [lookup_mapValues] at hf
        obtain ⟨old, filed, rfl⟩ := Option.map_eq_some_iff.mp hf
        have ⟨ho, pane, hr⟩ := hk recipient old filed
        split <;> exact ⟨ho, pane, hr⟩

theorem Registry.preserves_rebindProcess (reg : Registry) (recipient : RecipientKey)
    (e replacement : ProcessInstanceId) (s : Bool) :
    Preserves reg (reg.rebindProcess recipient e replacement s).1 := by
  simp only [rebindProcess]
  split
  · exact .refl reg
  · rename_i c found
    split
    · exact .refl reg
    · split
      · exact .refl reg
      · apply Preserves.commit
        refine ⟨Keeps.refile found rfl, fun hk => hk.refile ?_⟩
        have hf := hk recipient c found
        exact ⟨hf.own, hf.pane, replacement, rfl⟩

theorem Registry.preserves_moveWindow (reg : Registry) (recipient : RecipientKey)
    (p : ProcessInstanceId) (d : String) (s : Option String)
    (saved : Bool) : Preserves reg (reg.moveWindow recipient p d s saved).1 := by
  simp only [moveWindow]
  split
  · exact .refl reg
  · rename_i m found
    obtain ⟨hf, -⟩ := forRoute_eq_some.mp found
    split
    · exact .refl reg
    · apply Preserves.commit
      refine ⟨Keeps.refile hf rfl, fun hk => hk.refile ?_⟩
      have ⟨ho, pane, hr⟩ := hk recipient m hf
      exact ⟨ho, pane, hr⟩

/-! ## 3. What the other operations leave -/

/-- The entries that go meet a condition, and the others stay as they are. -/
structure Drops (reg after : Registry) (goes : RecipientKey → Adoption → Prop) : Prop where
  stays : ∀ recipient adoption, reg.panes.lookup recipient = some adoption →
    after.panes.lookup recipient = some adoption ∨ goes recipient adoption
  old : ∀ recipient adoption, after.panes.lookup recipient = some adoption →
    reg.panes.lookup recipient = some adoption

section

variable {a : Registry} {goes : RecipientKey → Adoption → Prop}

theorem Drops.refl (reg : Registry) : Drops reg reg goes :=
  ⟨fun _ _ hf => .inl hf, fun _ _ hf => hf⟩

theorem Drops.commit {c : Registry} (h : Drops reg c goes) (s : Bool) :
    Drops reg (reg.commit c s).1 goes := by
  obtain eq | eq := reg.commit_cases c s
  · exact eq ▸ h
  · exact eq ▸ .refl reg

theorem Drops.trans {l : Registry} (h : Drops reg a goes) (h' : Drops a l goes) :
    Drops reg l goes where
  stays recipient adoption found := by
    obtain hk | hg := h.stays recipient adoption found
    · exact h'.stays recipient adoption hk
    · exact .inr hg
  old recipient adoption found := h.old recipient adoption (h'.old recipient adoption found)

theorem Drops.mono {goes' : RecipientKey → Adoption → Prop} (h : Drops reg a goes)
    (hw : ∀ recipient adoption, goes recipient adoption → goes' recipient adoption) :
    Drops reg a goes' :=
  ⟨fun recipient adoption hf => (h.stays recipient adoption hf).imp id
    (hw recipient adoption), h.old⟩

theorem Drops.keyed (h : Drops reg a goes) (hk : reg.WellKeyed) : a.WellKeyed :=
  fun recipient adoption hf => hk recipient adoption (h.old recipient adoption hf)

theorem Drops.retain {keep : RecipientKey → Adoption → Bool} {legacyPanes : List Adoption}
    {windows : Map String WindowChrome}
    (hr : ∀ recipient adoption, keep recipient adoption = false → goes recipient adoption) :
    Drops reg ⟨retain keep reg.panes, legacyPanes, windows⟩ goes where
  stays recipient adoption hf := by
    cases hk : keep recipient adoption with
    | true => exact .inl (lookup_retain.mpr ⟨hf, hk⟩)
    | false => exact .inr (hr recipient adoption hk)
  old recipient adoption hf := (lookup_retain.mp hf).1

end

theorem Registry.drops_without {gone : Adoption} (hfo : reg.forRoute recipient p = some gone) :
    Drops reg (reg.without recipient gone).1
      fun key adoption => key = recipient ∧ adoption.paneRoot = some p := by
  obtain ⟨hf, hr⟩ := forRoute_eq_some.mp hfo
  refine ⟨fun key adoption h => ?_, fun key adoption h => ?_⟩
  · by_cases same : key = recipient
    · rw [same, hf] at h
      cases h
      exact .inr ⟨same, hr⟩
    · exact .inl (by simp [without, same, h])
  · simp only [without, lookup_erase_ite] at h
    split at h
    · cases h
    · exact h

theorem Registry.drops_clear (reg : Registry) (recipient : RecipientKey)
    (p : ProcessInstanceId) (s : Bool) :
    Drops reg (reg.clear recipient p s).1
      fun key adoption => key = recipient ∧ adoption.paneRoot = some p := by
  unfold clear
  split
  · exact .refl reg
  · rename_i gone found
    exact (drops_without found).commit s

theorem Registry.drops_forget (reg : Registry) (recipient : RecipientKey)
    (p : ProcessInstanceId) (s : Bool) :
    Drops reg (reg.forget recipient p s).1
      fun key adoption => key = recipient ∧ adoption.paneRoot = some p := by
  have hc := reg.drops_clear recipient p s
  unfold forget
  split
  · rename_i aft gone eq
    rw [eq] at hc
    exact hc
  · split
    · exact .refl reg
    · rename_i gone found
      exact drops_without found

theorem Registry.drops_restoreSessionPreserving (reg : Registry) (s : String)
    (i : SessionInstanceId) (live : List (String × ProcessInstanceId))
    (r : List RecipientKey) (saved : Bool) :
    Drops reg (reg.restoreSessionPreserving s i live r saved).1
      fun recipient adoption => adoption.session = s ∧ recipient ∉ r ∧
        (sessionInstanceId recipient = some i → justified live adoption = false) := by
  refine .commit (.retain fun recipient adoption hr => ?_) saved
  simpa [and_assoc] using hr

theorem Registry.drops_pruneOrphans (reg : Registry) (l : List String) (s : Bool) :
    Drops reg (reg.pruneOrphans l s).1 fun _ adoption => adoption.paneId ∉ l := by
  simp only [pruneOrphans]
  split
  · exact .refl reg
  · refine .commit (.retain fun recipient adoption hr => ?_) s
    simpa using hr

theorem Registry.lookup_adopt (reg : Registry) (adoption : Adoption) (w : WindowChrome)
    (s : Bool) {old : Adoption} (hf : reg.panes.lookup recipient = some old) :
    (reg.adopt adoption w s).1.panes.lookup recipient = some old ∨
      adoption.recipient = some recipient ∧
        (reg.adopt adoption w s).1.panes.lookup recipient = some adoption := by
  unfold adopt
  split
  · exact .inl hf
  · rename_i own ho
    cases s with
    | false => exact .inl hf
    | true =>
      by_cases same : recipient = own
      · exact .inr ⟨same ▸ ho, by simp [commit, same]⟩
      · exact .inl (by simp [commit, same, hf])

theorem Registry.WellKeyed.adopt (hk : reg.WellKeyed) (w : WindowChrome) (s : Bool)
    (hc : adoption.Consistent) (hr : ∃ root, adoption.paneRoot = some root) :
    (reg.adopt adoption w s).1.WellKeyed := by
  unfold Registry.adopt
  split
  · exact hk
  · rename_i own ho
    cases s with
    | false => exact hk
    | true => exact hk.refile ⟨ho, hc own ho, hr⟩

end Cyclops.Roster
