import Cyclops.Proto.Identity

/-!
# Session slots

The daemon follows each tmux session in a slot.

Results: `rename_cases`, `attach_cases`.
-/

namespace Cyclops.Session

open List

structure SessionIdentityBinding where
  liveSessionKey : String
  sessionInstanceId : SessionInstanceId
deriving DecidableEq

structure SessionSlot where
  name : String
  /-- Configured: the slot waits for its session. -/
  persistent : Bool
  observedLive : Bool := false
  retired : Bool := false
  aliasOf : Option Nat := none
  attached : Bool := false
  identity : Option SessionIdentityBinding := none
  watcher : Option String := none
deriving DecidableEq

abbrev Slots := List SessionSlot

namespace SessionSlot

variable (slot : SessionSlot)

def isCanonical : Bool :=
  slot.aliasOf.isNone && !slot.retired

def promotePersistent : SessionSlot :=
  { slot with persistent := true }

def rename (name : String) : SessionSlot :=
  { slot with name }

def retireAsAlias (canonical : Nat) : SessionSlot :=
  if slot.aliasOf.isNone then { slot with aliasOf := some canonical } else slot

def retargetAlias (prior canonical : Nat) : SessionSlot :=
  if slot.aliasOf = some prior then { slot with aliasOf := some canonical } else slot

def retireIfRuntime : SessionSlot :=
  if slot.persistent || !slot.observedLive then slot else { slot with retired := true }

def retireRuntimeSlot : SessionSlot :=
  if slot.persistent then slot else { slot with retired := true }

end SessionSlot

/-! ## Searches -/

def sessionIndex (slots : Slots) (name : String) : Option Nat :=
  slots.findIdx? fun slot => slot.isCanonical && slot.name = name

def findOther (slots : Slots) (idx : Nat) (p : SessionSlot → Bool) : Option (SessionSlot × Nat) :=
  slots.zipIdx.find? fun found => found.2 != idx && (found.1.isCanonical && p found.1)

section

variable {ss : Slots} {idx : Nat} {p : SessionSlot → Bool} {other : SessionSlot} {o : Nat}

theorem findOther_eq_some (h : findOther ss idx p = some (other, o)) :
    ss[o]? = some other ∧ o ≠ idx ∧ other.isCanonical = true ∧ p other = true := by
  have holds := find?_some h
  have hm := mem_of_find?_eq_some h
  rw [mk_mem_zipIdx_iff_getElem?] at hm
  simpa [hm] using holds

theorem findOther_eq_none (h : findOther ss idx p = none) (found : ss[o]? = some other)
    (ne : o ≠ idx) (hc : other.isCanonical = true) :
    p other = false := by
  have hf := find?_eq_none.mp h (other, o) (mk_mem_zipIdx_iff_getElem?.mpr found)
  simpa [ne, hc] using hf

theorem sessionIndex_eq_none {name : String} (h : sessionIndex ss name = none)
    (hfo : ss[o]? = some other) (hc : other.isCanonical = true) :
    other.name ≠ name := by
  have hf := findIdx?_eq_none_iff.mp h other (mem_of_getElem? hfo)
  simpa [hc] using hf

end

/-! ## Renames -/

/-- Whether the history of a merge could be linked: the journal has a file name, and the
line was appended. -/
structure HistoryLink where
  journalNamed : Bool
  recorded : Bool

def HistoryLink.holds (link : HistoryLink) : Bool :=
  link.journalNamed && link.recorded

def renameSource (observed : Option SessionInstanceId) (slot : SessionSlot) :
    Option SessionInstanceId :=
  observed.or (slot.identity.map SessionIdentityBinding.sessionInstanceId)

def refusesMerge (source : Option SessionInstanceId) (other : SessionSlot) : Bool :=
  (other.attached || other.watcher.isSome) && !(match source, other.identity with
      | some source, some target => source = target.sessionInstanceId
      | _, _ => false)

/-- The slot at `idx` takes the name over from the slot at `o`, which is retired behind it. -/
def takeOver (slots : Slots) (idx o : Nat) (newName : String) : Slots :=
  let slots := slots.modify o (·.retireAsAlias idx)
  let slots := slots.map (·.retargetAlias o idx)
  slots.modify idx (·.rename newName)

def inheritDuty (slots : Slots) (idx : Nat) (other : SessionSlot) : Slots :=
  if other.persistent then slots.modify idx (·.promotePersistent) else slots

def renameSessionSlotLocked (slots : Slots) (idx : Nat) (newName : String)
    (observed : Option SessionInstanceId) (link : HistoryLink) : Slots :=
  match slots[idx]? with
  | none => slots
  | some slot =>
    if !slot.isCanonical then slots
    else if slot.name = newName then slots
    else
      let source := renameSource observed slot
      match findOther slots idx (·.name = newName) with
      | none => slots.modify idx (·.rename newName)
      | some (other, o) =>
        -- The flag is set before the merge is decided.
        let slots := inheritDuty slots idx other
        if refusesMerge source other then slots
        else if !link.journalNamed then slots
        else if !link.recorded then slots
        else takeOver slots idx o newName

/-! ## Watch requests -/

def watchSession (slots : Slots) (name : String) (stopping ledgerOpens : Bool)
    (link : HistoryLink) : Slots × Except String (Nat × Bool) :=
  if stopping then (slots, .error "daemon_stopping")
  else match sessionIndex slots name with
    | some idx => (slots, .ok (idx, false))
    | none =>
      match slots.findIdx? fun slot => slot.isCanonical && slot.watcher = some name with
      | some idx => (renameSessionSlotLocked slots idx name none link, .ok (idx, false))
      | none =>
        -- A retired slot of that name still owns the writer of its ledger.
        if ledgerOpens || slots.any (fun slot => slot.retired && slot.name = name) then
          (slots ++ [{ name, persistent := false }], .ok (slots.length, true))
        else (slots, .error "internal")

/-! ## Attaches -/

def SessionSlot.publish (slot : SessionSlot) (binding : SessionIdentityBinding) (name : String) :
    SessionSlot :=
  { slot with
    identity := some binding, attached := true, watcher := some name, observedLive := true }

def SessionSlot.owns (slot : SessionSlot) (binding : SessionIdentityBinding) : Bool :=
  slot.attached && slot.identity = some binding

/-- Publish an attached watcher, unless an attached slot already owns the session. -/
def attachSession (slots : Slots) (idx : Nat) (binding : SessionIdentityBinding) (name : String)
    (link : HistoryLink) (published : Bool) : Slots :=
  match slots[idx]? with
  | none => slots
  | some slot =>
    if !slot.isCanonical then slots
    else match findOther slots idx (·.owns binding) with
      | some (_, canonical) =>
        if !link.journalNamed then slots
        else if !link.recorded then slots
        else slots.modify idx (·.retireAsAlias canonical)
      | none => if published then slots.modify idx (·.publish binding name) else slots

/-! ## Detaches and settlements -/

def detachSession (slots : Slots) (idx : Nat) : Slots :=
  slots.modify idx fun slot => { slot with attached := false, watcher := none }

def settleMissing (slots : Slots) (idx : Nat) (targetCurrent : Bool) : Slots :=
  match slots[idx]? with
  | none => slots
  | some slot =>
    if !slot.isCanonical then slots
    else if !targetCurrent then slots
    else if !slot.observedLive then slots
    else slots.modify idx fun slot => { slot with identity := none }.retireIfRuntime

def pruneStale (slots : Slots) (idx : Nat) : Slots :=
  slots.modify idx fun slot =>
    if slot.isCanonical && !slot.attached then slot.retireRuntimeSlot else slot

/-! ## How renames and attaches end -/

section

variable (ss : Slots) (idx : Nat)

/-- Every way to follow a rename. -/
theorem rename_cases (n : String) (observed : Option SessionInstanceId) (link : HistoryLink) :
    (renameSessionSlotLocked ss idx n observed link = ss) ∨
    ∃ slot, ss[idx]? = some slot ∧ slot.isCanonical = true ∧
      ((findOther ss idx (·.name = n) = none ∧
          renameSessionSlotLocked ss idx n observed link = ss.modify idx (·.rename n)) ∨
        ∃ other o, findOther ss idx (·.name = n) = some (other, o) ∧
          ((link.holds && !refusesMerge (renameSource observed slot) other) = false ∧
              renameSessionSlotLocked ss idx n observed link = inheritDuty ss idx other ∨
            (link.holds && !refusesMerge (renameSource observed slot) other) = true ∧
              renameSessionSlotLocked ss idx n observed link =
                takeOver (inheritDuty ss idx other) idx o n)) := by
  cases found : ss[idx]? with
  | none => exact .inl (by simp only [renameSessionSlotLocked, found])
  | some slot =>
    cases canonical : slot.isCanonical with
    | false => exact .inl (by simp [renameSessionSlotLocked, found, canonical])
    | true =>
      by_cases same : slot.name = n
      · exact .inl (by simp [renameSessionSlotLocked, found, same])
      · refine .inr ⟨slot, rfl, canonical, ?_⟩
        cases taken : findOther ss idx (·.name = n) with
        | none =>
          exact .inl ⟨rfl, by simp [renameSessionSlotLocked, found, canonical, same, taken]⟩
        | some pair =>
          obtain ⟨other, o⟩ := pair
          refine .inr ⟨other, o, rfl, ?_⟩
          obtain ⟨j, r⟩ := link
          cases hr : refusesMerge (renameSource observed slot) other <;>
            cases j <;> cases r <;>
            simp [HistoryLink.holds, renameSessionSlotLocked, found, canonical, same, taken, hr]

/-- Every way to end an attach: nothing published, coalesced behind the owner, published. -/
theorem attach_cases (b : SessionIdentityBinding) (name : String) (link : HistoryLink)
    (published : Bool) :
    (attachSession ss idx b name link published = ss) ∨
    ∃ slot, ss[idx]? = some slot ∧ slot.isCanonical = true ∧
      ((∃ owner o, findOther ss idx (·.owns b) = some (owner, o) ∧ link.holds = true ∧
          attachSession ss idx b name link published = ss.modify idx (·.retireAsAlias o)) ∨
        (findOther ss idx (·.owns b) = none ∧ attachSession ss idx b name link published =
            ss.modify idx (·.publish b name))) := by
  cases found : ss[idx]? with
  | none => exact .inl (by simp only [attachSession, found])
  | some slot =>
    cases canonical : slot.isCanonical with
    | false => exact .inl (by simp [attachSession, found, canonical])
    | true =>
      obtain ⟨j, r⟩ := link
      cases ho : findOther ss idx (·.owns b) with
      | none =>
        cases published with
        | false => exact .inl (by simp [attachSession, found, ho])
        | true =>
          exact .inr ⟨slot, rfl, canonical, .inr
            ⟨rfl, by simp [attachSession, found, canonical, ho]⟩⟩
      | some pair =>
        obtain ⟨owner, o⟩ := pair
        cases j with
        | false => exact .inl (by simp [attachSession, found, ho])
        | true =>
          cases r with
          | false => exact .inl (by simp [attachSession, found, ho])
          | true =>
            exact .inr ⟨slot, rfl, canonical, .inl
              ⟨owner, o, rfl, rfl, by simp [attachSession, found, canonical, ho]⟩⟩

end

/-! ## The table over time -/

/-- The operations that change the table. -/
inductive SlotOp where
  | watch (name : String) (stopping ledgerOpens : Bool) (link : HistoryLink)
  | rename (idx : Nat) (name : String) (observed : Option SessionInstanceId) (stopping : Bool)
      (link : HistoryLink)
  | attach (idx : Nat) (binding : SessionIdentityBinding) (name : String) (link : HistoryLink)
      (published : Bool)
  | detach (idx : Nat)
  | settleMissing (idx : Nat) (targetCurrent : Bool)
  | pruneStale (idx : Nat)
  /-- The watcher applies a rename before its event reaches the daemon. -/
  | watcherRenamed (idx : Nat) (name : String)

def Slots.step (slots : Slots) : SlotOp → Slots
  | .watch name stopping ledgerOpens link => (watchSession slots name stopping ledgerOpens link).1
  | .rename idx name observed stopping link =>
    if stopping then slots else renameSessionSlotLocked slots idx name observed link
  | .attach idx binding name link published => attachSession slots idx binding name link published
  | .detach idx => detachSession slots idx
  | .settleMissing idx targetCurrent => Session.settleMissing slots idx targetCurrent
  | .pruneStale idx => Session.pruneStale slots idx
  | .watcherRenamed idx name =>
    slots.modify idx fun slot => { slot with watcher := slot.watcher.map fun _ => name }

def bootFrom (known : List (SessionIdentityBinding × Nat)) (idx : Nat) :
    List (String × Option SessionIdentityBinding) → Slots
  | [] => []
  | (name, none) :: rest => { name, persistent := true } :: bootFrom known (idx + 1) rest
  | (name, some binding) :: rest =>
    match known.lookup binding with
    | some canonical =>
      { name, persistent := true, aliasOf := some canonical } :: bootFrom known (idx + 1) rest
    | none => { name, persistent := true } :: bootFrom (known ++ [(binding, idx)]) (idx + 1) rest

def boot (configured : List (String × Option SessionIdentityBinding)) : Slots :=
  bootFrom [] 0 configured

end Cyclops.Session
