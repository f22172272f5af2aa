import Cyclops.Lib.Runs
import Cyclops.Session.Slots

/-!
# One owner per session

`OneOwner` is what the slot table promises: a name and a live session have at most one canonical
slot, an alias is one hop from the slot that took over, and that slot has inherited the duty to wait
for a configured session.

Result: `careful_runs_keep_one_owner`.
-/

namespace Cyclops.Session

open SessionSlot List Option Slots SlotOp

def OneName (slots : Slots) : Prop :=
  ∀ (i j : Nat) (a b : SessionSlot), slots[i]? = some a → slots[j]? = some b →
    a.isCanonical = true → b.isCanonical = true → a.name = b.name → i = j

def OneAttached (slots : Slots) : Prop :=
  ∀ (i j : Nat) (a b : SessionSlot) (binding : SessionIdentityBinding),
    slots[i]? = some a → slots[j]? = some b → a.isCanonical = true → b.isCanonical = true →
    a.owns binding = true → b.owns binding = true → i = j

def Flat (slots : Slots) : Prop :=
  ∀ (j i : Nat) (a : SessionSlot), slots[j]? = some a → a.aliasOf = some i →
    ∃ b : SessionSlot, slots[i]? = some b ∧ b.aliasOf = none

def Inherits (slots : Slots) : Prop :=
  ∀ (j i : Nat) (a b : SessionSlot), slots[j]? = some a → a.aliasOf = some i →
    slots[i]? = some b → a.persistent = true → b.persistent = true

structure OneOwner (slots : Slots) : Prop where
  names : OneName slots
  owners : OneAttached slots
  flat : Flat slots
  inherits : Inherits slots

variable {slot : SessionSlot}

theorem SessionSlot.isCanonical_iff :
    slot.isCanonical = true ↔ slot.aliasOf = none ∧ slot.retired = false := by
  simp [isCanonical]

@[simp] theorem SessionSlot.isCanonical_rename (slot : SessionSlot) (name : String) :
    (slot.rename name).isCanonical = slot.isCanonical := rfl

@[simp] theorem SessionSlot.name_rename (slot : SessionSlot) (name : String) :
    (slot.rename name).name = name := rfl

/-! ## 1. Updates that do not concern a part -/

def SessionSlot.hop (slot : SessionSlot) : Option Nat × Bool :=
  (slot.aliasOf, slot.persistent)

section

variable {ss ss' : Slots}

/-- An alias points at a slot that is not one and does its duty. -/
def Aims (slots : Slots) : Prop :=
  ∀ (j i : Nat) (a : SessionSlot), slots[j]? = some a → a.aliasOf = some i →
    ∃ b : SessionSlot, slots[i]? = some b ∧ b.aliasOf = none ∧
      (a.persistent = true → b.persistent = true)

theorem OneOwner.aims (hg : OneOwner ss) : Aims ss := by
  intro j i a ha hbe
  obtain ⟨b, hb, root⟩ := hg.flat j i a ha hbe
  exact ⟨b, hb, root, hg.inherits j i a b ha hbe hb⟩

theorem OneOwner.of_aims (names : OneName ss) (owners : OneAttached ss)
    (hai : Aims ss) : OneOwner ss where
  names := names
  owners := owners
  flat j i a ha behind := by
    obtain ⟨b, hb, root, -⟩ := hai j i a ha behind
    exact ⟨b, hb, root⟩
  inherits j i a b ha behind hb := by
    obtain ⟨b', hb', -, hd⟩ := hai j i a ha behind
    cases hb.symm.trans hb'
    exact hd

theorem OneName.of_canonical (h : OneName ss)
    (old : ∀ (j : Nat) (new : SessionSlot), ss'[j]? = some new → new.isCanonical = true →
      ∃ old, ss[j]? = some old ∧ old.isCanonical = true ∧ new.name = old.name) :
    OneName ss' := by
  intro i j a b ha hb ca cb hs
  obtain ⟨a₀, ha₀, ca₀, na⟩ := old i a ha ca
  obtain ⟨b₀, hb₀, cb₀, nb⟩ := old j b hb cb
  exact h i j a₀ b₀ ha₀ hb₀ ca₀ cb₀ (na.symm.trans (hs.trans nb))

theorem OneAttached.of_canonical (h : OneAttached ss)
    (old : ∀ (j : Nat) (new : SessionSlot) (bd : SessionIdentityBinding),
      ss'[j]? = some new → new.isCanonical = true → new.owns bd = true →
      ∃ old, ss[j]? = some old ∧ old.isCanonical = true ∧ old.owns bd = true) :
    OneAttached ss' := by
  intro i j a b bd ha hb ca cb oa ob
  obtain ⟨a₀, ha₀, ca₀, ho⟩ := old i a bd ha ca oa
  obtain ⟨b₀, hb₀, cb₀, ob₀⟩ := old j b bd hb cb ob
  exact h i j a₀ b₀ bd ha₀ hb₀ ca₀ cb₀ ho ob₀

theorem hop_of_map (hs : ss'.map hop = ss.map hop) {j : Nat}
    {a : SessionSlot} (found : ss'[j]? = some a) :
    ∃ old, ss[j]? = some old ∧ old.aliasOf = a.aliasOf ∧ old.persistent = a.persistent := by
  have hop := congrArg (fun ho => ho[j]?) hs
  simp only [getElem?_map, found] at hop
  obtain ⟨old, h, eq⟩ := map_eq_some_iff.mp hop.symm
  exact ⟨old, h, congrArg (·.1) eq, congrArg (·.2) eq⟩

theorem Aims.of_hops (h : Aims ss) (hs : ss'.map hop = ss.map hop) : Aims ss' := by
  intro j i a ha hbe
  obtain ⟨a₀, ha₀, alias₀, pa⟩ := hop_of_map hs ha
  obtain ⟨b₀, hb₀, root, hd⟩ := h j i a₀ ha₀ (alias₀.trans hbe)
  obtain ⟨b, hb, eq, pb⟩ := hop_of_map hs.symm hb₀
  exact ⟨b, hb, eq.trans root, fun hp => pb.trans (hd (pa.trans hp))⟩

end

section

variable {ss : Slots} {idx : Nat} {f : SessionSlot → SessionSlot}

theorem modify_origin {j : Nat} {new : SessionSlot} (hf : (ss.modify idx f)[j]? = some new) :
    ∃ old, ss[j]? = some old ∧ (j ≠ idx ∧ new = old ∨ j = idx ∧ new = f old) := by
  rw [getElem?_modify] at hf
  obtain ⟨old, h, rfl⟩ := map_eq_some_iff.mp hf
  refine ⟨old, h, ?_⟩
  by_cases hs : idx = j
  · exact .inr ⟨hs.symm, if_pos hs⟩
  · exact .inl ⟨.symm hs, if_neg hs⟩

theorem OneName.modify (h : OneName ss) (hk : ∀ slot, (f slot).isCanonical = true →
    slot.isCanonical = true ∧ (f slot).name = slot.name) : OneName (ss.modify idx f) := by
  refine h.of_canonical fun j new hf active => ?_
  obtain ⟨old, h, ⟨-, rfl⟩ | ⟨-, rfl⟩⟩ := modify_origin hf
  · exact ⟨_, h, active, rfl⟩
  · exact ⟨old, h, hk old active⟩

theorem OneAttached.modify (h : OneAttached ss)
    (hk : ∀ slot b, (f slot).isCanonical = true → (f slot).owns b = true →
      slot.isCanonical = true ∧ slot.owns b = true) : OneAttached (ss.modify idx f) := by
  refine h.of_canonical fun j new b hf active ho => ?_
  obtain ⟨old, h, ⟨-, rfl⟩ | ⟨-, rfl⟩⟩ := modify_origin hf
  · exact ⟨_, h, active, ho⟩
  · exact ⟨old, h, hk old b active ho⟩

theorem map_modify_eq {α : Type} {g : SessionSlot → α}
    (hs : ∀ slot, ss[idx]? = some slot → g (f slot) = g slot) :
    (ss.modify idx f).map g = ss.map g := by
  apply ext_getElem?
  intro j
  simp only [getElem?_map, getElem?_modify]
  cases h : ss[j]? with
  | none => rfl
  | some slot =>
    simp only [Option.map_eq_map, map_some, some.injEq]
    split
    · rename_i eq
      exact hs slot (eq ▸ h)
    · rfl

theorem OneOwner.fade (hg : OneOwner ss)
    (name : ∀ slot, (f slot).name = slot.name) (hop : ∀ slot, (f slot).hop = slot.hop)
    (hc : ∀ slot, (f slot).isCanonical = true → slot.isCanonical = true)
    (how : ∀ slot b, (f slot).owns b = true → slot.owns b = true) :
    OneOwner (ss.modify idx f) :=
  .of_aims (hg.names.modify fun slot ha => ⟨hc slot ha, name slot⟩)
    (hg.owners.modify fun slot b ha ho =>
      ⟨hc slot ha, how slot b ho⟩)
    (hg.aims.of_hops (map_modify_eq fun slot _ => hop slot))

end

/-! ## 2. Publications, renames and merges -/

section

variable {ss : Slots} {idx o : Nat} {slot other : SessionSlot} {name : String}

theorem OneOwner.publish (hg : OneOwner ss) {bd : SessionIdentityBinding}
    (hf : findOther ss idx (·.owns bd) = none) :
    OneOwner (ss.modify idx (·.publish bd name)) := by
  refine .of_aims (hg.names.modify fun _ hac => ⟨hac, rfl⟩) ?_
    (hg.aims.of_hops (map_modify_eq fun _ _ => rfl))
  have hm : ∀ (slot : SessionSlot) b, (slot.publish bd name).owns b = true →
      b = bd := fun slot b ho => by
    simpa [SessionSlot.publish, SessionSlot.owns, eq_comm] using ho
  intro i j a b t ha hb ca cb oa ob
  obtain ⟨a₀, ha₀, ⟨ne, rfl⟩ | ⟨rfl, rfl⟩⟩ := modify_origin ha <;>
    obtain ⟨b₀, hb₀, ⟨ne', rfl⟩ | ⟨rfl, rfl⟩⟩ := modify_origin hb
  · exact hg.owners i j a b t ha₀ hb₀ ca cb oa ob
  · cases hm b₀ t ob
    rw [findOther_eq_none hf ha₀ ne ca] at oa
    cases oa
  · cases hm a₀ t oa
    rw [findOther_eq_none hf hb₀ ne' cb] at ob
    cases ob
  · rfl

theorem OneOwner.rename (hg : OneOwner ss) (hf : findOther ss idx (·.name = name) = none) :
    OneOwner (ss.modify idx (·.rename name)) := by
  refine .of_aims ?_ (hg.owners.modify fun _ _ hac ho => ⟨hac, ho⟩)
    (hg.aims.of_hops (map_modify_eq fun _ _ => rfl))
  intro i j a b ha hb ca cb hs
  obtain ⟨a₀, ha₀, ⟨ne, rfl⟩ | ⟨rfl, rfl⟩⟩ := modify_origin ha <;>
    obtain ⟨b₀, hb₀, ⟨ne', rfl⟩ | ⟨rfl, rfl⟩⟩ := modify_origin hb
  · exact hg.names i j a b ha₀ hb₀ ca cb hs
  · exact absurd hs (of_decide_eq_false (findOther_eq_none hf ha₀ ne ca))
  · exact absurd hs.symm (of_decide_eq_false (findOther_eq_none hf hb₀ ne' cb))
  · rfl

/-- A slot that no alias points at can be retired behind a canonical slot that does its
duty. -/
theorem OneOwner.coalesce (hg : OneOwner ss) (hf : ss[idx]? = some slot)
    (hc : slot.isCanonical = true) (how : ss[o]? = some other) (ne : o ≠ idx)
    (active : other.isCanonical = true) (hd : slot.persistent = true → other.persistent = true)
    (hu : ∀ a ∈ ss, a.aliasOf ≠ some idx) :
    OneOwner (ss.modify idx (·.retireAsAlias o)) := by
  have hs := (isCanonical_iff.mp hc).1
  have otherNone := (isCanonical_iff.mp active).1
  have hr : slot.retireAsAlias o = { slot with aliasOf := some o } := by
    simp [retireAsAlias, hs]
  have ho : ∀ {j : Nat} {new : SessionSlot}, (ss.modify idx (·.retireAsAlias o))[j]? = some new →
      (j ≠ idx ∧ ss[j]? = some new) ∨ (j = idx ∧ new = { slot with aliasOf := some o }) := by
    intro j new h
    obtain ⟨old, h₀, ⟨ne, rfl⟩ | ⟨rfl, rfl⟩⟩ := modify_origin h
    · exact .inl ⟨ne, h₀⟩
    · rw [hf] at h₀
      cases h₀
      exact .inr ⟨rfl, hr⟩
  have hk : ∀ {i : Nat}, i ≠ idx → (ss.modify idx (·.retireAsAlias o))[i]? = ss[i]? := by
    intro i ne
    simp [Ne.symm ne]
  refine .of_aims (hg.names.of_canonical fun j new h active => ?_)
    (hg.owners.of_canonical fun j new bd h active how => ?_) fun j i a ha hbe => ?_
  · obtain ⟨-, h₀⟩ | ⟨-, rfl⟩ := ho h
    · exact ⟨new, h₀, active, rfl⟩
    · cases active
  · obtain ⟨-, h₀⟩ | ⟨-, rfl⟩ := ho h
    · exact ⟨new, h₀, active, how⟩
    · cases active
  · obtain ⟨-, ha₀⟩ | ⟨-, rfl⟩ := ho ha
    · obtain ⟨b, hb, hai⟩ := hg.aims j i a ha₀ hbe
      have hn : i ≠ idx := fun eq => hu a (mem_of_getElem? ha₀) (eq ▸ hbe)
      exact ⟨b, (hk hn).trans hb, hai⟩
    · cases hbe
      exact ⟨other, (hk ne).trans how, otherNone, hd⟩

theorem OneOwner.promote (hg : OneOwner ss) (hf : ss[idx]? = some slot)
    (hc : slot.isCanonical = true) :
    OneOwner (ss.modify idx (·.promotePersistent)) := by
  refine .of_aims (hg.names.modify fun _ hac => ⟨hac, rfl⟩)
    (hg.owners.modify fun _ _ hac ho => ⟨hac, ho⟩) fun j i a ha hbe => ?_
  obtain ⟨a₀, ha₀, ⟨-, rfl⟩ | ⟨rfl, rfl⟩⟩ := modify_origin ha
  · obtain ⟨b, hb, root, hd⟩ := hg.aims j i _ ha₀ hbe
    by_cases hs : i = idx
    · subst hs
      exact ⟨b.promotePersistent, by simp [hb], root, fun _ => rfl⟩
    · exact ⟨b, by simp [Ne.symm hs, hb], root, hd⟩
  · -- The promoted slot is canonical, not an alias.
    rw [hf] at ha₀
    cases ha₀
    cases (isCanonical_iff.mp hc).1.symm.trans hbe

theorem takeOver_origin (hf : ss[idx]? = some slot) (hc : slot.isCanonical = true)
    (ht : ss[o]? = some other) (ne : o ≠ idx) (ha : other.isCanonical = true)
    {j : Nat} {new : SessionSlot} (h : (takeOver ss idx o name)[j]? = some new) :
    (j = idx ∧ new = slot.rename name) ∨
    (j = o ∧ new = { other with aliasOf := some idx }) ∨
    (j ≠ idx ∧ j ≠ o ∧ ∃ old, ss[j]? = some old ∧ new = old.retargetAlias o idx) := by
  have hs := (isCanonical_iff.mp hc).1
  have otherNone := (isCanonical_iff.mp ha).1
  obtain ⟨m, hm, hl⟩ := modify_origin h
  rw [getElem?_map] at hm
  obtain ⟨r, hr, rfl⟩ := map_eq_some_iff.mp hm
  obtain ⟨old, h₀, first⟩ := modify_origin hr
  obtain ⟨hn, rfl⟩ | ⟨rfl, rfl⟩ := hl
  · obtain ⟨notO, rfl⟩ | ⟨rfl, rfl⟩ := first
    · exact .inr (.inr ⟨hn, notO, _, h₀, rfl⟩)
    · rw [ht] at h₀
      cases h₀
      refine .inr (.inl ⟨rfl, ?_⟩)
      simp [retireAsAlias, retargetAlias, otherNone]
  · obtain ⟨-, rfl⟩ | ⟨rfl, rfl⟩ := first
    · rw [hf] at h₀
      cases h₀
      exact .inl ⟨rfl, by simp [retargetAlias, hs]⟩
    · exact absurd rfl ne

theorem takeOver_getElem? (n : String) {i : Nat} (hn : i ≠ o) {b : SessionSlot}
    (h : ss[i]? = some b) (hr : b.aliasOf = none) :
    (takeOver ss idx o n)[i]? = some (if i = idx then b.rename n else b) := by
  have hs : b.retargetAlias o idx = b := by simp [retargetAlias, hr]
  by_cases same : i = idx
  · subst same
    simp [takeOver, h, Ne.symm hn, hs]
  · simp [takeOver, h, Ne.symm hn, Ne.symm same, same, hs]

theorem SessionSlot.retargetAlias_eq (slot : SessionSlot) (p c : Nat) : slot.aliasOf = some p ∧
      slot.retargetAlias p c = { slot with aliasOf := some c } ∨
    slot.aliasOf ≠ some p ∧ slot.retargetAlias p c = slot := by
  by_cases h : slot.aliasOf = some p
  · exact .inl ⟨h, if_pos h⟩
  · exact .inr ⟨h, if_neg h⟩

theorem OneOwner.takeOver (hg : OneOwner ss) (found : ss[idx]? = some slot)
    (canonical : slot.isCanonical = true) (ht : ss[o]? = some other) (ne : o ≠ idx)
    (active : other.isCanonical = true) (hna : other.name = name)
    (hd : other.persistent = true → slot.persistent = true) :
    OneOwner (takeOver ss idx o name) := by
  have slotNone := (isCanonical_iff.mp canonical).1
  have ho := @takeOver_origin ss idx o slot other name found canonical ht ne active
  have winner : (Session.takeOver ss idx o name)[idx]? = some (slot.rename name) := by
    rw [takeOver_getElem? name (Ne.symm ne) found slotNone, if_pos rfl]
  -- A slot that stays canonical was canonical and is neither of the two, or is the winner.
  have hst : ∀ {j : Nat} {new : SessionSlot},
      (Session.takeOver ss idx o name)[j]? = some new → new.isCanonical = true →
      (j = idx ∧ new = slot.rename name) ∨ (j ≠ idx ∧ j ≠ o ∧ ss[j]? = some new) := by
    intro j new h active
    obtain hw | ⟨-, rfl⟩ | ⟨hno, notO, old, h₀, rfl⟩ := ho h
    · exact .inl hw
    · cases active
    · obtain ⟨-, eq⟩ | ⟨-, eq⟩ := old.retargetAlias_eq o idx
      · rw [eq] at active
        cases active
      · exact .inr ⟨hno, notO, eq.symm ▸ h₀⟩
  have hf : ∀ {j : Nat} {b : SessionSlot}, ss[j]? = some b → b.isCanonical = true →
      j ≠ o → b.name ≠ name := fun h ha' notO hs =>
    notO (hg.names _ _ _ _ h ht ha' active (hs.trans hna.symm))
  refine .of_aims ?_ (hg.owners.of_canonical fun j new bd h active how => ?_) fun j i a ha hbe => ?_
  · intro i j a b ha hb ca cb hs
    obtain ⟨rfl, rfl⟩ | ⟨-, notO, ha₀⟩ := hst ha ca <;>
      obtain ⟨rfl, rfl⟩ | ⟨-, notO', hb₀⟩ := hst hb cb
    · rfl
    · exact absurd hs.symm (hf hb₀ cb notO')
    · exact absurd hs (hf ha₀ ca notO)
    · exact hg.names i j a b ha₀ hb₀ ca cb hs
  · obtain ⟨rfl, rfl⟩ | ⟨-, -, h₀⟩ := hst h active
    · exact ⟨slot, found, canonical, how⟩
    · exact ⟨new, h₀, active, how⟩
  · obtain ⟨-, rfl⟩ | ⟨-, rfl⟩ | ⟨-, -, old, h₀, rfl⟩ := ho ha
    · cases slotNone.symm.trans hbe
    · cases hbe
      exact ⟨_, winner, slotNone, hd⟩
    · obtain ⟨hai, eq⟩ | ⟨hn, eq⟩ := old.retargetAlias_eq o idx
      all_goals rw [eq] at hbe ⊢
      · cases hbe
        have hi := hg.inherits j o old other h₀ hai ht
        exact ⟨_, winner, slotNone, fun hp => hd (hi hp)⟩
      · obtain ⟨b, hb, root, hi⟩ := hg.aims j i old h₀ hbe
        have notO : i ≠ o := fun hs => hn (hs ▸ hbe)
        refine ⟨_, takeOver_getElem? name notO hb root, ?_⟩
        split <;> exact ⟨root, hi⟩

theorem push_origin {j : Nat} {new : SessionSlot} (h : (ss ++ [slot])[j]? = some new) :
    ss[j]? = some new ∨ (j = ss.length ∧ new = slot) := by
  rw [getElem?_append] at h
  split at h
  · exact .inl h
  · rw [getElem?_singleton] at h
    split at h
    · cases h
      exact .inr ⟨by omega, rfl⟩
    · cases h

theorem push_getElem? {i : Nat} {b : SessionSlot} (h : ss[i]? = some b) :
    (ss ++ [slot])[i]? = some b := by
  rw [getElem?_append_left (List.getElem?_eq_some_iff.mp h).1, h]

theorem Flat.push (h : Flat ss)
    (hr : ∀ i, slot.aliasOf = some i → ∃ b, ss[i]? = some b ∧ b.aliasOf = none) :
    Flat (ss ++ [slot]) := by
  intro j i a ha hbe
  have ho : ∃ b, ss[i]? = some b ∧ b.aliasOf = none := by
    obtain ha₀ | ⟨-, rfl⟩ := push_origin ha
    · exact h j i a ha₀ hbe
    · exact hr i hbe
  obtain ⟨b, hb, none⟩ := ho
  exact ⟨b, push_getElem? hb, none⟩

theorem OneOwner.push (hg : OneOwner ss) (hf : sessionIndex ss name = none) :
    OneOwner (ss ++ [{ name, persistent := false }]) := by
  refine .of_aims ?_ (hg.owners.of_canonical fun j new bd h active ho => ?_) fun j i a ha hbe => ?_
  · intro i j a b ha hb ca cb hs
    obtain ha₀ | ⟨rfl, rfl⟩ := push_origin ha <;> obtain hb₀ | ⟨rfl, rfl⟩ := push_origin hb
    · exact hg.names i j a b ha₀ hb₀ ca cb hs
    · exact absurd hs (sessionIndex_eq_none hf ha₀ ca)
    · exact absurd hs.symm (sessionIndex_eq_none hf hb₀ cb)
    · rfl
  · obtain h₀ | ⟨-, rfl⟩ := push_origin h
    · exact ⟨new, h₀, active, ho⟩
    · cases ho
  · obtain ha₀ | ⟨-, rfl⟩ := push_origin ha
    · obtain ⟨b, hb, hai⟩ := hg.aims j i a ha₀ hbe
      exact ⟨b, push_getElem? hb, hai⟩
    · cases hbe

end

/-! ## 3. One step -/

def SlotOp.careful (slots : Slots) : SlotOp → Bool
  | .rename idx name observed stopping link =>
    stopping || (slots[idx]?).all fun slot =>
      (findOther slots idx (·.name = name)).all fun other =>
        slot.persistent || !other.1.persistent ||
          (link.holds && !refusesMerge (renameSource observed slot) other.1)
  | .attach idx binding _ link _ =>
    (slots[idx]?).all fun slot =>
      (findOther slots idx (·.owns binding)).all fun owner =>
        !link.holds || ((!slot.persistent || owner.1.persistent) &&
          slots.all fun aimed => aimed.aliasOf ≠ some idx)
  | _ => true

theorem OneOwner.inheritDuty {s : Slots} {idx : Nat} {other : SessionSlot}
    (hg : OneOwner s) (hf : s[idx]? = some slot) (hc : slot.isCanonical = true) :
    OneOwner (inheritDuty s idx other) := by
  unfold Session.inheritDuty
  split
  · exact hg.promote hf hc
  · exact hg

theorem inheritDuty_getElem? {s : Slots} {idx : Nat} (other : SessionSlot)
    (found : s[idx]? = some slot) :
    (∃ he, (inheritDuty s idx other)[idx]? = some he ∧ he.isCanonical = slot.isCanonical ∧
      (other.persistent = true → he.persistent = true)) ∧
    ∀ i, i ≠ idx → (inheritDuty s idx other)[i]? = s[i]? := by
  unfold Session.inheritDuty
  split
  · refine ⟨⟨slot.promotePersistent, by simp [found], rfl, fun _ => rfl⟩, fun i ne => ?_⟩
    simp [Ne.symm ne]
  · rename_i runtime
    exact ⟨⟨slot, found, rfl, fun h => absurd h runtime⟩, fun _ _ => rfl⟩

section

variable {ss : Slots}

theorem OneOwner.renamed (hg : OneOwner ss) (idx : Nat) (name : String)
    (observed : Option SessionInstanceId) (link : HistoryLink) :
    OneOwner (renameSessionSlotLocked ss idx name observed link) := by
  obtain eq | ⟨slot, found, canonical, ⟨hf, eq⟩ | ⟨other, o, taken, ⟨-, eq⟩ | ⟨-, eq⟩⟩⟩ :=
    rename_cases ss idx name observed link
  all_goals rw [eq]
  · exact hg
  · exact hg.rename hf
  · exact hg.inheritDuty found canonical
  · obtain ⟨h, ne, active, hn⟩ := findOther_eq_some taken
    obtain ⟨⟨he, hh, same, hd⟩, hk⟩ := inheritDuty_getElem? other found
    exact (hg.inheritDuty found canonical).takeOver hh (same.trans canonical)
      ((hk o ne).trans h) ne active (of_decide_eq_true hn) hd

theorem OneOwner.watched (hg : OneOwner ss) (name : String) (s l : Bool)
    (link : HistoryLink) : OneOwner (watchSession ss name s l link).1 := by
  unfold watchSession
  split
  · exact hg
  · split
    · exact hg
    · rename_i free
      split
      · exact hg.renamed _ _ _ _
      · split
        · exact hg.push free
        · exact hg

variable {link : HistoryLink} {idx : Nat} {name : String}

theorem OneOwner.attached (hg : OneOwner ss) {b : SessionIdentityBinding} {p : Bool}
    (hc : (attach idx b name link p).careful ss = true) :
    OneOwner (attachSession ss idx b name link p) := by
  obtain eq | ⟨slot, found, canonical, ⟨owner, o, owned, linked, eq⟩ | ⟨hf, eq⟩⟩ :=
    attach_cases ss idx b name link p
  all_goals rw [eq]
  · exact hg
  · obtain ⟨h, ne, active, -⟩ := findOther_eq_some owned
    have hca : (slot.persistent = true → owner.persistent = true) ∧
        ∀ a ∈ ss, a.aliasOf ≠ some idx := by
      simpa [careful, found, owned, linked, imp_iff_not_or] using hc
    exact hg.coalesce found canonical h ne active hca.1 hca.2
  · exact hg.publish hf

theorem OneOwner.retire (good : OneOwner ss) (idx : Nat) {f : SessionSlot → SessionSlot}
    (retires : ∀ slot, ∃ identity retired, f slot = { slot with identity, retired } ∧
      (identity = slot.identity ∨ identity = none) ∧
      (retired = slot.retired ∨ retired = true)) :
    OneOwner (ss.modify idx f) := by
  refine good.fade (fun slot => ?_) (fun slot => ?_) (fun slot h => ?_) fun slot binding h => ?_
  all_goals obtain ⟨identity, retired, eq, seen, gone⟩ := retires slot
  · rw [eq]
  · rw [eq]
    rfl
  · rw [eq] at h
    obtain rfl | rfl := gone
    · exact h
    · simp [isCanonical] at h
  · rw [eq] at h
    obtain rfl | rfl := seen
    · exact h
    · simp [owns] at h

theorem OneOwner.settled (good : OneOwner ss) (idx : Nat) (targetCurrent : Bool) :
    OneOwner (settleMissing ss idx targetCurrent) := by
  have retires : ∀ slot : SessionSlot, ∃ identity retired,
      { slot with identity := none }.retireIfRuntime = { slot with identity, retired } ∧
      (identity = slot.identity ∨ identity = none) ∧
      (retired = slot.retired ∨ retired = true) := by
    intro slot
    unfold retireIfRuntime
    split
    · exact ⟨none, slot.retired, rfl, .inr rfl, .inl rfl⟩
    · exact ⟨none, true, rfl, .inr rfl, .inr rfl⟩
  unfold settleMissing
  repeat' split
  all_goals first | exact good | exact good.retire idx retires

theorem OneOwner.pruned (hg : OneOwner ss) (idx : Nat) : OneOwner (pruneStale ss idx) := by
  refine hg.retire idx fun slot => ?_
  unfold retireRuntimeSlot
  split
  · split
    · exact ⟨slot.identity, slot.retired, rfl, .inl rfl, .inl rfl⟩
    · exact ⟨slot.identity, true, rfl, .inl rfl, .inr rfl⟩
  · exact ⟨slot.identity, slot.retired, rfl, .inl rfl, .inl rfl⟩

theorem OneOwner.step (hg : OneOwner ss) (op : SlotOp) (hc : op.careful ss = true) :
    OneOwner (ss.step op) := by
  cases op with
  | watch name s l link => exact hg.watched name s l link
  | rename idx name observed s link =>
    cases s with
    | true => exact hg
    | false => exact hg.renamed idx name observed link
  | attach => exact hg.attached hc
  | detach =>
    exact hg.fade (fun _ => rfl) (fun _ => rfl) (fun _ => id) fun _ _ h => by simp [owns] at h
  | settleMissing idx t => exact hg.settled idx t
  | pruneStale idx => exact hg.pruned idx
  | watcherRenamed =>
    exact hg.fade (fun _ => rfl) (fun _ => rfl) (fun _ => id) fun _ _ => id

/-! A step that is refused registers nothing. -/

def SessionSlot.registration (slot : SessionSlot) : String × Bool × Option Nat :=
  (slot.name, slot.persistent, slot.aliasOf)

/-- The request did not get what it asked for: no slot for the watch, the name not
followed, the slot not merged. -/
def SlotOp.refused (slots : Slots) (op : SlotOp) : Bool :=
  match op with
  | .watch name stopping ledgerOpens link =>
    (watchSession slots name stopping ledgerOpens link).2.isOk = false
  | .rename idx name _ _ _ =>
    !((slots.step op)[idx]?.any fun slot => slot.isCanonical && slot.name = name)
  | .attach idx _ _ _ _ =>
    (slots.step op)[idx]?.map aliasOf = slots[idx]?.map aliasOf
  | _ => false

theorem refused_rename_keeps {observed : Option SessionInstanceId}
    (hc : (rename idx name observed false link).careful ss = true)
    (hr : (rename idx name observed false link).refused ss = true) :
    (renameSessionSlotLocked ss idx name observed link).map registration = ss.map registration := by
  simp only [refused, step] at hr
  obtain eq | ⟨slot, found, canonical, ⟨hfr, eq⟩ | ⟨other, o, taken, ⟨hf, eq⟩ | ⟨-, eq⟩⟩⟩ :=
    rename_cases ss idx name observed link
  all_goals rw [eq] at hr ⊢
  · simp [found, canonical] at hr
  · have hd : slot.persistent = true ∨ other.persistent = false := by
      simpa [careful, found, taken, hf] using hc
    unfold inheritDuty
    split
    · rename_i configured
      refine map_modify_eq fun slot' hf' => ?_
      rw [found] at hf'
      cases hf'
      obtain hp | hru := hd
      · simp [registration, promotePersistent, hp]
      · rw [hru] at configured
        cases configured
    · rfl
  · obtain ⟨-, ne, -, -⟩ := findOther_eq_some taken
    obtain ⟨⟨he, hh, same, -⟩, -⟩ := inheritDuty_getElem? other found
    have ha := same.trans canonical
    have hw := @takeOver_getElem? _ idx o name idx (.symm ne) he hh (isCanonical_iff.mp ha).1
    simp [hw, ha] at hr

theorem refused_watch_keeps {s l : Bool} (hr : (watch name s l link).refused ss = true) :
    (watchSession ss name s l link).1 = ss := by
  simp only [refused] at hr
  revert hr
  unfold watchSession
  split
  · exact fun _ => rfl
  · split
    · exact fun _ => rfl
    · split
      · nofun
      · split
        · nofun
        · exact fun _ => rfl

theorem refused_keeps_registration (op : SlotOp) (hc : op.careful ss = true)
    (hr : op.refused ss = true) :
    (ss.step op).map registration = ss.map registration := by
  cases op with
  | watch =>
    exact congrArg (map registration) (refused_watch_keeps hr)
  | rename idx name observed s =>
    cases s with
    | true => rfl
    | false => exact refused_rename_keeps hc hr
  | attach idx b name link p =>
    have hu : (attachSession ss idx b name link p)[idx]?.map
        aliasOf = ss[idx]?.map aliasOf := of_decide_eq_true hr
    obtain eq | ⟨slot, found, canonical, ⟨owner, o, -, -, eq⟩ | ⟨-, eq⟩⟩ :=
      attach_cases ss idx b name link p
    all_goals
      rw [step]
      rw [eq] at hu ⊢
    · have hro := (isCanonical_iff.mp canonical).1
      simp [found, retireAsAlias, hro] at hu
    · exact map_modify_eq fun _ _ => rfl
  | detach | settleMissing | pruneStale | watcherRenamed => cases hr

end

/-! ## 4. Whole runs -/

section

variable {k : List (SessionIdentityBinding × Nat)}

theorem bootFrom_fresh (c : List (String × Option SessionIdentityBinding)) (idx : Nat) :
    ∀ slot ∈ bootFrom k idx c, slot.persistent = true ∧ slot.attached = false := by
  induction c generalizing k idx with
  | nil => nofun
  | cons first rest ih =>
    obtain ⟨name, b⟩ := first
    cases b with
    | none => simpa [bootFrom] using ih (idx + 1)
    | some =>
      simp only [bootFrom]
      split
      · simpa using ih (idx + 1)
      · simpa using ih (idx + 1)

theorem bootFrom_flat (c : List (String × Option SessionIdentityBinding)) {front : Slots}
    (hf : Flat front)
    (first : ∀ bd i, (bd, i) ∈ k → ∃ b, front[i]? = some b ∧ b.aliasOf = none) :
    Flat (front ++ bootFrom k front.length c) := by
  induction c generalizing k front with
  | nil => simpa [bootFrom] using hf
  | cons e rest ih =>
    -- One more slot in front of the rest.
    have hp : ∀ (slot : SessionSlot) (k' : List (SessionIdentityBinding × Nat)),
        (∀ i, slot.aliasOf = some i → ∃ b, front[i]? = some b ∧ b.aliasOf = none) →
        (∀ bd i, (bd, i) ∈ k' → ∃ b, (front ++ [slot])[i]? = some b ∧ b.aliasOf = none) →
        Flat (front ++ slot :: bootFrom k' (front.length + 1) rest) := by
      intro slot k' hr hf'
      have h := ih (hf.push hr) hf'
      rwa [length_append, length_singleton, append_assoc] at h
    have hl : ∀ slot bd i, (bd, i) ∈ k →
        ∃ b, (front ++ [slot])[i]? = some b ∧ b.aliasOf = none := by
      intro slot bd i hm
      obtain ⟨b, hb, hr⟩ := first bd i hm
      exact ⟨b, push_getElem? hb, hr⟩
    obtain ⟨name, bd⟩ := e
    cases bd with
    | none => exact hp _ k (fun i hbe => by cases hbe) (hl _)
    | some bd =>
      simp only [bootFrom]
      split
      · rename_i canonical hs
        refine hp _ k (fun i hbe => ?_) (hl _)
        cases hbe
        obtain ⟨bef, after, rfl, -⟩ := lookup_eq_some_iff.mp hs
        exact first bd canonical (by simp)
      · refine hp _ _ (fun i hbe => by cases hbe) fun b' i hm => ?_
        obtain hm | eq := mem_append.mp hm
        · exact hl _ b' i hm
        · cases mem_singleton.mp eq
          exact ⟨{ name, persistent := true }, by simp, rfl⟩

end

theorem OneOwner.boot {c : List (String × Option SessionIdentityBinding)}
    (hdi : OneName (boot c)) : OneOwner (boot c) where
  names := hdi
  owners := by
    intro i j a b bd ha _ _ _ ho
    have hd := (bootFrom_fresh c 0 a (mem_of_getElem? ha)).2
    simp [SessionSlot.owns, hd] at ho
  flat := @bootFrom_flat [] c [] (fun _ _ _ ha => by cases ha) fun _ _ hm => by cases hm
  inherits := by
    intro j i a b _ _ hb _
    exact (bootFrom_fresh c 0 b (mem_of_getElem? hb)).1

/-- Careful runs from distinct names keep one owner per session. -/
theorem careful_runs_keep_one_owner
    (configured : List (String × Option SessionIdentityBinding)) (ops : List SlotOp)
    (distinct : OneName (boot configured))
    (careful : Runs.Along step (fun slots op => op.careful slots = true) (boot configured) ops) :
    OneOwner (ops.foldl step (boot configured)) ∧
    ∀ op : SlotOp, op.careful (ops.foldl step (boot configured)) = true →
      op.refused (ops.foldl step (boot configured)) = true →
      ((ops.foldl step (boot configured)).step op).map registration =
        (ops.foldl step (boot configured)).map registration :=
  ⟨careful.invariant OneOwner (fun _ op good ok => good.step op ok) (.boot distinct),
    fun op ok refused => refused_keeps_registration op ok refused⟩

/-! The runs below are about one live session that several slots meet. -/

def liveSession : SessionIdentityBinding := ⟨"$1", ⟨⟨1, Uuid.one_ne_zero⟩⟩⟩

def otherSession : SessionIdentityBinding := ⟨"$2", ⟨⟨2, Uuid.two_ne_zero⟩⟩⟩

def linked : HistoryLink := ⟨true, true⟩

def renamedOntoConfigured : List SlotOp :=
  [.watch "scratch" false true linked, .attach 1 liveSession "scratch" linked true,
    .rename 1 "work" none false linked]

theorem renamed_onto_configured_keeps_one_owner :
    OneOwner (renamedOntoConfigured.foldl step (boot [("work", none)])) := by
  refine (careful_runs_keep_one_owner [("work", none)] renamedOntoConfigured ?_ (by decide)).1
  intro i j a b ha hb _ _ _
  have ho : ∀ {i : Nat} {a : SessionSlot}, (boot [("work", none)])[i]? = some a → i = 0 := by
    intro i a h
    obtain ⟨lt, -⟩ := List.getElem?_eq_some_iff.mp h
    exact Nat.lt_one_iff.mp lt
  rw [ho ha, ho hb]

def twoLiveSessions : List SlotOp :=
  [.attach 0 otherSession "work" linked true, .watch "scratch" false true linked,
    .attach 1 liveSession "scratch" linked true]

def coalescedOwner : List SlotOp :=
  renamedOntoConfigured ++ [.detach 1, .watch "late" false true linked,
    .attach 2 liveSession "late" linked true, .attach 1 liveSession "work" linked true]

def coalescedConfigured : List SlotOp :=
  [.watch "late" false true linked, .attach 1 liveSession "late" linked true,
    .attach 0 liveSession "work" linked true]

/-- Four ways to lose one owner per session. -/
theorem careless_runs_lose_one_owner :
    ((rename 1 "work" none false linked).refused
        (twoLiveSessions.foldl step (boot [("work", none)])) = true ∧
      ((twoLiveSessions.foldl step (boot [("work", none)])).step
          (.rename 1 "work" none false linked)).map registration ≠
        (twoLiveSessions.foldl step (boot [("work", none)])).map registration) ∧
    ¬ Flat (coalescedOwner.foldl step (boot [("work", none)])) ∧
    ¬ Inherits (coalescedConfigured.foldl step (boot [("work", none)])) ∧
    ¬ OneName (boot [("work", some liveSession), ("work", none)]) := by
  refine ⟨by decide, fun hf => ?_, fun hi => ?_, fun hn => ?_⟩
  · have hai : (coalescedOwner.foldl .step (boot [("work", none)]))[0]?.map
        aliasOf = some (some 1) := by decide
    have hal : (coalescedOwner.foldl .step (boot [("work", none)]))[1]?.map
        aliasOf = some (some 2) := by decide
    obtain ⟨a, ha, hbe⟩ := map_eq_some_iff.mp hai
    obtain ⟨b, hb, hro⟩ := hf 0 1 a ha hbe
    rw [hb, map_some, hro] at hal
    cases hal
  · have hc : (coalescedConfigured.foldl .step (boot [("work", none)]))[0]?.map
        hop = some (some 1, true) := by decide
    have hr : (coalescedConfigured.foldl .step (boot [("work", none)]))[1]?.map
        hop = some (none, false) := by decide
    obtain ⟨a, ha, hop⟩ := map_eq_some_iff.mp hc
    obtain ⟨b, hb, ho'⟩ := map_eq_some_iff.mp hr
    have hp := hi 0 1 a b ha (congrArg (·.1) hop) hb (congrArg (·.2) hop)
    cases hp.symm.trans (congrArg (·.2) ho')
  · cases hn 0 1 _ _ rfl rfl rfl rfl rfl

end Cyclops.Session
