import Cyclops.Attention.Register
import Cyclops.Daemon
import Cyclops.Lib.Runs

/-!
# Clearances and the union

A live call hands back what stopped needing a human.

Result: `clearing_truthful_iff`.
-/

namespace Cyclops

open FiniteMap List Option AList DeliveryRecipientIdentity Prod

variable {g : Attention} {rows rows' : DeliveryRows} {key : DeliveryKey}

/-! ## What the union holds -/

variable {deliveries m : DeliveryRows}

theorem lookup_overlay (key : DeliveryKey) :
    (overlay deliveries m).lookup key = (m.lookup key).or (deliveries.lookup key) :=
  lookup_foldl_insert

/-- A row stands: it is there, and not the twin of an exact row. -/
def Stands (rows : DeliveryRows) (key : DeliveryKey) : Prop :=
  rows.lookup key ≠ none ∧ isTwin rows key = false

theorem stands_congr (h : ∀ key, rows.lookup key = rows'.lookup key) :
    Stands rows key ↔ Stands rows' key := by
  have ht : isTwin rows key = isTwin rows' key := by
    unfold isTwin
    cases key.1 with
    | exact => rfl
    | legacyLabel => simp only [carriers, countP_congr h]
  rw [Stands, Stands, h, ht]

theorem stands_exact {recipient : RecipientKey} {id : String} :
    Stands rows (.exact recipient, id) ↔ rows.lookup (.exact recipient, id) ≠ none :=
  ⟨And.left, fun h => ⟨h, rfl⟩⟩

theorem stands_legacy {label id : String} : Stands rows (.legacyLabel label, id) ↔
      rows.lookup (.legacyLabel label, id) ≠ none ∧ carriers rows label id ≠ 1 :=
  and_congr_right fun _ => beq_eq_false_iff_ne

theorem lookup_unionOf (key : DeliveryKey) : (unionOf deliveries m).lookup key =
      if isTwin (overlay deliveries m) key then none
      else (overlay deliveries m).lookup key := by
  rw [unionOf, lookup_retain_eq]
  cases isTwin (overlay deliveries m) key with
  | true | false => cases (overlay deliveries m).lookup key <;> rfl

theorem lookup_unionOf_ne_none :
    (unionOf deliveries m).lookup key ≠ none ↔ Stands (overlay deliveries m) key := by
  rw [lookup_unionOf, Stands]
  cases isTwin (overlay deliveries m) key with
  | true => simp
  | false => simp

namespace Attention

def recorded (register : Attention) : DeliveryRows :=
  overlay register.deliveries register.mailbox

def Fresh (register : Attention) : Prop :=
  register.union = unionOf register.deliveries register.mailbox

theorem fresh_rebuildUnion (g : Attention) : g.rebuildUnion.Fresh :=
  rfl

theorem union_run (ops : List Op) : (run ops).Fresh := by
  refine Runs.foldl_invariant Fresh (fun g op h => ?_) rfl
  cases op with
  | observeAgent | forgetAgent | snapshotAgents => exact h
  | observeDelivery =>
    simp only [step, observeDelivery]
    split <;> rfl
  | snapshotDeliveries => rfl
  | snapshotMailbox => rfl

theorem Fresh.holds_delivery (h : g.Fresh) {recipient : DeliveryRecipientIdentity} {id : String} :
    g.holds (.delivery recipient id) = true ↔ Stands g.recorded (recipient, id) := by
  rw [recorded, ← lookup_unionOf_ne_none, ← h, holds, clearance]
  by_cases hm : (recipient, id) ∈ g.union
  · rw [if_pos hm]
    exact iff_of_true rfl fun hn => not_mem_iff_lookup.mpr hn hm
  · rw [if_neg hm]
    exact iff_of_false Bool.false_ne_true fun hs => hs (not_mem_iff_lookup.mp hm)

theorem holds_agent {p : String} : g.holds (.agent p) = true ↔
      ∃ name state, g.agents.lookup p = some (name, state) ∧ state.isBlocked = true := by
  unfold holds clearance
  cases hl : g.agents.lookup p with
  | none => simp [hl]
  | some pane =>
    obtain ⟨name, state⟩ := pane
    cases hb : state.isBlocked <;> simp [hl]

theorem mem_items_agent {p name : String} {state : AgentState} : .agent p name state ∈ g.items ↔
      g.agents.lookup p = some (name, state) ∧ state.isBlocked = true := by
  rw [items, mem_append, List.mem_map, List.mem_map]
  constructor
  · rintro (⟨⟨pane, l⟩, hm, heq⟩ | ⟨_, _, heq⟩)
    · cases heq
      obtain ⟨hm, hb⟩ := mem_filter.mp hm
      exact ⟨mem_lookup_iff.mpr hm, hb⟩
    · cases heq
  · rintro ⟨hl, hb⟩
    exact .inl ⟨⟨p, name, state⟩, mem_filter.mpr ⟨mem_lookup_iff.mp hl, hb⟩, rfl⟩

theorem mem_items_delivery {recipient : DeliveryRecipientIdentity} {sentTo id : String}
    {state : DeliveryState} :
    .delivery recipient sentTo id state ∈ g.items ↔
      g.union.lookup (recipient, id) = some (sentTo, state) := by
  rw [items, mem_append, List.mem_map, List.mem_map]
  constructor
  · rintro (⟨_, _, heq⟩ | ⟨⟨⟨k', id'⟩, row⟩, hm, heq⟩)
    · cases heq
    · cases heq
      exact mem_lookup_iff.mpr hm
  · intro hl
    exact .inr ⟨⟨(recipient, id), sentTo, state⟩, mem_lookup_iff.mp hl, rfl⟩

end Attention

/-! ## Rows that come and go -/

def labelOnly (rows : DeliveryRows) (label id : String) : Prop :=
  rows.lookup (.legacyLabel label, id) ≠ none

section Exact

variable {k : RecipientKey} {id st : String} {s : DeliveryState}

theorem carriers_eq (rows : DeliveryRows) (k : RecipientKey) (id label o : String) :
    carriers rows label o = carriers (rows.erase (.exact k, id)) label o +
      if (rows.lookup (.exact k, id)).map fst = some label ∧ id = o
        then 1 else 0 := by
  rw [carriers, countP_erase rows (.exact k, id), carriers]
  congr 1
  cases rows.lookup (.exact k, id) with
  | none => rfl
  | some =>
    simp only [any_some, map_some, carries, isExact,
      Bool.true_and, Bool.and_eq_true, beq_iff_eq, some.injEq]

theorem carriers_insert (label o : String) : carriers (rows.insert (.exact k, id) (st, s)) label o =
      carriers (rows.erase (.exact k, id)) label o +
        if st = label ∧ id = o then 1 else 0 := by
  rw [carriers, countP_insert, carriers]
  simp only [carries, isExact, Bool.true_and, Bool.and_eq_true, beq_iff_eq]

theorem stays_insert_iff : (∀ key, Stands rows key →
      Stands (rows.insert (.exact k, id) (st, s)) key) ↔
    ((rows.lookup (.exact k, id)).map fst ≠ some st →
      (labelOnly rows st id → carriers rows st id ≠ 0) ∧
      ∀ label, (rows.lookup (.exact k, id)).map fst = some label →
        labelOnly rows label id → carriers rows label id ≠ 2) := by
  have hlo : ∀ label o, (rows.insert (.exact k, id) (st, s)).lookup (.legacyLabel label, o) =
        rows.lookup (.legacyLabel label, o) := fun label o =>
    lookup_insert_ne (by simp)
  constructor
  · intro hst hm
    have hf : ∀ label, labelOnly rows label id → carriers rows label id ≠ 1 →
        carriers (rows.insert (.exact k, id) (st, s)) label id ≠ 1 :=
      fun label ho hne => (stands_legacy.mp (hst _ (stands_legacy.mpr ⟨ho, hne⟩))).2
    refine ⟨fun ho hz => ?_, fun label hl ho ht => ?_⟩
    · refine hf st ho (by omega) ?_
      rw [carriers_eq rows k id, if_neg fun h => hm h.1] at hz
      rw [carriers_insert, if_pos ⟨rfl, rfl⟩]
      omega
    · refine hf label ho (by omega) ?_
      rw [carriers_eq rows k id, if_pos ⟨hl, rfl⟩] at ht
      have hot : ¬ (st = label ∧ id = id) := fun h => hm (h.1 ▸ hl)
      rw [carriers_insert, if_neg hot]
      omega
  · intro hco key hs
    obtain ⟨i | label, o⟩ := key
    · refine stands_exact.mpr ?_
      rw [lookup_insert_ite]
      split
      · exact some_ne_none _
      · exact hs.1
    · obtain ⟨ho, hne⟩ := stands_legacy.mp hs
      refine stands_legacy.mpr ⟨hlo label o ▸ ho, ?_⟩
      have hc := carriers_eq rows k id label o
      rw [carriers_insert]
      by_cases hw : (rows.lookup (.exact k, id)).map fst = some label ∧ id = o
      · rw [if_pos hw] at hc
        split
        · omega
        · next hn =>
          obtain ⟨hw, rfl⟩ := hw
          have := (hco fun h => hn ⟨some.inj (h.symm.trans hw), rfl⟩).2 label hw ho
          omega
      · rw [if_neg hw] at hc
        split
        · next hn =>
          obtain ⟨rfl, rfl⟩ := hn
          have := (hco fun h => hw ⟨h, rfl⟩).1 ho
          omega
        · omega

theorem stays_erase_iff {label : String} {was : DeliveryState}
    (hr : rows.lookup (.exact k, id) = some (label, was)) :
    (∀ key, key ≠ (.exact k, id) → Stands rows key → Stands (rows.erase (.exact k, id)) key) ↔
    (labelOnly rows label id → carriers rows label id ≠ 2) := by
  have hl : ∀ label o, (rows.erase (.exact k, id)).lookup (.legacyLabel label, o) =
        rows.lookup (.legacyLabel label, o) := fun label o =>
    lookup_erase_ne (by simp)
  have hc := carriers_eq rows k id
  simp only [hr, map_some, some.injEq] at hc
  constructor
  · intro hst ho ht
    have hs : Stands rows (.legacyLabel label, id) := stands_legacy.mpr ⟨ho, by omega⟩
    refine (stands_legacy.mp (hst _ (by simp) hs)).2 ?_
    have := hc label id
    rw [if_pos ⟨rfl, rfl⟩] at this
    omega
  · intro hco key hne hs
    obtain ⟨i | l', o⟩ := key
    · refine stands_exact.mpr ?_
      rw [lookup_erase_ne hne]
      exact hs.1
    · obtain ⟨ho, hn⟩ := stands_legacy.mp hs
      refine stands_legacy.mpr ⟨hl l' o ▸ ho, ?_⟩
      have heq := hc l' o
      by_cases hsa : label = l' ∧ id = o
      · obtain ⟨rfl, rfl⟩ := hsa
        have := hco ho
        rw [if_pos ⟨rfl, rfl⟩] at heq
        omega
      · rw [if_neg hsa] at heq
        omega

end Exact

section LabelOnly

variable {l id : String}

theorem carriers_insert_legacy (v : String × DeliveryState) (other o : String) :
    carriers (rows.insert (.legacyLabel l, id) v) other o = carriers rows other o := by
  rw [carriers, countP_insert, carriers, countP_erase rows (.legacyLabel l, id)]
  congr 1
  cases rows.lookup (.legacyLabel l, id) <;> rfl

theorem carriers_erase_legacy (other o : String) :
    carriers (rows.erase (.legacyLabel l, id)) other o = carriers rows other o := by
  rw [carriers, carriers, countP_erase rows (.legacyLabel l, id)]
  cases rows.lookup (.legacyLabel l, id) <;> rfl

theorem Stands.of_carriers (h : Stands rows key) (ht : rows'.lookup key ≠ none)
    (hs : ∀ l id, carriers rows' l id = carriers rows l id) : Stands rows' key := by
  obtain ⟨i | l', o⟩ := key
  · exact stands_exact.mpr ht
  · exact stands_legacy.mpr ⟨ht, hs l' o ▸ (stands_legacy.mp h).2⟩

theorem stays_insert_legacy {v : String × DeliveryState} (h : Stands rows key) :
    Stands (rows.insert (.legacyLabel l, id) v) key := by
  refine h.of_carriers ?_ (carriers_insert_legacy v)
  rw [lookup_insert_ite]
  split
  · exact some_ne_none _
  · exact h.1

theorem stays_erase_legacy (hne : key ≠ (.legacyLabel l, id)) (h : Stands rows key) :
    Stands (rows.erase (.legacyLabel l, id)) key :=
  h.of_carriers (by rw [lookup_erase_ne hne]; exact h.1) carriers_erase_legacy

end LabelOnly

namespace Attention

/-! ## Where a reference leads -/

theorem Fresh.uniqueExactIn (h : g.Fresh) (label id : String) :
    uniqueExactIn g.union label id = Cyclops.uniqueExactIn g.recorded label id := by
  have he : g.union.entries.filter (carries label id) =
      g.recorded.entries.filter (carries label id) := by
    rw [h]
    change filter _ (g.recorded.entries.filter _) = _
    rw [List.filter_filter]
    refine filter_congr fun row _ => ?_
    -- An exact row is nobody's twin.
    cases hc : carries label id row with
    | false => rfl
    | true =>
      have hex : row.1.1.isExact = true := by
        simp only [carries, Bool.and_eq_true] at hc
        exact hc.1.1
      obtain ⟨⟨⟨recipient⟩ | label, id⟩, v⟩ := row
      · rfl
      · cases hex
  rw [Cyclops.uniqueExactIn, Cyclops.uniqueExactIn, he]

variable {id : String} {recipient : DeliveryRecipientIdentity} {sentTo : String}
  {state : DeliveryState}

theorem isExact_of_uniqueExactIn {label : String} {i : DeliveryRecipientIdentity}
    (h : Cyclops.uniqueExactIn rows label id = some i) : i.isExact = true := by
  unfold Cyclops.uniqueExactIn at h
  split at h
  · next row hr =>
    cases h
    have hm : row ∈ rows.entries.filter (carries label id) := by simp [hr]
    have hc := (mem_filter.mp hm).2
    simp only [carries, Bool.and_eq_true] at hc
    exact hc.1.1
  · cases h

theorem carriers_ne_one_of_uniqueExactIn {label : String}
    (h : Cyclops.uniqueExactIn rows label id = none) : carriers rows label id ≠ 1 := by
  intro ho
  rw [carriers, countP_eq_length_filter] at ho
  obtain ⟨row, hr⟩ := length_eq_one_iff.mp ho
  rw [Cyclops.uniqueExactIn, hr] at h
  cases h

theorem Fresh.resolve_cases (h : g.Fresh) (recipient : Option RecipientKey) (sentTo id : String) :
    (∃ key, g.resolve recipient sentTo id = (.exact key, id)) ∨
      g.resolve recipient sentTo id = (.legacyLabel sentTo, id) ∧
        carriers g.recorded sentTo id ≠ 1 := by
  unfold resolve
  cases recipient with
  | some key => exact .inl ⟨key, rfl⟩
  | none =>
    cases hu : Cyclops.uniqueExactIn g.union sentTo id with
    | none =>
      rw [h.uniqueExactIn] at hu
      exact .inr ⟨by simp only, carriers_ne_one_of_uniqueExactIn hu⟩
    | some i =>
      cases i with
      | exact key => exact .inl ⟨key, by simp only⟩
      | legacyLabel => cases isExact_of_uniqueExactIn hu

/-! ## Truth of an answer -/

/-- A call hands back an item exactly when it was held before the call and is not held
after it. -/
def Truthful (before : Attention) (call : Attention × Option Resolved) : Prop :=
  ∀ item, (∃ how, call.2 = some ⟨item, how⟩) ↔
    item ∈ before.items ∧ call.1.holds item.identity = false

theorem holds_of_mem_items {bef aft : Attention} (hu : aft.union = bef.union)
    (h : .delivery recipient sentTo id state ∈ bef.items) :
    aft.holds (.delivery recipient id) = true := by
  have hm : (recipient, id) ∈ aft.union := by
    rw [hu, mem_iff_lookup]
    exact ⟨_, mem_items_delivery.mp h⟩
  rw [holds, clearance, if_pos hm]
  rfl

theorem truthful_of_pane {bef : Attention} {call : Attention × Option Resolved}
    {p : String} (how : Clearance) (hu : call.1.union = bef.union)
    (ho : ∀ o, o ≠ p → call.1.agents.lookup o = bef.agents.lookup o)
    (ha : call.2 = (bef.agents.lookup p).bind fun pane =>
      if pane.2.isBlocked && !call.1.holds (.agent p) then
        some ⟨.agent p pane.1 pane.2, how⟩
      else none) :
    Truthful bef call := by
  obtain ⟨aft, ans⟩ := call
  simp only at hu ho ha
  intro item
  change (∃ how, ans = some ⟨item, how⟩) ↔ item ∈ bef.items ∧ aft.holds item.identity = false
  rw [ha]
  have hs : ∀ o, o ≠ p → (aft.holds (.agent o) = true ↔ bef.holds (.agent o) = true) := by
    intro o hne
    rw [holds_agent, holds_agent, ho o hne]
  constructor
  · rintro ⟨ho', ha⟩
    obtain ⟨⟨name, was⟩, hl, hif⟩ := bind_eq_some_iff.mp ha
    split at hif
    · next hc =>
      rw [Bool.and_eq_true, Bool.not_eq_true'] at hc
      cases hif
      exact ⟨mem_items_agent.mpr ⟨hl, hc.1⟩, hc.2⟩
    · cases hif
  · rintro ⟨hm, hg⟩
    cases item with
    | delivery =>
      have hh := holds_of_mem_items hu hm
      cases hh.symm.trans hg
    | agent o name was =>
      obtain ⟨hl, hb⟩ := mem_items_agent.mp hm
      by_cases hp : o = p
      · subst hp
        have hg' : aft.holds (.agent o) = false := hg
        exact ⟨how, by simp [hl, hb, hg']⟩
      · have hh := (hs o hp).mpr (holds_agent.mpr ⟨name, was, hl, hb⟩)
        cases hh.symm.trans hg

theorem truthful_observeAgent (g : Attention) (t : String) (p : Option String)
    (state : AgentState) : Truthful g (g.observeAgent t p state) := by
  have hh : (g.observeAgent t p state).1.holds (.agent (agentKey t p)) = state.isBlocked := by
    rw [Bool.eq_iff_iff, holds_agent]
    simp [observeAgent]
  refine truthful_of_pane .moved rfl (fun o hne => lookup_insert_ne hne) ?_
  rw [hh]
  simp only [observeAgent]
  cases g.agents.lookup (agentKey t p) <;> rfl

theorem truthful_forgetAgent (g : Attention) (p : String) : Truthful g (g.forgetAgent p) := by
  have hh : (g.forgetAgent p).1.holds (.agent p) = false := by
    rw [← Bool.not_eq_true, holds_agent]
    simp [forgetAgent]
  refine truthful_of_pane .paneGone rfl (fun o hne => lookup_erase_ne hne) ?_
  rw [hh]
  simp only [forgetAgent]
  cases g.agents.lookup p with
  | none => rfl
  | some => simp

/-! ## Rows that come to stand or fall -/

theorem Fresh.not_holds (h : g.Fresh) :
    g.holds (.delivery recipient id) = false ↔ ¬ Stands g.recorded (recipient, id) := by
  rw [← Bool.not_eq_true, h.holds_delivery]

theorem Fresh.stands_of_mem (h : g.Fresh) (hm : .delivery recipient sentTo id state ∈ g.items) :
    Stands g.recorded (recipient, id) := by
  rw [recorded, ← lookup_unionOf_ne_none, ← h, mem_items_delivery.mp hm]
  exact some_ne_none _

theorem Fresh.item_of_stands (h : g.Fresh) (hs : Stands g.recorded key) :
    ∃ sentTo state, .delivery key.1 sentTo key.2 state ∈ g.items := by
  rw [recorded, ← lookup_unionOf_ne_none, ← h] at hs
  obtain ⟨⟨sentTo, state⟩, hl⟩ := ne_none_iff_exists'.mp hs
  exact ⟨sentTo, state, mem_items_delivery.mpr hl⟩

section Answers

variable {b a : Attention} (hbefore : b.Fresh) (hafter : a.Fresh)
  (hagents : a.agents = b.agents)
include hbefore hafter hagents

omit hbefore hafter in
theorem agent_held {p name : String} {state : AgentState}
    (hm : .agent p name state ∈ b.items) : a.holds (.agent p) = true := by
  obtain ⟨hl, hb⟩ := mem_items_agent.mp hm
  exact holds_agent.mpr ⟨name, state, hagents ▸ hl, hb⟩

theorem truthful_none_iff : Truthful b (a, none) ↔
      ∀ key, Stands b.recorded key → Stands a.recorded key := by
  constructor
  · intro ht key hs
    obtain ⟨sentTo, state, hm⟩ := hbefore.item_of_stands hs
    by_contra hf
    obtain ⟨how, hn⟩ := (ht _).mpr ⟨hm, hafter.not_holds.mpr hf⟩
    cases hn
  · intro hst item
    refine iff_of_false (fun ⟨_, hn⟩ => (nomatch hn)) fun ⟨hm, hg⟩ => ?_
    cases item with
    | agent => cases (agent_held hagents hm).symm.trans hg
    | delivery =>
      exact hafter.not_holds.mp hg (hst _ (hbefore.stands_of_mem hm))

theorem truthful_some_iff {label : String} {was : DeliveryState} {how : Clearance}
    (hl : b.union.lookup key = some (label, was)) :
    Truthful b (a, some ⟨.delivery key.1 label key.2 was, how⟩) ↔ ¬ Stands a.recorded key ∧
        ∀ o, o ≠ key → Stands b.recorded o → Stands a.recorded o := by
  have hi : .delivery key.1 label key.2 was ∈ b.items := mem_items_delivery.mpr hl
  constructor
  · intro ht
    refine ⟨hafter.not_holds.mp ((ht _).mp ⟨how, rfl⟩).2, fun o hne hs => ?_⟩
    obtain ⟨sentTo, state, hm⟩ := hbefore.item_of_stands hs
    by_contra hf
    obtain ⟨ho', ha⟩ := (ht _).mpr ⟨hm, hafter.not_holds.mpr hf⟩
    simp only [some.injEq, Resolved.mk.injEq, AttentionItem.delivery.injEq] at ha
    exact hne (Prod.ext ha.1.1.symm ha.1.2.2.1.symm)
  · rintro ⟨hf, hst⟩ item
    constructor
    · rintro ⟨ho', ha⟩
      cases ha
      exact ⟨hi, hafter.not_holds.mpr hf⟩
    · rintro ⟨hm, hg⟩
      cases item with
      | agent => cases (agent_held hagents hm).symm.trans hg
      | delivery recipient sentTo id =>
        have hfa : ¬ Stands a.recorded (recipient, id) := hafter.not_holds.mp hg
        by_cases hk : (recipient, id) = key
        · subst hk
          cases (mem_items_delivery.mp hm).symm.trans hl
          exact ⟨how, rfl⟩
        · exact absurd (hst _ hk (hbefore.stands_of_mem hm)) hfa

end Answers

/-! ## A delivery is observed -/

theorem lookup_recorded_change (g : Attention) (he : rows.lookup key = rows'.lookup key)
    (hel : ∀ o ≠ key, rows.lookup o = g.deliveries.lookup o ∧
      rows'.lookup o = g.recorded.lookup o) (o : DeliveryKey) :
    (overlay rows g.mailbox).lookup o =
      if g.mailbox.lookup key = none then rows'.lookup o
      else g.recorded.lookup o := by
  rw [lookup_overlay]
  by_cases ho : o = key
  · subst ho
    cases hm : g.mailbox.lookup o with
    | none => simpa using he
    | some => simp [recorded, lookup_overlay, hm]
  · obtain ⟨hr, hr'⟩ := hel o ho
    rw [hr, hr', ite_self, recorded, lookup_overlay]

def RaisesAlone (register : Attention) (key : DeliveryKey) (sentTo : String) : Prop :=
  key.1.isExact = true → register.mailbox.lookup key = none →
    (register.recorded.lookup key).map fst ≠ some sentTo →
      (labelOnly register.recorded sentTo key.2 → carriers register.recorded sentTo key.2 ≠ 0) ∧
      ∀ label, (register.recorded.lookup key).map fst = some label →
        labelOnly register.recorded label key.2 → carriers register.recorded label key.2 ≠ 2

/-- The event clears the key from both halves, and no label-only row falls with it. -/
def ClearsAlone (register : Attention) (key : DeliveryKey) : Prop :=
  ∀ label was, register.deliveries.lookup key = some (label, was) →
    register.mailbox.lookup key = none ∧
      (key.1.isExact = true → labelOnly register.recorded label key.2 →
        carriers register.recorded label key.2 ≠ 2)

def AnswersForUnion (register : Attention) (sentTo : String) (recipient : Option RecipientKey)
    (id : Option String) (state : DeliveryState) : Prop :=
  let key := register.resolve recipient sentTo (id.getD "")
  if deliveryNeedsHuman state then register.RaisesAlone key sentTo else register.ClearsAlone key

theorem Fresh.raise_iff (h : g.Fresh) : Truthful g
      (rebuildUnion { g with deliveries := g.deliveries.insert key (sentTo, state) },
        none) ↔ g.RaisesAlone key sentTo := by
  have hfr := fresh_rebuildUnion { g with deliveries := g.deliveries.insert key (sentTo, state) }
  rw [truthful_none_iff h hfr rfl]
  have hr := @lookup_recorded_change (g.deliveries.insert key (sentTo, state))
    (g.recorded.insert key (sentTo, state)) key g (by simp) fun _ hne => by simp [hne]
  by_cases hm : g.mailbox.lookup key = none
  · simp only [hm] at hr
    have hst : ∀ o, Stands (recorded (rebuildUnion
        { g with deliveries := g.deliveries.insert key (sentTo, state) })) o ↔
          Stands (g.recorded.insert key (sentTo, state)) o := fun o =>
      stands_congr hr
    simp only [hst]
    obtain ⟨recipient | label, id⟩ := key
    · rw [stays_insert_iff]
      exact ⟨fun hsta _ _ => hsta, fun hc => hc rfl hm⟩
    · exact iff_of_true (fun _ hs => stays_insert_legacy hs) fun hf => (nomatch hf)
  · simp only [hm] at hr
    refine iff_of_true (fun o hs => ?_) fun _ hn => absurd hn hm
    exact (stands_congr hr).mpr hs

theorem Fresh.clear_iff (h : g.Fresh) (ht : isTwin g.recorded key = false) :
    Truthful g (rebuildUnion { g with deliveries := g.deliveries.erase key },
        match g.deliveries.lookup key with
        | none => none
        | some (label, was) => some ⟨.delivery key.1 label key.2 was, .moved⟩) ↔
      g.ClearsAlone key := by
  have hf := fresh_rebuildUnion { g with deliveries := g.deliveries.erase key }
  have hr := @lookup_recorded_change (g.deliveries.erase key)
    (g.recorded.erase key) key g (by simp) fun _ hne => by simp [hne]
  cases hde : g.deliveries.lookup key with
  | none =>
    refine iff_of_true ?_ fun _ _ hso => (nomatch hde.symm.trans hso)
    refine (truthful_none_iff h hf rfl).mpr fun o hs =>
      (stands_congr fun k => ?_).mpr hs
    change (overlay (g.deliveries.erase key) g.mailbox).lookup k = _
    rw [lookup_overlay, recorded, lookup_overlay, lookup_erase_ite]
    split
    · next heq => rw [heq, hde]
    · rfl
  | some row =>
    obtain ⟨label, was⟩ := row
    have hst : Stands g.recorded key := by
      refine ⟨?_, ht⟩
      rw [recorded, lookup_overlay, hde]
      cases g.mailbox.lookup key <;> exact some_ne_none _
    by_cases hm : g.mailbox.lookup key = none
    · have hl : g.recorded.lookup key = some (label, was) := by
        rw [recorded, lookup_overlay, hm, hde]
        rfl
      have hu : g.union.lookup key = some (label, was) := by
        rw [h, lookup_unionOf]
        exact (if_neg (Bool.not_eq_true _ ▸ ht)).trans hl
      refine (truthful_some_iff h hf rfl hu).trans ?_
      simp only [hm] at hr
      have hafter : ∀ o, Stands (recorded (rebuildUnion
          { g with deliveries := g.deliveries.erase key })) o ↔
            Stands (g.recorded.erase key) o := fun o => stands_congr hr
      have hg : ¬ Stands (g.recorded.erase key) key := fun hs =>
        hs.1 (lookup_erase _ _)
      simp only [hafter, hg, not_false_eq_true, true_and, ClearsAlone, hde,
        some.injEq, Prod.mk.injEq, and_imp, hm]
      obtain ⟨recipient | l', id⟩ := key
      · rw [stays_erase_iff hl]
        exact ⟨fun hsta _ _ hla _ _ => hla ▸ hsta, fun hc => hc _ _ rfl rfl rfl⟩
      · exact iff_of_true (fun _ hne hs => stays_erase_legacy hne hs)
          fun _ _ _ _ hfa => (nomatch hfa)
    · refine iff_of_false (fun htr => ?_) fun hc => hm (hc label was hde).1
      simp only [hm] at hr
      have hh := ((htr _).mp ⟨.moved, rfl⟩).2
      exact hf.not_holds.mp hh ((stands_congr hr).mpr hst)

theorem Fresh.isTwin_resolve (h : g.Fresh) (recipient : Option RecipientKey) (sentTo id : String) :
    isTwin g.recorded (g.resolve recipient sentTo id) = false := by
  rcases h.resolve_cases recipient sentTo id with ⟨key, hk⟩ | ⟨hk, hc⟩
  · rw [hk]
    rfl
  · rw [hk]
    exact beq_eq_false_iff_ne.mpr hc

theorem Fresh.observeDelivery_iff (h : g.Fresh) (sentTo : String)
    (recipient : Option RecipientKey) (id : Option String) (state : DeliveryState) :
    Truthful g (g.observeDelivery sentTo recipient id state) ↔
      g.AnswersForUnion sentTo recipient id state := by
  unfold observeDelivery AnswersForUnion
  cases hn : deliveryNeedsHuman state with
  | true => exact h.raise_iff
  | false => exact h.clear_iff (h.isTwin_resolve recipient sentTo (id.getD ""))

/-- The calls about panes hand back what they end; a call about a delivery does exactly when its key
is in the legacy half only and no label-only row falls. -/
theorem clearing_truthful_iff (ops : List Op) :
    (run ops).union = unionOf (run ops).deliveries (run ops).mailbox ∧
    (∀ target paneId state, Truthful (run ops) ((run ops).observeAgent target paneId state)) ∧
    (∀ paneId, Truthful (run ops) ((run ops).forgetAgent paneId)) ∧
    ∀ sentTo recipient id state,
      Truthful (run ops) ((run ops).observeDelivery sentTo recipient id state) ↔
        (run ops).AnswersForUnion sentTo recipient id state :=
  ⟨union_run ops, truthful_observeAgent _, truthful_forgetAgent _,
    (union_run ops).observeDelivery_iff⟩

/-- A recipient whose alarm is in both halves: it is raised, and the next mailbox
snapshot lists it too. -/
def sampleAlarm : List Op := [
  .observeDelivery "worker" (some sampleWorker.key) (some "m-1") .attentionRequired,
  .snapshotMailbox [⟨"m-1", "worker", some sampleWorker.key, .attentionRequired, 1, none, none⟩]]

/-- The delivery is reported as cleared and still held. -/
theorem cleared_row_still_held :
    ¬ Truthful (run sampleAlarm)
      ((run sampleAlarm).observeDelivery "worker" (some sampleWorker.key) (some "m-1")
        .deliveredVerified) := by
  intro ht
  have hf : ((run sampleAlarm).observeDelivery "worker" (some sampleWorker.key) (some "m-1")
        .deliveredVerified).2 =
        some ⟨.delivery (.exact sampleWorker.key) "worker" "m-1" .attentionRequired, .moved⟩ ∧
      ((run sampleAlarm).observeDelivery "worker" (some sampleWorker.key) (some "m-1")
        .deliveredVerified).1.holds (.delivery (.exact sampleWorker.key) "m-1") = true := by
    decide
  have hg := ((ht _).mp ⟨_, hf.1⟩).2
  cases hf.2.symm.trans hg

end Attention

end Cyclops
