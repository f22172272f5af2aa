import Cyclops.Roster.Registry
import Cyclops.Session.OneOwner

/-!
# Session names

tmux renames a session.

Result: `names_converge`.
-/

namespace Cyclops.Session

open FiniteMap Roster Function List Option Bool SessionSlot Registry

/-! ## The parties -/

structure Naming where
  slots : Slots
  registry : Registry
  live : List String
  tmux : String → String
  notices : Nat → List String
  events : Nat → List String

def renameSessionSlotAnswer (slots : Slots) (idx : Nat) (newName : String)
    (observed : Option SessionInstanceId) (link : HistoryLink) : Bool :=
  match slots[idx]? with
  | none => false
  | some slot =>
    if !slot.isCanonical then false
    else if slot.name = newName then true
    else
      match findOther slots idx (·.name = newName) with
      | none => true
      | some (other, _) =>
        if refusesMerge (renameSource observed slot) other then true else link.holds

namespace Naming

variable (s : Naming)

def follows (i : Nat) (key : String) : Bool :=
  (s.slots[i]?).any fun slot =>
    slot.watcher.isSome && slot.identity.any (·.liveSessionKey = key)

/-- tmux renames a session; it refuses a name that another session has. -/
def renameSession (key name : String) : Naming :=
  if key ∈ s.live ∧ ∀ other ∈ s.live, other ≠ key → s.tmux other ≠ name then
    { s with
      tmux := update s.tmux key name
      notices := fun i => if s.follows i key then s.notices i ++ [name] else s.notices i }
  else s

def followSessionName (i : Nat) (name : String) : Naming :=
  match (s.slots[i]?).bind (·.watcher) with
  | none => s
  | some current =>
    if current = name then s
    else
      { s with
        slots := s.slots.modify i fun slot => { slot with watcher := some name }
        events := update s.events i (s.events i ++ [name]) }

def detach (i : Nat) : Naming :=
  { s with
    slots := detachSession s.slots i
    notices := update s.notices i []
    events := update s.events i [] }

def renameSlot (i : Nat) (name : String) (link : HistoryLink) (saved : Bool) : Naming :=
  let slots := renameSessionSlotLocked s.slots i name none link
  match s.slots[i]?, slots[i]? with
  | some old, some new =>
    { s with
      slots
      registry :=
        if new.name = old.name then s.registry
        else (s.registry.renameSession old.name name saved).1 }
  | _, _ => { s with slots }

def followRename (i : Nat) (name : String) (link : HistoryLink) (saved : Bool) : Naming :=
  if renameSessionSlotAnswer s.slots i name none link then s.renameSlot i name link saved
  else (s.renameSlot i name link saved).detach i

end Naming

/-- What tmux, a watcher or the task of a slot does with names. -/
inductive NameStep where
  | renamed (key name : String)
  | noticed (i : Nat)
  | recovered (i : Nat)
  | handled (i : Nat) (link : HistoryLink) (saved : Bool)
  | lagged (i missed : Nat) (link : HistoryLink) (saved : Bool)
  | detached (i : Nat)

namespace Naming

def step (s : Naming) : NameStep → Naming
  | .renamed key name => s.renameSession key name
  | .noticed i =>
    match s.notices i with
    | [] => s
    | name :: rest =>
      { s with notices := update s.notices i rest }.followSessionName i name
  | .recovered i =>
    match (s.slots[i]?).bind (·.identity) with
    | none => s
    | some binding => s.followSessionName i (s.tmux binding.liveSessionKey)
  | .handled i link saved =>
    match s.events i with
    | [] => s
    | name :: rest =>
      { s with events := update s.events i rest }.followRename i name link saved
  | .lagged i missed link saved =>
    let s := { s with events := update s.events i ((s.events i).drop missed) }
    match s.slots[i]? with
    | some slot =>
      match slot.watcher with
      | some live => if slot.name = live then s else s.followRename i live link saved
      | none => s
    | none => s
  | .detached i => s.detach i

def unopposed (s : Naming) (i : Nat) (name : String) (saved : Bool) : Bool :=
  saved && (s.slots[i]?).all fun slot =>
    (findOther s.slots i (·.name = name)).all fun found =>
      !refusesMerge (renameSource none slot) found.1

/-- The condition on a step: a task takes a name only when no other live slot still has it. -/
def careful (s : Naming) : NameStep → Bool
  | .handled i _ saved => (s.events i).head?.all fun name => s.unopposed i name saved
  | .lagged i _ _ saved =>
    ((s.slots[i]?).bind (·.watcher)).all fun name => s.unopposed i name saved
  | _ => true

def Quiet (s : Naming) : Prop :=
  ∀ i < s.slots.length, s.notices i = [] ∧ s.events i = []

instance (s : Naming) : Decidable s.Quiet :=
  inferInstanceAs (Decidable (∀ i < s.slots.length, s.notices i = [] ∧ s.events i = []))

end Naming

/-! ## One rename -/

section

variable {ss : Slots} {i : Nat} {slot : SessionSlot} {name : String}
  {observed : Option SessionInstanceId} {link : HistoryLink}

theorem rename_others {j : Nat} {new : SessionSlot} (ne : j ≠ i)
    (hf : (renameSessionSlotLocked ss i name observed link)[j]? = some new)
    (hc : new.isCanonical = true) : ss[j]? = some new := by
  obtain eq | ⟨slot, he, active, ⟨-, eq⟩ | ⟨other, o, taken, ⟨-, eq⟩ | ⟨-, eq⟩⟩⟩ :=
    rename_cases ss i name observed link
  all_goals rw [eq] at hf
  · exact hf
  · obtain ⟨old, h, ⟨-, rfl⟩ | ⟨same, -⟩⟩ := modify_origin hf
    · exact h
    · exact absurd same ne
  · rw [(inheritDuty_getElem? other he).2 j ne] at hf
    exact hf
  · obtain ⟨h, apart, live, -⟩ := findOther_eq_some taken
    obtain ⟨⟨hei, hh, same, -⟩, hk⟩ := inheritDuty_getElem? other he
    obtain ⟨same, -⟩ | ⟨-, rfl⟩ | ⟨-, -, old, h₀, rfl⟩ :=
      takeOver_origin hh (same.trans active) ((hk o apart).trans h) apart live hf
    · exact absurd same ne
    · cases hc
    · obtain ⟨-, eq⟩ | ⟨-, eq⟩ := old.retargetAlias_eq o i
      · rw [eq] at hc
        cases hc
      · rw [eq, ← hk j ne]
        exact h₀

theorem inheritDuty_self (other : SessionSlot) (found : ss[i]? = some slot) :
    ∃ persistent, (inheritDuty ss i other)[i]? = some { slot with persistent } := by
  unfold inheritDuty
  split
  · exact ⟨true, by simp [found, promotePersistent]⟩
  · exact ⟨slot.persistent, found⟩

theorem rename_self (names : OneName ss) (found : ss[i]? = some slot)
    (canonical : slot.isCanonical = true) :
    ∃ persistent followed, (renameSessionSlotLocked ss i name observed link)[i]? =
        some { slot with persistent, name := followed } ∧
      (followed = slot.name ∨ followed = name ∧ ∀ (j : Nat) (new : SessionSlot), j ≠ i →
        (renameSessionSlotLocked ss i name observed link)[j]? = some new →
        new.isCanonical = true → new.name ≠ name) := by
  obtain eq | ⟨slot', he, active, ⟨free, eq⟩ | ⟨other, o, taken, ⟨-, eq⟩ | ⟨-, eq⟩⟩⟩ :=
    rename_cases ss i name observed link
  · refine ⟨slot.persistent, slot.name, ?_, .inl rfl⟩
    rw [eq]
    exact found
  all_goals
    have others := @rename_others ss i name observed link
  · refine ⟨slot.persistent, name, ?_, .inr ⟨rfl, fun j new ne h active => ?_⟩⟩
    · rw [eq]
      simp [found, rename]
    · exact of_decide_eq_false (findOther_eq_none free (others ne h active) ne active)
  · obtain ⟨persistent, same⟩ := inheritDuty_self other found
    exact ⟨persistent, slot.name, eq ▸ same, .inl rfl⟩
  · obtain ⟨persistent, same⟩ := inheritDuty_self other found
    obtain ⟨h, apart, live, named⟩ := findOther_eq_some taken
    have root := (isCanonical_iff.mp canonical).1
    refine ⟨persistent, name, ?_, .inr ⟨rfl, fun j new ne h' active' => ?_⟩⟩
    · rw [eq, takeOver_getElem? name (Ne.symm apart) same root, if_pos rfl]
      rfl
    · -- the only other slot with the name was retired
      intro same'
      have old := others ne h' active'
      obtain rfl := names j o new other old h active' live (same'.trans (of_decide_eq_true named).symm)
      have kept := (inheritDuty_getElem? other found).2 j ne
      rw [eq] at h'
      have retired := @takeOver_origin _ i j _ other name same canonical (kept.trans h) apart live
      obtain ⟨same, -⟩ | ⟨-, rfl⟩ | ⟨-, apart', -⟩ := retired h'
      · exact absurd same ne
      · cases active'
      · exact absurd rfl apart'

theorem rename_followed (found : ss[i]? = some slot) (canonical : slot.isCanonical = true)
    (hu : ∀ other o, findOther ss i (·.name = name) = some (other, o) →
      refusesMerge (renameSource observed slot) other = false)
    (ha : renameSessionSlotAnswer ss i name observed link = true) {new : SessionSlot}
    (hr : (renameSessionSlotLocked ss i name observed link)[i]? = some new) :
    new.name = name := by
  unfold renameSessionSlotAnswer at ha
  unfold renameSessionSlotLocked at hr
  simp only [found, canonical, Bool.not_true, false_eq_true, if_false] at ha hr
  split at hr
  · next hs =>
    rw [found] at hr
    cases hr
    exact hs
  · next other_name =>
    rw [if_neg other_name] at ha
    cases ht : findOther ss i (·.name = name) with
    | none =>
      simp only [ht] at hr
      simp only [getElem?_modify, found] at hr
      cases hr
      rfl
    | some pair =>
      obtain ⟨other, o⟩ := pair
      have accepted := hu other o ht
      simp only [ht, accepted] at ha hr
      obtain ⟨hn, recorded⟩ := and_eq_true_iff.mp ha
      simp only [hn, recorded, Bool.not_true, false_eq_true, if_false] at hr
      obtain ⟨p, hs⟩ := inheritDuty_self other found
      obtain ⟨-, apart, -⟩ := findOther_eq_some ht
      rw [takeOver_getElem? name (Ne.symm apart) hs (isCanonical_iff.mp canonical).1,
        if_pos rfl] at hr
      cases hr
      rfl

theorem OneName.renamed (names : OneName ss) :
    OneName (renameSessionSlotLocked ss i name observed link) := by
  have others := @rename_others ss i name observed link
  intro j k a b ha hb ca cb same
  have self : ∀ {l : Nat} {c d : SessionSlot}, l ≠ i →
      (renameSessionSlotLocked ss i name observed link)[l]? = some c → c.isCanonical = true →
      (renameSessionSlotLocked ss i name observed link)[i]? = some d → d.isCanonical = true →
      c.name ≠ d.name := by
    intro l c d ne hc cc hd cd same
    cases found : ss[i]? with
    | none => simp [renameSessionSlotLocked, found] at hd
    | some slot =>
      cases canonical : slot.isCanonical with
      | false =>
        simp only [renameSessionSlotLocked, found, canonical, Bool.not_false, if_true] at hd
        cases hd
        simp [canonical] at cd
      | true =>
        obtain ⟨persistent, followed, he, kept | ⟨rfl, free⟩⟩ :=
          @rename_self ss i slot name observed link names found canonical
        all_goals cases he.symm.trans hd
        · exact ne (names l i c slot (others ne hc cc) found cc canonical (same.trans kept))
        · exact free l c ne hc cc same
  by_cases hj : j = i
  · by_cases hk : k = i
    · exact hj.trans hk.symm
    · exact absurd same.symm (self hk hb cb (hj ▸ ha) ca)
  · by_cases hk : k = i
    · exact absurd same (self hj ha ca (hk ▸ hb) cb)
    · exact names j k a b (others hj ha ca) (others hk hb cb) ca cb same

end

/-! ## The registry -/

theorem session_renameSession {reg : Registry} {o n : String}
    (ne : o ≠ n) {k : RecipientKey} {ad : Adoption}
    (found : (reg.renameSession o n true).1.panes.lookup k = some ad) :
    ∃ old, reg.panes.lookup k = some old ∧
      ad.session = if old.session = o then n else old.session := by
  simp only [renameSession, if_neg ne] at found
  split at found
  · next unchanged =>
    refine ⟨ad, found, ?_⟩
    have ha : ad ∈ values reg.panes := mem_values.mpr ⟨k, found⟩
    rw [if_neg]
    intro hs
    simp only [not_eq_true', or_eq_false_iff, List.any_eq_false] at unchanged
    exact unchanged.1.1 ad ha (by simpa using hs)
  · simp only [commit, if_true, lookup_mapValues] at found
    obtain ⟨old, h, rfl⟩ := map_eq_some_iff.mp found
    refine ⟨old, h, ?_⟩
    split <;> rfl

/-! ## What is on its way -/

namespace Naming

/-- The names still to arrive end with the one tmux gives; the adoptions of the session are
under the slot's name. -/
structure Promises (s : Naming) (i : Nat) (slot : SessionSlot) (binding : SessionIdentityBinding)
    (watcher : String) : Prop where
  identity : slot.identity = some binding
  watched : slot.watcher = some watcher
  events : (s.events i).getLastD slot.name = watcher
  notices : (s.notices i).getLastD watcher = s.tmux binding.liveSessionKey
  adoptions : ∀ recipient adoption, s.registry.panes.lookup recipient = some adoption →
    sessionInstanceId recipient = some binding.sessionInstanceId → adoption.session = slot.name

structure Followed (s : Naming) : Prop where
  names : OneName s.slots
  slots : ∀ (i : Nat) (slot : SessionSlot), s.slots[i]? = some slot → slot.isCanonical = true →
    slot.attached = true → ∃ binding watcher, s.Promises i slot binding watcher

section

variable {s : Naming} {i : Nat} {name : String} {link : HistoryLink} {saved : Bool}

variable {slot : SessionSlot} {binding : SessionIdentityBinding} {watcher key : String}

theorem Promises.elsewhere {s' : Naming} (hp : s.Promises i slot binding watcher)
    (he : s'.events i = s.events i) (hn : s'.notices i = s.notices i)
    (tmux : s'.tmux = s.tmux) (hr : s'.registry = s.registry) :
    ∃ binding watcher, s'.Promises i slot binding watcher :=
  ⟨binding, watcher, hp.identity, hp.watched, he ▸ hp.events,
    by rw [hn, tmux, hp.notices], hr ▸ hp.adoptions⟩

theorem Followed.renameSession (hg : s.Followed) (key name : String) :
    (s.renameSession key name).Followed := by
  unfold Naming.renameSession
  split
  · refine ⟨hg.names, fun i slot found hc ha => ?_⟩
    obtain ⟨binding, watcher, hp⟩ := hg.slots i slot found hc ha
    refine ⟨binding, watcher, hp.identity, hp.watched, hp.events, ?_, hp.adoptions⟩
    have hf : s.follows i key = decide (binding.liveSessionKey = key) := by
      simp [Naming.follows, found, hp.identity, hp.watched]
    by_cases ho : binding.liveSessionKey = key
    · simp [hf, ho]
    · simpa [hf, ho] using hp.notices
  · exact hg

theorem Followed.followSessionName (hg : s.Followed) {rest : List String}
    (har : ∀ slot binding, s.slots[i]? = some slot → slot.isCanonical = true →
      slot.attached = true → slot.identity = some binding →
      rest.getLastD name = s.tmux binding.liveSessionKey) :
    ({ s with notices := update s.notices i rest }.followSessionName i name).Followed := by
  unfold Naming.followSessionName
  split
  · next hgo =>
    refine ⟨hg.names, fun j slot hf hc ha => ?_⟩
    obtain ⟨binding, watcher, hp⟩ := hg.slots j slot hf hc ha
    have ho : j ≠ i := by
      rintro rfl
      simp [hf, hp.watched] at hgo
    exact hp.elsewhere rfl (update_of_ne ho ..) rfl rfl
  · next c hw =>
    split
    · next hs =>
      refine ⟨hg.names, fun j slot hf hc ha => ?_⟩
      obtain ⟨binding, watcher, hp⟩ := hg.slots j slot hf hc ha
      refine ⟨binding, watcher, hp.identity, hp.watched, hp.events, ?_, hp.adoptions⟩
      by_cases ho : j = i
      · subst ho
        obtain rfl : watcher = c := by simpa [hf, hp.watched] using hw
        simp only [update_self]
        exact hs ▸ har slot binding hf hc ha hp.identity
      · simp only [update_of_ne ho]
        exact hp.notices
    · refine ⟨hg.names.modify fun _ hac => ⟨hac, rfl⟩, fun j slot hf hc ha => ?_⟩
      obtain ⟨old, h, ⟨ho, rfl⟩ | ⟨rfl, rfl⟩⟩ := modify_origin hf
      · obtain ⟨binding, watcher, hp⟩ := hg.slots j _ h hc ha
        exact hp.elsewhere (update_of_ne ho ..) (update_of_ne ho ..) rfl rfl
      · obtain ⟨binding, watcher, hp⟩ := hg.slots j old h hc ha
        refine ⟨binding, name, hp.identity, rfl, ?_, ?_, hp.adoptions⟩
        · simp only [update_self, getLastD_concat]
        · simp only [update_self]
          exact har old binding h hc ha hp.identity

structure FollowedBut (s : Naming) (i : Nat) : Prop where
  names : OneName s.slots
  others : ∀ (j : Nat) (slot : SessionSlot), j ≠ i → s.slots[j]? = some slot →
    slot.isCanonical = true → slot.attached = true →
    ∃ binding watcher, s.Promises j slot binding watcher

theorem FollowedBut.detach (hg : s.FollowedBut i) : (s.detach i).Followed := by
  refine ⟨hg.names.modify fun _ hac => ⟨hac, rfl⟩, fun j slot hf hc ha => ?_⟩
  obtain ⟨old, h, ⟨ho, rfl⟩ | ⟨-, rfl⟩⟩ := modify_origin hf
  · obtain ⟨binding, watcher, hp⟩ := hg.others j _ ho h hc ha
    exact hp.elsewhere (update_of_ne ho ..) (update_of_ne ho ..) rfl rfl
  · cases ha

theorem renameSlot_session (names : OneName s.slots)
    (found : s.slots[i]? = some slot) (canonical : slot.isCanonical = true)
    {recipient : RecipientKey} {adoption : Adoption}
    (there : (s.renameSlot i name link true).registry.panes.lookup recipient = some adoption) :
    ∃ old new, s.registry.panes.lookup recipient = some old ∧
      (s.renameSlot i name link true).slots[i]? = some new ∧
      adoption.session = if old.session = slot.name then new.name else old.session := by
  obtain ⟨persistent, followed, he, way⟩ :=
    @rename_self s.slots i slot name none link names found canonical
  simp only [Naming.renameSlot, found, he] at there ⊢
  split at there
  · next same =>
    refine ⟨adoption, _, there, rfl, ?_⟩
    split
    · next under => rw [same, under]
    · rfl
  · next moved =>
    obtain rfl : followed = name := (way.resolve_left moved).1
    obtain ⟨old, h, session⟩ := session_renameSession (.symm moved) there
    exact ⟨old, _, h, rfl, session⟩

theorem renameSlot_slots :
    (s.renameSlot i name link saved).slots = renameSessionSlotLocked s.slots i name none link := by
  unfold Naming.renameSlot
  dsimp only
  split <;> rfl

theorem renameSlot_queues : (s.renameSlot i name link saved).events = s.events ∧
      (s.renameSlot i name link saved).notices = s.notices ∧
      (s.renameSlot i name link saved).tmux = s.tmux := by
  unfold Naming.renameSlot
  dsimp only
  split <;> exact ⟨rfl, rfl, rfl⟩

theorem renameSlot_idle (hi : ∀ slot, s.slots[i]? = some slot → slot.isCanonical = false) :
    s.renameSlot i name link saved = s := by
  unfold Naming.renameSlot renameSessionSlotLocked
  cases hf : s.slots[i]? with
  | none => rfl
  | some slot => simp [hi slot hf, hf]

theorem FollowedBut.renameSlot (hg : s.FollowedBut i) :
    (s.renameSlot i name link true).FollowedBut i := by
  by_cases hl : ∃ slot, s.slots[i]? = some slot ∧ slot.isCanonical = true
  · obtain ⟨slot, found, hc⟩ := hl
    refine ⟨renameSlot_slots.symm ▸ hg.names.renamed, fun j o ne ht ha hat => ?_⟩
    rw [renameSlot_slots] at ht
    have hb := rename_others ne ht ha
    obtain ⟨binding, watcher, hp⟩ := hg.others j o ne hb ha hat
    obtain ⟨he, notices, htm⟩ := @renameSlot_queues s i name link true
    refine ⟨binding, watcher, hp.identity, hp.watched, ?_, ?_, ?_⟩
    · rw [he]
      exact hp.events
    · rw [notices, htm]
      exact hp.notices
    · intro k ad ht hm
      obtain ⟨old, new, h, -, hs⟩ := renameSlot_session hg.names found hc ht
      have hu := hp.adoptions k old h hm
      rw [hs, if_neg, hu]
      -- another canonical slot has another name
      exact fun hsa => ne (hg.names j i o slot hb found ha hc (hu.symm.trans hsa))
  · rw [renameSlot_idle]
    · exact hg
    · intro slot found
      by_contra hc
      exact hl ⟨slot, found, by simpa using hc⟩

theorem Followed.followRename {rest : List String}
    (good : s.Followed) (unopposed : s.unopposed i name saved = true)
    (arrives : ∀ slot binding watcher, s.slots[i]? = some slot →
      s.Promises i slot binding watcher → rest.getLastD name = watcher) :
    ({ s with events := update s.events i rest }.followRename i name link saved).Followed := by
  obtain ⟨rfl, free⟩ : saved = true ∧ _ := and_eq_true_iff.mp unopposed
  have but : FollowedBut { s with events := update s.events i rest } i := by
    refine ⟨good.names, fun j slot ne found canonical attached => ?_⟩
    obtain ⟨binding, watcher, promises⟩ := good.slots j slot found canonical attached
    exact promises.elsewhere (update_of_ne ne ..) rfl rfl rfl
  have renamed := @FollowedBut.renameSlot _ i name link but
  unfold Naming.followRename
  split
  · next answered =>
    refine ⟨renamed.names, fun j new there canonical attached => ?_⟩
    by_cases ne : j = i
    swap
    · exact renamed.others j new ne there canonical attached
    subst ne
    rw [renameSlot_slots] at there
    cases found : s.slots[j]? with
    | none => simp [renameSessionSlotAnswer, found] at answered
    | some slot =>
      have active : slot.isCanonical = true := by
        by_contra idle
        simp [renameSessionSlotAnswer, found, idle] at answered
      obtain ⟨persistent, followed, he, -⟩ :=
        @rename_self s.slots j slot name none link good.names found active
      obtain rfl : _ = new := some.inj (he.symm.trans there)
      have accepted : ∀ other o, findOther s.slots j (·.name = name) = some (other, o) →
          refusesMerge (renameSource none slot) other = false := by
        intro other o taken
        simpa [found, taken] using free
      obtain rfl : followed = name := rename_followed found active accepted answered he
      obtain ⟨binding, watcher, promises⟩ := good.slots j slot found active attached
      obtain ⟨events, notices, tmux⟩ := @renameSlot_queues
        { s with events := update s.events j rest } j followed link true
      refine ⟨binding, watcher, promises.identity, promises.watched, ?_, ?_, ?_⟩
      · rw [events]
        simp only [update_self]
        exact arrives slot binding watcher found promises
      · rw [notices, tmux]
        exact promises.notices
      · intro recipient adoption there mine
        obtain ⟨old, new, h, same, session⟩ := renameSlot_session but.names found active there
        rw [renameSlot_slots] at same
        obtain rfl : _ = new := some.inj (he.symm.trans same)
        rw [session, if_pos (promises.adoptions recipient old h mine)]
  · exact renamed.detach

theorem Followed.but (hg : s.Followed) (i : Nat) : s.FollowedBut i :=
  ⟨hg.names, fun j slot _ => hg.slots j slot⟩

theorem getLastD_drop {xs : List String} {d w : String} (hl : xs.getLastD d = w) (n : Nat) :
    (xs.drop n).getLastD w = w := by
  cases hr : xs.drop n with
  | nil => rfl
  | cons =>
    rw [← take_append_drop n xs, hr] at hl
    rw [← hl]
    simp [getLast?_cons]

theorem Followed.missed (hg : s.Followed) (n : Nat)
    (hl : ∀ slot watcher, s.slots[i]? = some slot → slot.watcher = some watcher →
      slot.name = watcher) :
    Followed { s with events := update s.events i ((s.events i).drop n) } := by
  refine ⟨hg.names, fun j slot hf hc ha => ?_⟩
  obtain ⟨binding, watcher, hp⟩ := hg.slots j slot hf hc ha
  refine ⟨binding, watcher, hp.identity, hp.watched, ?_, hp.notices, hp.adoptions⟩
  by_cases hs : j = i
  · subst hs
    simp only [update_self]
    rw [hl slot watcher hf hp.watched]
    exact getLastD_drop hp.events n
  · simp only [update_of_ne hs]
    exact hp.events

theorem Followed.step (hg : s.Followed) {e : NameStep} (hca : s.careful e = true) :
    (s.step e).Followed := by
  cases e with simp only [Naming.step]
  | renamed key name => exact hg.renameSession key name
  | noticed i =>
    cases queue : s.notices i with
    | nil => exact hg
    | cons =>
      refine hg.followSessionName fun slot binding found hc ha hi => ?_
      obtain ⟨b', watcher, hp⟩ := hg.slots i slot found hc ha
      obtain rfl : b' = binding := some.inj (hp.identity.symm.trans hi)
      rw [← hp.notices, queue, getLastD_cons]
  | recovered i =>
    cases hk : (s.slots[i]?).bind (·.identity) with
    | none => exact hg
    | some binding =>
      have hf := @Followed.followSessionName s i (s.tmux binding.liveSessionKey) hg
        (s.notices i) fun slot b' found hc ha hi => by
          obtain rfl : b' = binding := by simpa [found, hi] using hk
          obtain ⟨binding, watcher, hp⟩ := hg.slots i slot found hc ha
          obtain rfl : binding = b' := some.inj (hp.identity.symm.trans hi)
          have hl := hp.notices
          cases queue : s.notices i with
          | nil => rfl
          | cons =>
            rw [queue, getLastD_cons] at hl
            rw [getLastD_cons]
            exact hl
      simpa only [update_eq_self] using hf
  | handled i link saved =>
    cases queue : s.events i with
    | nil => exact hg
    | cons name =>
      have hu : s.unopposed i name saved = true := by
        simpa [Naming.careful, queue] using hca
      refine hg.followRename hu fun slot binding watcher _ hp => ?_
      rw [← hp.events, queue, getLastD_cons]
  | lagged i m link saved =>
    cases found : s.slots[i]? with
    | none => exact hg.missed m (by simp [found])
    | some slot =>
      dsimp only
      have only : ∀ slot', s.slots[i]? = some slot' → slot = slot' :=
        fun slot' hf' => some.inj (found.symm.trans hf')
      cases hw : slot.watcher with
      | none =>
        refine hg.missed m fun slot' watcher hf' hw' => ?_
        obtain rfl := only slot' hf'
        cases hw.symm.trans hw'
      | some live =>
        dsimp only
        split
        · next level =>
          refine hg.missed m fun slot' watcher hf' hw' => ?_
          obtain rfl := only slot' hf'
          exact level.trans (some.inj (hw.symm.trans hw'))
        · have hu : s.unopposed i live saved = true := by
            simpa [Naming.careful, found, hw] using hca
          have he : ∀ slot' binding watcher, s.slots[i]? = some slot' →
              s.Promises i slot' binding watcher → ((s.events i).drop m).getLastD live =
                watcher := by
            intro slot' binding watcher hf' hp
            obtain rfl := only slot' hf'
            obtain rfl : live = watcher := some.inj (hw.symm.trans hp.watched)
            exact getLastD_drop hp.events m
          exact hg.followRename hu he
  | detached i => exact (hg.but i).detach

end

structure Converged (s : Naming) : Prop where
  slots : ∀ (i : Nat) (slot : SessionSlot), s.slots[i]? = some slot → slot.isCanonical = true →
    slot.attached = true → ∃ binding, slot.identity = some binding ∧
      slot.name = s.tmux binding.liveSessionKey
  adoptions : ∀ (i : Nat) (slot : SessionSlot), s.slots[i]? = some slot →
    slot.isCanonical = true → slot.attached = true → ∀ binding, slot.identity = some binding →
    ∀ recipient adoption, s.registry.panes.lookup recipient = some adoption →
      sessionInstanceId recipient = some binding.sessionInstanceId →
      adoption.session = s.tmux binding.liveSessionKey

def Watched (s : Naming) : Prop :=
  ∀ (i : Nat) (slot : SessionSlot), s.slots[i]? = some slot → slot.isCanonical = true →
    slot.attached = true → slot.watcher = some slot.name

theorem Followed.of_converged {s : Naming} (hn : OneName s.slots) (hco : s.Converged)
    (hw : s.Watched) (hq : s.Quiet) : s.Followed := by
  refine ⟨hn, fun i slot hf hc ha => ?_⟩
  obtain ⟨binding, identity, name⟩ := hco.slots i slot hf hc ha
  refine ⟨binding, slot.name, identity, hw i slot hf hc ha, ?_, ?_, ?_⟩
  · rw [(hq i (List.getElem?_eq_some_iff.mp hf).1).2]
    rfl
  · rw [(hq i (List.getElem?_eq_some_iff.mp hf).1).1]
    exact name
  · intro k ad ht hm
    rw [name]
    exact hco.adoptions i slot hf hc ha binding identity k ad ht hm

theorem Followed.converged {s : Naming} (hg : s.Followed) (hq : s.Quiet) : s.Converged := by
  have hl : ∀ {i : Nat} {slot : SessionSlot} {binding : SessionIdentityBinding}
      {watcher : String}, s.slots[i]? = some slot → s.Promises i slot binding watcher →
      slot.name = s.tmux binding.liveSessionKey := by
    intro i slot binding watcher hf hp
    obtain ⟨hno, hnoe⟩ := hq i (List.getElem?_eq_some_iff.mp hf).1
    have he := hp.events
    have hn := hp.notices
    rw [hnoe] at he
    rw [hno] at hn
    exact he.trans hn
  refine ⟨fun i slot hf hc ha => ?_, fun i slot hf hc ha binding hi k ad ht hm => ?_⟩
  · obtain ⟨binding, watcher, hp⟩ := hg.slots i slot hf hc ha
    exact ⟨binding, hp.identity, hl hf hp⟩
  · obtain ⟨b', watcher, hp⟩ := hg.slots i slot hf hc ha
    obtain rfl : b' = binding := some.inj (hp.identity.symm.trans hi)
    exact (hp.adoptions k ad ht hm).trans (hl hf hp)

end Naming

/-- After every careful run, once the queues are empty, slots and adoptions have the names tmux
gives. -/
theorem names_converge {s : Naming} {steps : List NameStep} (names : OneName s.slots)
    (converged : s.Converged) (watched : s.Watched) (quiet : s.Quiet)
    (careful : Runs.Along Naming.step (fun s e => s.careful e = true) s steps)
    (handled : (steps.foldl Naming.step s).Quiet) :
    (steps.foldl Naming.step s).Converged := by
  have hg := careful.invariant _ (fun s e (hg : s.Followed) careful => hg.step careful)
    (.of_converged names converged watched quiet)
  exact hg.converged handled

/-! ## Two sessions -/

def attachedSlot (name : String) (binding : SessionIdentityBinding) : SessionSlot where
  name
  persistent := false
  observedLive := true
  attached := true
  identity := some binding
  watcher := some name

def adoptedPane : RecipientKey := ⟨⟨⟨1, Uuid.one_ne_zero⟩⟩, .agent otherSession.sessionInstanceId ⟨2⟩⟩

def adoptedRow : Adoption where
  session := "b"
  paneId := "%2"
  label := "reviewer"
  recipient := some adoptedPane
  paneRoot := some ⟨100, 7, Nat.succ_pos 99, Nat.succ_pos 6⟩
  manifest := none
  panePid := 100
  windowId := "@0"
  borderFormat := none

def twoSessions : Naming where
  slots := [attachedSlot "a" liveSession, attachedSlot "b" otherSession]
  registry := Registry.load [adoptedRow] []
  live := ["$1", "$2"]
  tmux key := if key = "$1" then "a" else "b"
  notices _ := []
  events _ := []

theorem twoSessions_slot {i : Nat} {slot : SessionSlot} (hf : twoSessions.slots[i]? = some slot) :
    (i = 0 ∧ slot = attachedSlot "a" liveSession) ∨
      (i = 1 ∧ slot = attachedSlot "b" otherSession) := by
  match i with
  | 0 => exact .inl ⟨rfl, (some.inj hf).symm⟩
  | 1 => exact .inr ⟨rfl, (some.inj hf).symm⟩
  | i + 2 => cases hf

theorem twoSessions_names : OneName twoSessions.slots := by
  intro i j a b ha hb _ _ hs
  obtain ⟨rfl, rfl⟩ | ⟨rfl, rfl⟩ := twoSessions_slot ha <;>
    obtain ⟨rfl, rfl⟩ | ⟨rfl, rfl⟩ := twoSessions_slot hb
  · rfl
  · exact absurd hs (by decide)
  · exact absurd hs (by decide)
  · rfl

theorem twoSessions_watched : twoSessions.Watched := by
  intro i slot hf _ _
  obtain ⟨-, rfl⟩ | ⟨-, rfl⟩ := twoSessions_slot hf <;> rfl

theorem twoSessions_converged : twoSessions.Converged := by
  refine ⟨fun i slot hf _ _ => ?_, ?_⟩
  · obtain ⟨-, rfl⟩ | ⟨-, rfl⟩ := twoSessions_slot hf
    · exact ⟨liveSession, rfl, rfl⟩
    · exact ⟨otherSession, rfl, rfl⟩
  · intro i slot hf _ _ binding hi k ad ht hm
    have hr : k = adoptedPane ∧ ad = adoptedRow := by
      simp only [twoSessions, load, foldl_cons, foldl_nil, file,
        adoptedRow, lookup_insert_ite] at ht
      split at ht
      · next same => exact ⟨same, (some.inj ht).symm⟩
      · cases ht
    obtain ⟨rfl, rfl⟩ := hr
    obtain ⟨-, rfl⟩ | ⟨-, rfl⟩ := twoSessions_slot hf
    · obtain rfl : liveSession = binding := some.inj hi
      exact absurd hm (by decide)
    · obtain rfl : otherSession = binding := some.inj hi
      rfl

/-- The first session gives up `a`, the second takes it; both watchers follow. -/
def nameHandedOn : List NameStep :=
  [.renamed "$1" "c", .renamed "$2" "a", .noticed 0, .noticed 1]

/-- The task of the first slot comes first. -/
theorem name_handed_on :
    (([NameStep.handled 0 linked true, .handled 1 linked true].foldl Naming.step
      (nameHandedOn.foldl Naming.step twoSessions))).Converged := by
  rw [← foldl_append]
  exact names_converge twoSessions_names twoSessions_converged twoSessions_watched
    (by decide) (by decide) (by decide)

/-- The task of the second slot comes first: its rename is refused, and is not repeated. -/
theorem name_refused_for_good :
    OneName twoSessions.slots ∧ twoSessions.Converged ∧ twoSessions.Watched ∧ twoSessions.Quiet ∧
    let s := [NameStep.handled 1 linked true, .handled 0 linked true].foldl .step
      (nameHandedOn.foldl .step twoSessions)
    s.Quiet ∧
      (s.slots[1]?).map (fun slot => (slot.isCanonical, slot.attached, slot.identity, slot.name)) =
        some (true, true, some otherSession, "b") ∧
      s.tmux otherSession.liveSessionKey = "a" ∧
      (s.registry.panes.lookup adoptedPane).map Adoption.session = some "b" ∧ ¬s.Converged := by
  refine ⟨twoSessions_names, twoSessions_converged, twoSessions_watched, by decide,
    by decide, by decide, by decide, by decide, ?_⟩
  intro hc
  have hs : (([NameStep.handled 1 linked true, .handled 0 linked true].foldl .step
      (nameHandedOn.foldl .step twoSessions)).slots[1]?) =
      some { attachedSlot "b" otherSession with watcher := some "a" } := by decide
  obtain ⟨binding, identity, name⟩ := hc.slots 1 _ hs rfl rfl
  obtain rfl : otherSession = binding := some.inj identity
  revert name
  decide

end Cyclops.Session
