import Cyclops.Daemon.Emission
import Cyclops.Lib.Lane

/-!
# One wake at a time

Each recipient's mailbox is a lane that the daemon serves from its front: a wake is queued only for
the first entry whose own wake has not ended.

Result: `in_flight_unique`.
-/

namespace Cyclops

open Checked FiniteMap Board List Bool MailboxService

def inFlight (state : NotificationState) : Bool :=
  state matches .queued | .gating | .writing | .submitted | .submittedUnverified

namespace Board

/-- The lanes are served in order. -/
structure InOrder (b : Board) : Prop where
  distinct : ∀ r, (b.lane r).Nodup
  listed : ∀ {r m}, m ∈ b.lane r ↔ b.entry (r, m) ≠ none
  noted : ∀ {key}, b.record key ≠ none → b.entry key ≠ none
  claimed : ∀ {key attemptId at_}, b.entry key ≠ some (.deliveredDirect attemptId at_)
  replaced : ∀ {key by_ at_ record}, b.entry key = some (.superseded by_ at_) →
    b.record key = some record → record.state = .superseded
  served : ∀ r, Lane.Served (b.lane r) (fun m => b.record (r, m) ≠ none)
    fun m => b.actionable (r, m) = false

variable {b : Board} {key : EntryKey}

/-! ## What makes an entry actionable -/

theorem actionable_congr {b' : Board} (he : b'.entry key = b.entry key)
    (hr : b'.record key = b.record key) : b'.actionable key = b.actionable key := by
  simp only [actionable, he, hr]

theorem actionable_of_inFlight (h : b.InOrder) {r : NotificationRecord}
    (held : b.record key = some r) (hf : inFlight r.state = true) :
    b.actionable key = true := by
  cases he : b.entry key with
  | none => exact absurd he (h.noted (by simp [held]))
  | some s =>
    cases s with
    | pending | claimed =>
      simp only [actionable, he, held]
      revert hf
      cases r.state <;> decide
    | superseded =>
      rw [h.replaced he held] at hf
      cases hf
    | deliveredDirect => exact absurd he h.claimed

variable {c : NotificationRecord} {next : NotificationState}
  {cause : Option NotificationPreWriteCause}

theorem unsettledWake_of_allowed (ha : notificationTransitionAllowed c next cause false = true)
    (he : unsettledWake c.state = false)
    (hb : unsettledWake next = true) : next = .gating := by
  rcases transitionAllowed_live.mp ha with ha | ⟨-, rfl, -⟩
  · revert ha he hb
    cases c.state <;> cases next <;> decide
  · cases hb

theorem Moves.not_ended {next : NotificationRecord} (hm : b.Moves false key c next) :
    c.state ≠ .withdrawnByOperator ∧ c.state ≠ .superseded := by
  cases hm with
  | transition line fact _ _ hch =>
    rcases transitionAllowed_live.mp hch.allowed with ha | ⟨hw, -⟩
    · revert ha
      cases c.state <;> cases fact.state <;> decide
    · rw [hw]
      decide
  | reminded line _ hn =>
    rw [hn]
    decide
  | settled line _ hc =>
    constructor <;>
    · intro hs
      rw [hs] at hc
      exact hc rfl

theorem actionable_move {next : NotificationRecord} {seq : Nat} (held : b.record key = some c)
    (hm : b.Moves false key c next) (hl : b.Live (.move key next seq))
    (hp : b.actionable key = false) :
    (b.act (.move key next seq)).actionable key = false := by
  have he : (b.act (.move key next seq)).entry key = b.entry key := by simp [act, hold]
  have hr : (b.act (.move key next seq)).record key = some next := by simp [act, hold]
  simp only [actionable, he, hr]
  split
  · next hpe =>
    simp only [actionable, hpe, held, bne_eq_false_iff_eq] at hp
    exact absurd hp hm.not_ended.1
  · next hc =>
    simp only [actionable, hc, held] at hp
    by_contra hb
    rw [not_eq_false] at hb
    cases hm with
    | transition line fact _ _ hch =>
      have hg := unsettledWake_of_allowed hch.allowed hp hb
      rw [(hl.2 hg).1] at hc
      cases hc
    | reminded line hpen | settled line hpen =>
      rw [hpen] at hc
      cases hc
  · rfl

namespace InOrder

variable {b' : Board} {s : MailboxEntryState} (h : b.InOrder)
include h

theorem touch (key : EntryKey) (hl : b'.lane = b.lane) (he : ∀ k, k ≠ key → b'.entry k = b.entry k)
    (record : ∀ k, k ≠ key → b'.record k = b.record k) (hf : b.entry key ≠ none)
    (hf' : b'.entry key ≠ none)
    (claimed : ∀ a at_, b'.entry key ≠ some (.deliveredDirect a at_))
    (replaced : ∀ by_ at_ record, b'.entry key = some (.superseded by_ at_) →
      b'.record key = some record → record.state = .superseded)
    (hp : b.actionable key = false → b'.actionable key = false)
    (served : ∀ r, Lane.Served (b.lane r) (fun m => b'.record (r, m) ≠ none)
      fun m => b.actionable (r, m) = false) : b'.InOrder where
  distinct := fun r => hl ▸ h.distinct r
  listed := by
    intro r m
    rw [hl, h.listed]
    by_cases hke : (r, m) = key
    · exact iff_of_true (hke ▸ hf) (hke ▸ hf')
    · rw [he _ hke]
  noted := by
    intro k hk
    by_cases hke : k = key
    · exact hke ▸ hf'
    · rw [record k hke] at hk
      rw [he k hke]
      exact h.noted hk
  claimed := by
    intro k a at_
    by_cases hke : k = key
    · exact hke ▸ claimed a at_
    · rw [he k hke]
      exact h.claimed
  replaced := by
    intro k by_ at_ held hk hh
    by_cases hke : k = key
    · subst hke
      exact replaced by_ at_ held hk hh
    · rw [he k hke] at hk
      rw [record k hke] at hh
      exact h.replaced hk hh
  served := by
    intro r
    rw [hl]
    refine (served r).mono (fun _ _ hb => hb) fun m _ hm => ?_
    by_cases hke : (r, m) = key
    · rw [hke] at hm ⊢
      exact hp hm
    · rw [actionable_congr (he _ hke) (record _ hke)]
      exact hm

theorem served_of_started (hs : ∀ k, b'.record k ≠ none → b.record k ≠ none) (r : RecipientKey) :
    Lane.Served (b.lane r) (fun m => b'.record (r, m) ≠ none)
      fun m => b.actionable (r, m) = false :=
  (h.served r).mono (fun _ _ hm => hs _ hm) fun _ _ hm => hm

theorem file {mid : MessageId} {ks : List RecipientKey} (hg : b.Guard false (.file mid ks)) :
    (b.act (.file mid ks)).InOrder := by
  obtain ⟨-, hf⟩ := hg
  have hno : ∀ r, b.record (r, mid) = none := fun r =>
    by_contra fun hs => h.noted hs (hf r).1
  have he : ∀ k, b.entry k ≠ none → (b.act (.file mid ks)).entry k = b.entry k := by
    intro k hk
    refine if_neg fun hn => hk ?_
    obtain ⟨r, m⟩ := k
    have hm : m = mid := hn.2
    exact hm ▸ (hf r).1
  refine {
    distinct := fun r => ?_, listed := ?_, noted := fun hk => ?_, claimed := ?_
    replaced := ?_, served := fun r => ?_ }
  · simp only [act]
    split
    · exact nodup_append.mpr ⟨h.distinct r, nodup_singleton _, fun a ha b hb hab =>
        (hf r).2 (mem_singleton.mp hb ▸ hab ▸ ha)⟩
    · exact h.distinct r
  · intro r m
    by_cases hn : r ∈ ks ∧ m = mid
    · simp [act, hn]
    · simp only [act, if_neg hn, ← h.listed]
      split
      · next hr => simp [show m ≠ mid from fun hm => hn ⟨hr, hm⟩]
      · rfl
  · rw [he _ (h.noted hk)]
    exact h.noted hk
  · intro k ai at_ hk
    simp only [act] at hk
    split at hk
    · cases hk
    · exact h.claimed hk
  · intro k by_ at_ record hk held
    simp only [act] at hk
    split at hk
    · cases hk
    · exact h.replaced hk held
  · have hke : Lane.Served (b.lane r) (fun m => b.record (r, m) ≠ none)
        fun m => (b.act (.file mid ks)).actionable (r, m) = false := by
      refine (h.served r).mono (fun _ _ hm => hm) fun m hm hp => ?_
      rw [actionable_congr (he _ (h.listed.mp hm)) rfl]
      exact hp
    simp only [act] at hke ⊢
    split
    · exact hke.append fun hs => hs (hno r)
    · exact hke

theorem settle (hg : b.Guard false (.settle key s)) (hl : b.Live (.settle key s)) :
    (b.act (.settle key s)).InOrder := by
  obtain ⟨hpe, -⟩ := hg
  obtain ⟨claimant, at_, rfl⟩ := hl
  have he : (b.act (.settle key (.claimed claimant at_))).entry key =
      some (.claimed claimant at_) := by simp [act]
  refine h.touch key rfl (fun k hk => by simp [act, hk]) (fun _ _ => rfl)
    (by simp [hpe]) (by simp [he]) (by simp [he]) (by simp [he]) ?_
    (h.served_of_started fun _ hk => hk)
  -- A pending entry whose wake has ended was withdrawn by an operator.
  intro hp
  have hr : (b.act (.settle key (.claimed claimant at_))).record key = b.record key := rfl
  simp only [actionable, hpe] at hp
  simp only [actionable, he, hr]
  split at hp
  · next r held =>
    rw [bne_eq_false_iff_eq] at hp
    simp [hp, unsettledWake]
  · cases hp

theorem supersede {r : Option NotificationRecord} (hg : b.Guard false (.supersede key s r)) :
    (b.act (.supersede key s r)).InOrder := by
  obtain ⟨hp, ⟨by_, at_, rfl⟩, ⟨line, rfl⟩, -⟩ := hg
  set b' := b.act (.supersede key (.superseded by_ at_) ((b.record key).map (supersededRecord line)))
    with hb'
  have he : b'.entry key = some (.superseded by_ at_) := by simp [hb', act]
  have hr : ∀ k, b'.record k =
      if k = key then (b.record key).map (supersededRecord line) else b.record k := by
    intro k
    cases held : b.record key with
    | none =>
      by_cases hk : k = key
      · simp [hb', act, held, hk]
      · simp [hb', act, held, hk]
    | some => simp [hb', act, held, Function.update_apply]
  refine h.touch key rfl (fun k hk => by simp [hb', act, hk])
    (fun k hk => by rw [hr, if_neg hk]) (by simp [hp]) (by simp [he])
    (by simp [he]) ?_ (fun _ => by simp [actionable, he])
    (h.served_of_started fun k hk => ?_)
  · intro _ _ held _ hh
    rw [hr, if_pos rfl, Option.map_eq_some_iff] at hh
    obtain ⟨c, -, rfl⟩ := hh
    rfl
  · rw [hr] at hk
    split at hk
    · next hke => simpa [hke] using hk
    · exact hk

variable {rec : NotificationRecord}

theorem start (hg : b.Guard false (.start key rec)) (hli : b.Live (.start key rec)) :
    (b.act (.start key rec)).InOrder := by
  obtain ⟨hp, -, -, ⟨line, hq⟩, hh⟩ := hg
  have hre : ∀ k, (b.act (.start key rec)).record k =
      if k = key then some rec else b.record k := fun k => by
    simp [act, hold, Function.update_apply]
  have ha : b.actionable key = true := by
    simp only [actionable, hp]
    split
    · next c held =>
      rcases hh c held with hst | hst <;> rw [hst] <;> rfl
    · rfl
  refine h.touch key rfl (fun _ _ => rfl) (fun k hk => by rw [hre, if_neg hk])
    (by simp [hp]) (show b.entry key ≠ none by simp [hp]) (fun _ _ => h.claimed)
    (fun _ _ _ hs _ => ?_) (fun hpa => ?_) fun r => ?_
  · rw [show b.entry key = _ from hs] at hp
    cases hp
  · rw [ha] at hpa
    cases hpa
  · by_cases hr : r = key.1
    · cases hn : b.record key with
      | some =>
        refine h.served_of_started (fun k hk => ?_) r
        rw [hre] at hk
        split at hk
        · next hke => simp [hke, hn]
        · exact hk
      | none =>
        subst hr
        obtain ⟨bef, after, hl, hb, -⟩ := hli hn
        have hse := h.served key.1
        have hdi := h.distinct key.1
        rw [hl] at hse hdi ⊢
        refine hse.start hb (by simp [ha]) ?_ fun m hm => ?_
        · exact (nodup_cons.mp (nodup_append.mp hdi).2.1).1
        · rw [hre] at hm
          split at hm
          · next hke => exact .inr (congrArg Prod.snd hke)
          · exact .inl hm
    · refine (h.served r).mono (fun m _ hm => ?_) fun _ _ hm => hm
      rwa [hre, if_neg fun hke => hr (congrArg Prod.fst hke)] at hm

theorem move {seq : Nat} (hg : b.Guard false (.move key rec seq))
    (hl : b.Live (.move key rec seq)) :
    (b.act (.move key rec seq)).InOrder := by
  obtain ⟨c, held, hm⟩ := hg
  have hso : b.record key ≠ none := by simp [held]
  have he : (b.act (.move key rec seq)).entry = b.entry := by simp [act, hold]
  refine h.touch key (by simp [act, hold]) (fun _ _ => by rw [he])
    (fun k hk => by simp [act, hold, hk]) (h.noted hso) (he ▸ h.noted hso)
    (fun _ _ => he ▸ h.claimed) ?_ (actionable_move held hm hl)
    (h.served_of_started fun k hk => ?_)
  · intro by_ at_ _ hs _
    rw [he] at hs
    exact absurd (h.replaced hs held) hm.not_ended.2
  · by_cases hke : k = key
    · exact hke ▸ hso
    · simpa [act, hold, hke] using hk

theorem put (hg : b.Guard false (.put key rec)) (hl : b.Live (.put key rec)) :
    (b.act (.put key rec)).InOrder := by
  obtain ⟨c, held, hen⟩ := hg
  have hso : b.record key ≠ none := by simp [held]
  have hst : rec.state = .withdrawnByOperator := hl
  have hr : (b.act (.put key rec)).record key = some rec := by simp [act, hold]
  refine h.touch key rfl (fun _ _ => rfl) (fun k hk => by simp [act, hold, hk])
    (h.noted hso) (h.noted hso) (fun _ _ => h.claimed) ?_ (fun _ => ?_)
    (h.served_of_started fun k hk => ?_)
  · intro by_ at_ _ hs _
    have he := h.replaced hs held
    cases hen with
    | withdrawn line a _ _ _ hu =>
      rw [he] at hu
      rcases hu with hca | ⟨hre, -⟩
      · cases hca
      · cases hre
    | stagedCleared line hcl | reconciled line hcl =>
      obtain ⟨_, hc⟩ := hcl
      rw [show b.entry key = _ from hs] at hc
      cases hc
  · simp only [actionable, hr, hst]
    split <;> rfl
  · by_cases hke : k = key
    · exact hke ▸ hso
    · simpa [act, hold, hke] using hk

theorem act {a : Action} (hg : b.Guard false a) (hl : b.Live a) : (b.act a).InOrder := by
  cases a with
  | file => exact h.file hg
  | settle => exact h.settle hg hl
  | supersede => exact h.supersede hg
  | start => exact h.start hg hl
  | move => exact h.move hg hl
  | put => exact h.put hg hl
  | release => exact hl.elim

theorem unique {r : RecipientKey} {m m' : MessageId} {r' : NotificationRecord}
    (held : b.record (r, m) = some rec) (he' : b.record (r, m') = some r')
    (hf : inFlight rec.state = true) (hf' : inFlight r'.state = true) :
    m = m' := by
  have hs : b.record (r, m) ≠ none := by simp [held]
  have hs' : b.record (r, m') ≠ none := by simp [he']
  refine (h.served r).unique (h.listed.mpr (h.noted hs)) (h.listed.mpr (h.noted hs')) hs ?_ hs' ?_
  · simp [actionable_of_inFlight h held hf]
  · simp [actionable_of_inFlight h he' hf']

end InOrder

end Board

variable [DigestScheme]

theorem Journal.inOrder {w : WorkspaceId} {ls : List LedgerLine}
    {p : MailboxProjection} (h : Journal Emits w ls p) : p.board.InOrder := by
  refine h.board_invariant InOrder (fun _ _ _ _ he hm => he.live hm) ?_
    fun b a hb hg hl => hb.act hg hl
  exact {
    distinct := fun _ => nodup_nil
    listed := ⟨fun h => (nomatch h), fun h => absurd rfl h⟩
    noted := fun h => absurd rfl h
    claimed := fun h => (nomatch h)
    replaced := fun h => (nomatch h)
    served := fun _ => .nil }

/-- In every run a recipient has at most one wake in flight. -/
theorem in_flight_unique (workspaceId : WorkspaceId) (bootId : String) (ops : List Operation)
    (r : RecipientKey) :
    let p := ((Daemon.start workspaceId bootId).run ops).store.projection
    ((values p.notifications).filter fun record =>
      record.recipient = r ∧ inFlight record.state = true).length ≤ 1 := by
  intro p
  have hs := Daemon.sound_run workspaceId bootId ops
  have hp := hs.reachable.coherent
  have ho := hs.journal.inOrder
  refine length_filter_le_one (pairwise_values fun key record key' r' held he' hne => ?_)
  simp only [decide_eq_true_eq]
  rintro ⟨⟨hr, hf⟩, hr', hf'⟩
  obtain ⟨hk, -⟩ := hp.noted held
  obtain ⟨hk', -⟩ := hp.noted he'
  have hsa : key'.1 = key.1 := by rw [← hk, ← hk', hr, hr']
  exact hne (Prod.ext hsa.symm (ho.unique held
    (show p.board.record (key.1, key'.2) = _ from hsa ▸ he') hf hf'))

end Cyclops
