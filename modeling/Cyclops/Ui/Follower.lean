import Cyclops.Lib.Paging
import Cyclops.Mailbox.Snapshot
import Cyclops.Ui.Refresh

/-!
# The message follower

The follower turns pages of a workspace's messages into stream entries.

Result: `follower_shows_each_once`.
-/

namespace Cyclops

open List Paging

structure Entry where
  ts : Nat
  id : String
  sentFrom : String
  sentTo : List String
  sender : RecipientKey
  recipients : List RecipientKey
  subject : String
  fyi : Bool

def streamEntry (row : MessageSnapshotRow) : Entry where
  ts := row.ts
  id := row.messageId.text
  sentFrom := row.senderLabel
  sentTo := row.recipients.map fun r => (r.currentRoute.map (·.label)).getD r.label
  sender := row.sender
  recipients := row.recipients.map (·.recipient)
  subject := row.subject.getD ""
  fyi := row.kind = .fyi

def followPageLimit : Nat := 128

structure FollowRequest where
  generation : UInt64
  request : UInt64
  afterSeq : Nat
  limit : Nat
deriving DecidableEq

structure MessageFollower where
  workspaceId : Option WorkspaceId := none
  cursor : Option Nat := none
  firstUnseenEdge : Option Nat := none
  targetSeq : Option Nat := none
  inFlight : Option FollowRequest := none
  generation : UInt64 := 0
  nextRequest : UInt64 := 0
  faulted : Bool := false

namespace MessageFollower

variable (f : MessageFollower)

def connected : MessageFollower :=
  { f with generation := f.generation + 1, inFlight := none, faulted := false }

def disconnected : MessageFollower :=
  { f with generation := f.generation + 1, inFlight := none }

def enter (workspaceId : WorkspaceId) : MessageFollower :=
  if f.workspaceId.any (· ≠ workspaceId) then
    { f with
      workspaceId := some workspaceId
      cursor := none
      firstUnseenEdge := none
      targetSeq := none
      inFlight := none }
  else { f with workspaceId := some workspaceId }

def aim (seq : Nat) : MessageFollower :=
  { f with targetSeq := some (f.targetSeq.elim seq (max · seq)) }

def changed (head : WorkspaceHead) : MessageFollower :=
  let f := f.enter head.workspaceId
  let f := if f.cursor = none then
      { f with
        firstUnseenEdge :=
          some (f.firstUnseenEdge.elim head.workspaceSeq (min · head.workspaceSeq)) }
    else f
  f.aim head.workspaceSeq

/-- Only the first snapshot may set the cursor directly. -/
def baseline (snapshot : WorkspaceHead) : MessageFollower :=
  let f := f.enter snapshot.workspaceId
  let f := if f.cursor = none then
      { f with cursor := some (f.firstUnseenEdge.elim snapshot.workspaceSeq (· - 1)) }
    else f
  { f.aim snapshot.workspaceSeq with firstUnseenEdge := none }

def begin : MessageFollower × Option FollowRequest :=
  match f.cursor, f.targetSeq with
  | some cursor, some target =>
    if f.faulted ∨ f.inFlight.isSome ∨ target ≤ cursor then (f, none)
    else
      let request := ⟨f.generation, f.nextRequest + 1, cursor, followPageLimit⟩
      ({ f with nextRequest := f.nextRequest + 1, inFlight := some request }, some request)
  | _, _ => (f, none)

/-- Rows go up from the cursor, not beyond the end of the page. -/
def rowsValid (request : FollowRequest) (page : MessagesFollowResult) : Bool :=
  page.rows.length ≤ request.limit && (page.rows.foldlM (fun prior row =>
    if prior < row.seq ∧ row.seq ≤ page.throughSeq then some row.seq else none)
    request.afterSeq).isSome

def finish (request : FollowRequest) (page : MessagesFollowResult) :
    MessageFollower × Except String (List Entry) :=
  if f.inFlight ≠ some request then (f, .ok [])
  else if request.generation ≠ f.generation ∨ f.workspaceId ≠ some page.workspaceId ∨
      page.afterSeq ≠ request.afterSeq ∨ page.throughSeq < request.afterSeq ∨
      (page.hasMore ∧ page.throughSeq = request.afterSeq) ∨ rowsValid request page = false ∨
      (page.hasMore ∧ page.rows.getLast?.map (·.seq) ≠ some page.throughSeq) then
    ({ f with inFlight := none, faulted := true }, .error "invalid durable message cursor page")
  else
    ({ f.aim page.throughSeq with inFlight := none, cursor := some page.throughSeq },
      .ok (page.rows.map streamEntry))

def failed (request : FollowRequest) : MessageFollower × Bool :=
  if f.inFlight ≠ some request then (f, false)
  else ({ f with inFlight := none, faulted := true }, true)

end MessageFollower

/-! ## What happened to a follower -/

/-- What the connection and the caller do with a follower. -/
inductive FollowOp where
  | connect
  | disconnect
  | edge (head : WorkspaceHead)
  | snapshot (head : WorkspaceHead)
  | ask
  | answer (request : FollowRequest) (page : MessagesFollowResult)
  | fail (request : FollowRequest)

structure FollowLog where
  f : MessageFollower := {}
  first : Option Nat := none
  named : List Nat := []
  /-- The accepted snapshots. -/
  snapshots : List WorkspaceHead := []
  emitted : List Entry := []
  outstanding : List FollowRequest := []

/-- One event; the log keeps what was named, asked and shown. -/
def FollowLog.step (s : FollowLog) : FollowOp → FollowLog
  | .connect => { s with f := s.f.connected, outstanding := [] }
  | .disconnect => { s with f := s.f.disconnected, outstanding := [] }
  | .edge head => { s with f := s.f.changed head, named := head.workspaceSeq :: s.named }
  | .snapshot head =>
    { s with
      f := s.f.baseline head
      first := s.first.or (s.f.baseline head).cursor
      named := head.workspaceSeq :: s.named
      snapshots := head :: s.snapshots }
  | .ask =>
    { s with f := s.f.begin.1, outstanding := s.f.begin.2.toList ++ s.outstanding }
  | .answer request page =>
    { s with
      f := (s.f.finish request page).1
      emitted := s.emitted ++ (s.f.finish request page).2.toOption.getD []
      outstanding := s.outstanding.erase request }
  | .fail request =>
    { s with f := (s.f.failed request).1, outstanding := s.outstanding.erase request }

def FollowOp.Honest (w : WorkspaceId) (visible : List (String × Nat)) : FollowOp → Prop
  | .edge head | .snapshot head => head.workspaceId = w
  | .answer _ page => page.workspaceId = w → page.rows.map (fun row => row.messageId.text) =
      (visible.filter fun m => page.afterSeq < m.2 ∧ m.2 ≤ page.throughSeq).map Prod.fst
  | _ => True

structure FollowLog.Sound (w : WorkspaceId) (visible : List (String × Nat)) (s : FollowLog) :
    Prop where
  workspace : s.f.workspaceId = none ∨ s.f.workspaceId = some w
  outstanding : s.outstanding = s.f.inFlight.toList
  asked : ∀ r, s.f.inFlight = some r → s.f.cursor = some r.afterSeq
  based : s.f.cursor = none ↔ s.snapshots = []
  first : s.f.cursor = none → s.first = none ∧ s.emitted = []
  shown : ∀ c, s.f.cursor = some c → ∃ a, s.first = some a ∧ a ≤ c ∧ s.emitted.map (·.id) =
    (visible.filter fun m => a < m.2 ∧ m.2 ≤ c).map Prod.fst
  target : ∀ n ∈ s.named, ∃ t, s.f.targetSeq = some t ∧ n ≤ t
  aimed : ∀ t, s.f.targetSeq = some t → t ∈ s.named ∨ ∃ c, s.f.cursor = some c ∧ t ≤ c

namespace MessageFollower

variable {f : MessageFollower} {seq n t : Nat}

theorem aim_of_le (h : n = seq ∨ ∃ t, f.targetSeq = some t ∧ n ≤ t) :
    ∃ t, (f.aim seq).targetSeq = some t ∧ n ≤ t := by
  refine ⟨_, rfl, ?_⟩
  obtain rfl | ⟨t, ht, hle⟩ := h
  · cases f.targetSeq <;> simp
  · simp [ht, hle]

theorem aim_eq (h : (f.aim seq).targetSeq = some t) : t = seq ∨ f.targetSeq = some t := by
  cases ht : f.targetSeq with
  | none => exact .inl (by simpa [aim, ht, eq_comm] using h)
  | some t' =>
    obtain rfl : max t' seq = t := by simpa [aim, ht] using h
    rcases le_total t' seq with hle | hle
    · exact .inl (max_eq_right hle)
    · exact .inr (by rw [max_eq_left hle])

theorem enter_eq {w : WorkspaceId} (h : f.workspaceId = none ∨ f.workspaceId = some w) :
    f.enter w = { f with workspaceId := some w } := by
  rw [enter, if_neg]
  rcases h with h | h <;> simp [h]

end MessageFollower

theorem filter_between {visible : List (String × Nat)} {a b c : Nat}
    (ha : visible.Pairwise fun m m' => m.2 < m'.2) (hab : a ≤ b) (hbc : b ≤ c) :
    (visible.filter fun m => a < m.2 ∧ m.2 ≤ b) ++ (visible.filter fun m => b < m.2 ∧ m.2 ≤ c) =
      visible.filter fun m => a < m.2 ∧ m.2 ≤ c := by
  refine eq_of_ascending (pairwise_append.mpr ⟨ha.filter _, ha.filter _, ?_⟩) (ha.filter _) ?_
  · intro m hm m' hm'
    simp only [mem_filter, decide_eq_true_eq] at hm hm'
    omega
  · intro m
    simp only [mem_append, mem_filter, decide_eq_true_eq]
    constructor
    · rintro (⟨hv, h⟩ | ⟨hv, h⟩)
      · exact ⟨hv, by omega⟩
      · exact ⟨hv, by omega⟩
    · rintro ⟨hv, h⟩
      rcases le_or_gt m.2 b with hb | hb
      · exact .inl ⟨hv, by omega⟩
      · exact .inr ⟨hv, by omega⟩

namespace FollowLog

variable {w : WorkspaceId} {v : List (String × Nat)} {s : FollowLog}

variable (h : s.Sound w v)
include h

theorem Sound.naming {f : MessageFollower} {seq : Nat}
    (ht : f.targetSeq = s.f.targetSeq) (hc : ∀ c, s.f.cursor = some c → f.cursor = some c) :
    (∀ n ∈ seq :: s.named, ∃ t, (f.aim seq).targetSeq = some t ∧ n ≤ t) ∧
    ∀ t, (f.aim seq).targetSeq = some t → t ∈ seq :: s.named ∨ ∃ c, f.cursor = some c ∧ t ≤ c := by
  refine ⟨fun n hn => MessageFollower.aim_of_le ?_, fun t ha => ?_⟩
  · rw [ht]
    exact (mem_cons.mp hn).imp_right (h.target n)
  · obtain rfl | ha := MessageFollower.aim_eq ha
    · exact .inl mem_cons_self
    · obtain hn | ⟨c, hcur, hle⟩ := h.aimed t (ht ▸ ha)
      · exact .inl (mem_cons_of_mem _ hn)
      · exact .inr ⟨c, hc c hcur, hle⟩

theorem Sound.edge {head : WorkspaceHead} (hw : head.workspaceId = w) :
    (s.step (.edge head)).Sound w v := by
  obtain ⟨u, hu⟩ : ∃ u, s.f.changed head =
      { s.f with workspaceId := some w, firstUnseenEdge := u }.aim head.workspaceSeq := by
    rw [MessageFollower.changed, hw, MessageFollower.enter_eq h.workspace]
    split
    · exact ⟨_, rfl⟩
    · exact ⟨_, rfl⟩
  rw [step, hu]
  obtain ⟨ht, ha⟩ := @h.naming _ _ _ { s.f with workspaceId := some w, firstUnseenEdge := u }
    head.workspaceSeq rfl fun _ => id
  exact ⟨.inr rfl, h.outstanding, h.asked, h.based, h.first, h.shown, ht, ha⟩

theorem Sound.snapshot {head : WorkspaceHead} (hw : head.workspaceId = w) :
    (s.step (.snapshot head)).Sound w v := by
  obtain ⟨c, hc, hb⟩ : ∃ c, (s.f.cursor = none ∨ s.f.cursor = some c) ∧ s.f.baseline head =
      { { s.f with workspaceId := some w, cursor := some c }.aim head.workspaceSeq with
        firstUnseenEdge := none } := by
    rw [MessageFollower.baseline, hw, MessageFollower.enter_eq h.workspace]
    split
    · next hn => exact ⟨_, .inl hn, rfl⟩
    · next hn =>
      obtain ⟨c, hc⟩ := Option.ne_none_iff_exists'.mp hn
      exact ⟨c, .inr hc, by rw [hc]⟩
  have hkeep : ∀ c', s.f.cursor = some c' → some c = some c' := by
    intro c' hc'
    rcases hc with hc | hc
    · exact nomatch hc.symm.trans hc'
    · exact hc.symm.trans hc'
  rw [step, hb]
  obtain ⟨ht, ha⟩ := @h.naming _ _ _ { s.f with workspaceId := some w, cursor := some c }
    head.workspaceSeq rfl hkeep
  refine ⟨.inr rfl, h.outstanding, fun r hr => hkeep _ (h.asked r hr), iff_of_false nofun nofun,
    nofun, ?_, ht, ha⟩
  rintro _ ⟨⟩
  rcases hc with hc | hc
  · obtain ⟨hf, he⟩ := h.first hc
    refine ⟨c, by rw [hf]; rfl, le_rfl, ?_⟩
    rw [he, eq_comm, map_eq_nil_iff.mpr, map_nil]
    exact filter_eq_nil_iff.mpr fun m _ => by simp
  · obtain ⟨a, hf, hle, he⟩ := h.shown c hc
    exact ⟨a, by rw [hf]; rfl, hle, he⟩

theorem Sound.ask : (s.step .ask).Sound w v := by
  simp only [step, MessageFollower.begin]
  split
  · next c tg hc ht =>
    split
    · exact h
    · next hn =>
      simp only [not_or, Bool.not_eq_true, Option.isSome_eq_false_iff,
        Option.isNone_iff_eq_none] at hn
      refine ⟨h.workspace, ?_, ?_, h.based, h.first, h.shown, h.target, h.aimed⟩
      · simp [h.outstanding, hn.2.1]
      · rintro _ ⟨⟩
        exact hc
  · exact h

theorem Sound.answer (asc : v.Pairwise fun m m' => m.2 < m'.2)
    {r : FollowRequest} {page : MessagesFollowResult}
    (ho : FollowOp.Honest w v (.answer r page)) :
    (s.step (.answer r page)).Sound w v := by
  simp only [step, MessageFollower.finish]
  split
  · next hr =>
    simpa only [erase_stale h.outstanding hr, Except.toOption, Option.getD_some, append_nil] using h
  · next hr =>
    have hr := not_not.mp hr
    rw [erase_running h.outstanding hr]
    split
    · simp only [Except.toOption, Option.getD_none, append_nil]
      exact ⟨h.workspace, rfl, nofun, h.based, h.first, h.shown, h.target, h.aimed⟩
    · next hp =>
      simp only [not_or, not_not, not_lt] at hp
      obtain ⟨-, hw, ha, hle, -⟩ := hp
      have hpage : page.workspaceId = w := by
        rcases h.workspace with hn | hn
        · exact nomatch hn.symm.trans hw
        · exact Option.some_inj.mp (hw.symm.trans hn)
      have hrows : (page.rows.map streamEntry).map (·.id) =
          (v.filter fun m => r.afterSeq < m.2 ∧ m.2 ≤ page.throughSeq).map Prod.fst := by
        rw [map_map, ← ha]
        exact ho hpage
      obtain ⟨a, hf, hac, he⟩ := h.shown _ (h.asked r hr)
      refine ⟨h.workspace, rfl, nofun, iff_of_false nofun fun hn => ?_, nofun, ?_, fun n hn => ?_,
        fun t ht => ?_⟩
      · exact nomatch (h.based.mpr hn).symm.trans (h.asked r hr)
      · rintro _ ⟨⟩
        refine ⟨a, hf, hac.trans hle, ?_⟩
        simp only [Except.toOption, Option.getD_some]
        rw [map_append, he, hrows, ← map_append, filter_between asc hac hle]
      · exact MessageFollower.aim_of_le (.inr (h.target n hn))
      · obtain rfl | ht := MessageFollower.aim_eq ht
        · exact .inr ⟨_, rfl, le_rfl⟩
        · refine (h.aimed t ht).imp_right ?_
          rintro ⟨c, hc, htc⟩
          obtain rfl : r.afterSeq = c := Option.some_inj.mp ((h.asked r hr).symm.trans hc)
          exact ⟨_, rfl, htc.trans hle⟩

theorem Sound.fail {r : FollowRequest} : (s.step (.fail r)).Sound w v := by
  simp only [step, MessageFollower.failed]
  split
  · next hr =>
    simpa only [erase_stale h.outstanding hr] using h
  · next hr =>
    rw [erase_running h.outstanding (not_not.mp hr)]
    exact ⟨h.workspace, rfl, nofun, h.based, h.first, h.shown, h.target, h.aimed⟩

theorem Sound.step (ha : v.Pairwise fun m m' => m.2 < m'.2)
    {op : FollowOp} (ho : op.Honest w v) : (s.step op).Sound w v := by
  cases op with
  | connect => exact ⟨h.workspace, rfl, nofun, h.based, h.first, h.shown, h.target, h.aimed⟩
  | disconnect => exact ⟨h.workspace, rfl, nofun, h.based, h.first, h.shown, h.target, h.aimed⟩
  | edge head => exact h.edge ho
  | snapshot head => exact h.snapshot ho
  | ask => exact h.ask
  | answer r page => exact h.answer ha ho
  | fail r => exact h.fail

theorem Sound.offered_iff (hout : s.outstanding = []) (hfault : s.f.faulted = false) :
    s.f.begin.2.isSome = true ↔ ∃ c, s.f.cursor = some c ∧ ∃ n ∈ s.named, c < n := by
  have hin : s.f.inFlight = none := Option.toList_eq_nil_iff.mp (h.outstanding ▸ hout)
  rw [MessageFollower.begin]
  split
  · next c t hc ht =>
    have hbehind : (∃ n ∈ s.named, c < n) ↔ c < t := by
      constructor
      · rintro ⟨n, hn, hlt⟩
        obtain ⟨t', ht', hle⟩ := h.target n hn
        obtain rfl : t = t' := Option.some_inj.mp (ht.symm.trans ht')
        exact hlt.trans_le hle
      · intro hlt
        obtain hn | ⟨c', hc', hle⟩ := h.aimed t ht
        · exact ⟨t, hn, hlt⟩
        · obtain rfl : c = c' := Option.some_inj.mp (hc.symm.trans hc')
          exact absurd hlt hle.not_gt
    rcases le_or_gt t c with hle | hlt
    · simp [hc, hbehind, hle]
    · simp [hc, hin, hfault, hbehind, hlt, hlt.not_ge]
  · next hnone =>
    refine iff_of_false nofun ?_
    rintro ⟨c, hc, n, hn, -⟩
    obtain ⟨t, ht, -⟩ := h.target n hn
    exact hnone c t hc ht

end FollowLog

/-- The first snapshot sets the cursor; what a follower has emitted is what lies between its first
baseline and its cursor, and it asks for more while there is any. -/
theorem follower_shows_each_once (w : WorkspaceId) (visible : List (String × Nat))
    (asc : visible.Pairwise fun m m' => m.2 < m'.2) (ops : List FollowOp)
    (honest : ∀ op ∈ ops, op.Honest w visible) :
    let s := ops.foldl FollowLog.step {}
    (s.f.cursor = none ↔ s.snapshots = []) ∧
    (s.f.cursor = none → s.emitted = []) ∧
    (∀ c, s.f.cursor = some c → ∃ a, s.first = some a ∧ s.emitted.map (·.id) =
      (visible.filter fun m => a < m.2 ∧ m.2 ≤ c).map Prod.fst) ∧
    s.outstanding.length ≤ 1 ∧
    (s.outstanding = [] → s.f.faulted = false →
      (s.f.begin.2.isSome = true ↔ ∃ c, s.f.cursor = some c ∧ ∃ n ∈ s.named, c < n)) := by
  intro s
  have h : s.Sound w visible := ops.foldlRecOn (motive := FollowLog.Sound w visible)
    FollowLog.step ⟨.inl rfl, rfl, nofun, iff_of_true rfl rfl, fun _ => ⟨rfl, rfl⟩, nofun, nofun, nofun⟩
    fun _ h op hop => h.step asc (honest op hop)
  refine ⟨h.based, fun hc => (h.first hc).2, fun c hc => ?_, ?_, h.offered_iff⟩
  · obtain ⟨a, ha, -, he⟩ := h.shown c hc
    exact ⟨a, ha, he⟩
  · rw [h.outstanding]
    cases s.f.inFlight <;> simp

/-- An edge before the first snapshot moves the baseline back; the page is answered twice. -/
theorem early_edge_shown_once :
    let w : WorkspaceId := ⟨⟨1, by decide⟩⟩
    let m := MessageId.mintRoot 1
    let row : MessageSnapshotRow :=
      ⟨m, 5, 0, .fyi, .inbound, .admin w, "", [], none, none, m, 1, true, false⟩
    let r : FollowRequest := ⟨1, 1, 4, followPageLimit⟩
    let answer := FollowOp.answer r ⟨w, 4, 5, false, [row]⟩
    let s := [.connect, .edge ⟨w, 5⟩, .snapshot ⟨w, 5⟩, .ask, answer, answer].foldl
      FollowLog.step {}
    s.f.cursor = some 5 ∧ s.emitted.map (·.id) = [m.text] := by
  intro w m row r answer s
  have honest : ∀ op ∈ [.connect, .edge ⟨w, 5⟩, .snapshot ⟨w, 5⟩, .ask, answer, answer],
      FollowOp.Honest w [(m.text, 5)] op := by
    simp [FollowOp.Honest, answer, row]
  have hs := follower_shows_each_once w [(m.text, 5)] (pairwise_singleton _ _) _ honest
  obtain ⟨_, ⟨⟩, he⟩ := hs.2.2.1 5 rfl
  exact ⟨rfl, he⟩

end Cyclops
