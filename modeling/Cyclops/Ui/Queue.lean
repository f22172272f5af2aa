import Cyclops.Lib.Runs
import Cyclops.Proto.MessageId
import Mathlib.Data.Finset.Basic
import Mathlib.Data.Prod.Lex
import Mathlib.Data.String.Basic

/-!
# The operator's queue

The queue shows the rows that the session filter and the scope admit, with those that need a human
first.

Result: `selection_never_jumps`, over every sequence of operations. Two targets never tie
(`tiebreak_injective`), so that the order in which rows arrive does not show.
-/

namespace Cyclops.Queue

open List Option

structure QueueTarget where
  messageId : MessageId
  recipient : RecipientKey
deriving DecidableEq

def QueueTarget.tiebreak (target : QueueTarget) : String :=
  target.messageId.text ++ "\x01" ++ target.recipient.text

/-- The state of the entry, in the words of the queue. -/
inductive MailboxWord where
  | pending | claimed | deliveredDirect | superseded
deriving DecidableEq

/-- The state of the wake. -/
inductive WakeWord where
  | queued | gating | writing | staged | submitted | submittedUnverified | blockedBeforeWrite
  | notified | withdrawn | withdrawnByOperator | needsAttention | quotaHeld | quotaResetObserved
  | resolutionIncomplete | cleared | resolvedSubmitted | resolvedDiscarded | notStarted | superseded
deriving DecidableEq

/-- Whose message it is. -/
inductive Direction where
  | inbound | outbound | observed
deriving DecidableEq

/-- The fields of a row that order, filter and name it. -/
structure QueueRow where
  target : QueueTarget
  recipient : RecipientKey
  sender : RecipientKey
  mailbox : MailboxWord
  wake : WakeWord
  routePane : Option TmuxPaneId
  needsAction : Bool
  seq : Nat
  direction : Direction

def QueueRow.needsHuman (row : QueueRow) : Bool :=
  if row.mailbox = .claimed ∧ row.wake = .blockedBeforeWrite then false
  else row.wake matches .needsAttention | .blockedBeforeWrite | .quotaHeld | .quotaResetObserved
    | .resolutionIncomplete

structure SessionFilter where
  name : String
  session : Option SessionInstanceId
  panes : Finset String
deriving DecidableEq

namespace SessionFilter

variable (filter : SessionFilter)

def addressedHere (key : RecipientKey) : Bool :=
  match key.recipient with
  | .agent session _ => filter.session = some session
  | _ => false

def holds (key : RecipientKey) : Bool :=
  filter.addressedHere key && key.paneId.any (·.text ∈ filter.panes)

def admits (row : QueueRow) : Bool :=
  filter.holds row.sender || filter.holds row.recipient ||
    (filter.addressedHere row.recipient && row.routePane.any (·.text ∈ filter.panes))

end SessionFilter

/-- Which rows are admitted. -/
inductive Scope where
  | work | all | inbox | outbound
deriving DecidableEq

def Scope.admits (scope : Scope) (row : QueueRow) : Bool :=
  match scope with
  | .all => true
  | .work => row.needsAction
  | .inbox => row.direction = .inbound
  | .outbound => row.direction = .outbound

structure QueueSnapshot where
  rows : List QueueRow
  distinct : (rows.map QueueRow.target).Nodup

def QueueRow.rank (row : QueueRow) : Bool ×ₗ Nat ×ₗ String :=
  toLex (!row.needsHuman, toLex (row.seq, row.target.tiebreak))

def admitted (session : Option SessionFilter) (scope : Scope) (rows : List QueueRow) :
    List QueueRow :=
  rows.filter fun row => session.all (·.admits row) && scope.admits row

def visible (session : Option SessionFilter) (scope : Scope) (rows : List QueueRow) :
    List QueueRow :=
  (admitted session scope rows).mergeSort fun a b => a.rank ≤ b.rank

structure HumanQueue where
  rows : List QueueRow := []
  scope : Scope := .work
  session : Option SessionFilter := none
  view : List QueueRow := []
  selected : Option QueueTarget := none
  cursor : Option Nat := none

/-- The operations of the panel. -/
inductive QueueOp where
  | replace (snapshot : QueueSnapshot)
  | setScope (scope : Scope)
  | setSessionFilter (session : Option SessionFilter)
  | select (target : QueueTarget)
  | selectNext
  | selectPrevious

/-- The rows, scope and filter that the operations have set so far. -/
def QueueOp.install : List QueueRow × Scope × Option SessionFilter → QueueOp →
    List QueueRow × Scope × Option SessionFilter
  | (_, scope, session), .replace snapshot => (snapshot.rows, scope, session)
  | (rows, _, session), .setScope scope => (rows, scope, session)
  | (rows, scope, _), .setSessionFilter session => (rows, scope, session)
  | settings, _ => settings

namespace HumanQueue

variable (q : HumanQueue)

def settings : List QueueRow × Scope × Option SessionFilter :=
  (q.rows, q.scope, q.session)

def rebuildView : HumanQueue :=
  { q with view := visible q.session q.scope q.rows }

def place (position : Option Nat) : HumanQueue :=
  let cursor := position.filter (· < q.view.length)
  { q with cursor, selected := cursor.bind fun i => q.view[i]?.map QueueRow.target }

def viewPosition (target : QueueTarget) : Option Nat :=
  q.view.findIdx? fun row => row.target = target

def reload (next : HumanQueue) : HumanQueue :=
  next.rebuildView.place (q.selected.bind next.rebuildView.viewPosition)

def replace (snapshot : QueueSnapshot) : HumanQueue :=
  let next := { q with rows := snapshot.rows }
  if q.selected = none ∧ q.view.isEmpty ∧ !next.rebuildView.view.isEmpty then
    next.rebuildView.place (some 0)
  else q.reload next

def setScope (scope : Scope) : HumanQueue :=
  if scope = q.scope then q else q.reload { q with scope }

def setSessionFilter (session : Option SessionFilter) : HumanQueue :=
  if session = q.session then q else q.reload { q with session }

def select (target : QueueTarget) : HumanQueue :=
  match q.viewPosition target with
  | some position => q.place (some position)
  | none => q

/-- `step` of the source. -/
def move (delta : Int) : HumanQueue :=
  if q.view.isEmpty then q.place none
  else
    let last : Int := q.view.length - 1
    let next := match q.cursor with
      | some current => max 0 (min (current + delta) last)
      | none => if delta < 0 then last else 0
    q.place (some next.toNat)

def step (q : HumanQueue) : QueueOp → HumanQueue
  | .replace snapshot => q.replace snapshot
  | .setScope scope => q.setScope scope
  | .setSessionFilter session => q.setSessionFilter session
  | .select target => q.select target
  | .selectNext => q.move 1
  | .selectPrevious => q.move (-1)

def viewportTop (bodyRows : Nat) : Nat :=
  if bodyRows = 0 ∨ q.view.length ≤ bodyRows then 0
  else min (q.cursor.getD 0 - bodyRows / 2) (q.view.length - bodyRows)

end HumanQueue

/-! ## No two targets tie -/

theorem hexDigit_inj : ∀ m < 16, ∀ n < 16, hexDigit m = hexDigit n → m = n := by
  decide

theorem hexDigits_inj {c m n : Nat} (hm : m < 16 ^ c) (hn : n < 16 ^ c)
    (h : hexDigits c m = hexDigits c n) : m = n := by
  induction c generalizing m n with
  | zero => omega
  | succ c ih =>
    obtain ⟨hd, hl⟩ := append_inj' h rfl
    have hq := ih (Nat.div_lt_of_lt_mul (by rwa [pow_succ, mul_comm] at hm))
      (Nat.div_lt_of_lt_mul (by rwa [pow_succ, mul_comm] at hn)) hd
    have hr := hexDigit_inj _ (m.mod_lt (by decide)) _ (n.mod_lt (by decide)) (cons.inj hl).1
    omega

theorem filter_hyphenated (u : Uuid) : u.hyphenated.toList.filter isHexDigit = u.simple := by
  have hall {l : List Char} (hl : l.Sublist u.simple) : l.filter isHexDigit = l :=
    filter_eq_self.mpr fun c hc => all_eq_true.mp (all_hexDigits 32 u.toNat) c (hl.subset hc)
  have hmid (i : Nat) := hall ((take_sublist 4 _).trans (drop_sublist i u.simple))
  have hsplit (i : Nat) : (u.simple.drop i).take 4 ++ u.simple.drop (i + 4) = u.simple.drop i := by
    rw [← drop_drop, take_append_drop]
  have hh : isHexDigit '-' = false := by decide
  simp [Uuid.hyphenated, hmid, hall (take_sublist _ _), hall (drop_sublist _ _),
    hh, hsplit]

theorem hyphenated_inj {d d' : DurableId} {s s' : List Char}
    (h : d.uuid.hyphenated.toList ++ s = d'.uuid.hyphenated.toList ++ s') : d = d' ∧ s = s' := by
  obtain ⟨hd, hs⟩ := append_inj h (by simp [Uuid.hyphenated, Uuid.simple, length_hexDigits])
  refine ⟨?_, hs⟩
  have hu : d.uuid.simple = d'.uuid.simple := by
    rw [← filter_hyphenated, hd, filter_hyphenated]
  obtain ⟨u, _⟩ := d
  obtain ⟨u', _⟩ := d'
  obtain rfl : u = u' := BitVec.eq_of_toNat_eq (hexDigits_inj u.isLt u'.isLt hu)
  rfl

theorem pane_text_inj {p p' : TmuxPaneId} (h : p.text = p'.text) : p = p' := by
  obtain ⟨m⟩ := p
  obtain ⟨n⟩ := p'
  rw [TmuxPaneId.text, TmuxPaneId.text, String.append_right_inj] at h
  have hd := congrArg (fun s => Nat.ofDigitChars 10 s.toList 0) h
  simpa using hd

theorem text_inj {k k' : RecipientKey} (h : k.text.toList = k'.text.toList) : k = k' := by
  obtain ⟨⟨w⟩, r⟩ := k
  obtain ⟨⟨w'⟩, r'⟩ := k'
  -- the texts of two kinds of recipients differ in their first letters
  cases r <;> cases r' <;> simp only [RecipientKey.text, String.toList_append, append_assoc] at h
  case admin.admin =>
    have hw := @hyphenated_inj w w' [] [] (by simpa using h)
    rw [hw.1]
  case agent.agent s p s' p' =>
    obtain ⟨hw, h⟩ := hyphenated_inj (append_cancel_left h)
    obtain ⟨hs, h⟩ := hyphenated_inj (append_cancel_left h)
    have hs : s = s' := congrArg SessionInstanceId.mk hs
    rw [hw, hs, pane_text_inj (String.ext (append_cancel_left h))]
  case headless.headless i i' =>
    obtain ⟨hw, h⟩ := hyphenated_inj (append_cancel_left h)
    have hi := @hyphenated_inj i.id i'.id [] [] (by rw [append_cancel_left h])
    have hi : i = i' := congrArg AgentInstanceId.mk hi.1
    rw [hw, hi]
  all_goals simp at h

theorem text_notMem (m : MessageId) : '\x01' ∉ m.text.toList := by
  have hv := m.valid
  unfold MessageId.isValid at hv
  split at hv
  · next p hp =>
    obtain ⟨pre, hm, he⟩ := dropPrefix?_eq_some_iff.mp hp
    split at hv
    · next l r hs =>
      obtain ⟨hl, hr⟩ := Bool.and_eq_true_iff.mp hv
      have hpart (part : List Char) (h : isIdPart part = true) : '\x01' ∉ part := fun hc =>
        absurd (all_eq_true.mp (Bool.and_eq_true_iff.mp h).2 _ hc) (by decide)
      obtain ⟨⟨_, hd, hsep⟩, -⟩ := dropInfix?_eq_some_iff.mp hs
      rw [hm, eq_of_beq he, hd, eq_of_beq hsep]
      simp [hpart l hl, hpart r hr]
    · cases hv
  · split at hv
    · next s hs =>
      obtain ⟨pre, hm, he⟩ := dropPrefix?_eq_some_iff.mp hs
      rw [hm, eq_of_beq he, mem_append, not_or]
      refine ⟨by decide, fun hc => ?_⟩
      exact absurd (all_eq_true.mp (Bool.and_eq_true_iff.mp hv).2 _ hc) (by decide)
    · cases hv

theorem tiebreak_injective : QueueTarget.tiebreak.Injective := by
  rintro ⟨m, k⟩ ⟨m', k'⟩ h
  have h := congrArg (·.toList.dropInfix? ['\x01']) h
  simp only [QueueTarget.tiebreak, String.toList_append, append_assoc] at h
  have hs (m : MessageId) (k : RecipientKey) := Texts.dropInfix?_sep (text_notMem m) k.text.toList
  obtain ⟨hm, hk⟩ := Prod.mk.inj (some_inj.mp ((hs m k).symm.trans (h.trans (hs m' k'))))
  obtain rfl : m = m' := by
    cases m
    cases m'
    congr
    exact String.ext hm
  rw [text_inj hk]

/-! ## The visible rows -/

section

variable {session : Option SessionFilter} {scope : Scope} {rows rows' : List QueueRow}

theorem visible_perm : (visible session scope rows).Perm (admitted session scope rows) :=
  mergeSort_perm _ _

theorem visible_ordered (hd : (rows.map QueueRow.target).Nodup) :
    (visible session scope rows).Pairwise fun a b => a.rank < b.rank := by
  have hle := @pairwise_mergeSort QueueRow (fun a b => decide (a.rank ≤ b.rank))
    (by simpa using fun _ _ _ => le_trans) (by simpa using fun a b => le_total _ _)
    (admitted session scope rows)
  have hne : (visible session scope rows).Pairwise fun a b => a.target ≠ b.target :=
    pairwise_map.mp ((visible_perm.map _).nodup_iff.mpr (hd.sublist (filter_sublist.map _)))
  refine (hle.and hne).imp fun ⟨hab, ht⟩ => (of_decide_eq_true hab).lt_of_ne fun he => ht ?_
  exact tiebreak_injective (Prod.mk.inj (Prod.mk.inj he).2).2

theorem visible_congr (hd : (rows.map QueueRow.target).Nodup) (h : rows'.Perm rows) :
    visible session scope rows' = visible session scope rows := by
  have hd' := (h.map QueueRow.target).nodup_iff.mpr hd
  refine Perm.eq_of_pairwise (fun a b _ _ hab hba => absurd hba hab.not_gt) (visible_ordered hd')
    (visible_ordered hd) ?_
  exact visible_perm.trans ((h.filter _).trans visible_perm.symm)

end

/-! ## The selection -/

namespace HumanQueue

variable {q : HumanQueue}

def Placed (q : HumanQueue) : Prop :=
  (q.cursor = none ∧ q.selected = none) ∨ ∃ i row,
    q.cursor = some i ∧ q.view[i]? = some row ∧ q.selected = some row.target

structure Sound (q : HumanQueue) : Prop where
  distinct : (q.rows.map QueueRow.target).Nodup
  view : q.view = visible q.session q.scope q.rows
  placed : q.Placed

theorem place_placed (p : Option Nat) : (q.place p).Placed := by
  cases hp : p.filter (· < q.view.length) with
  | none => exact .inl ⟨hp, by simp [place, hp]⟩
  | some i =>
    have hi : i < q.view.length := by simpa using (filter_eq_some_iff.mp hp).2
    exact .inr ⟨i, q.view[i], hp, getElem?_eq_getElem hi, by simp [place, hp, hi]⟩

theorem Sound.place (h : q.Sound) (p : Option Nat) : (q.place p).Sound :=
  ⟨h.distinct, h.view, place_placed p⟩

/-- The selected target stays while its row is visible, and is cleared otherwise. -/
def Kept (q next : HumanQueue) : Prop :=
  next.selected = q.selected.filter fun target => next.view.any (·.target = target)

theorem Placed.kept_self (h : q.Placed) : q.Kept q := by
  unfold Kept
  obtain ⟨-, hs⟩ | ⟨i, row, -, hr, hs⟩ := h
  · rw [hs, filter_none]
  · have hany : q.view.any (·.target = row.target) = true :=
      any_eq_true.mpr ⟨row, mem_of_getElem? hr, decide_eq_true rfl⟩
    rw [hs, filter_some, if_pos hany]

theorem reload_spec {next : HumanQueue} (hd : (next.rows.map QueueRow.target).Nodup) :
    (q.reload next).Sound ∧ Kept q (q.reload next) := by
  refine ⟨⟨hd, rfl, place_placed _⟩, ?_⟩
  unfold Kept
  change _ = q.selected.filter fun t => next.rebuildView.view.any (·.target = t)
  unfold reload
  cases q.selected with
  | none => rfl
  | some t =>
    rw [bind_some]
    cases hp : next.rebuildView.viewPosition t with
    | none =>
      have hany : next.rebuildView.view.any (·.target = t) = false := by
        simpa [viewPosition] using hp
      rw [filter_some, if_neg (by simp [hany])]
      rfl
    | some i =>
      obtain ⟨hi, ht, -⟩ := findIdx?_eq_some_iff_getElem.mp hp
      rw [filter_some, if_pos (any_eq_true.mpr ⟨_, getElem_mem hi, ht⟩)]
      simpa [HumanQueue.place, Option.filter, hi] using ht

theorem Sound.setScope (h : q.Sound) (scope : Scope) :
    (q.setScope scope).Sound ∧ Kept q (q.setScope scope) := by
  unfold HumanQueue.setScope
  split
  · exact ⟨h, h.placed.kept_self⟩
  · exact reload_spec h.distinct

theorem Sound.setSessionFilter (h : q.Sound) (session : Option SessionFilter) :
    (q.setSessionFilter session).Sound ∧ Kept q (q.setSessionFilter session) := by
  unfold HumanQueue.setSessionFilter
  split
  · exact ⟨h, h.placed.kept_self⟩
  · exact reload_spec h.distinct

theorem Sound.move (h : q.Sound) (d : Int) : (q.move d).Sound := by
  unfold HumanQueue.move
  split <;> exact h.place _

theorem replace_sound (snap : QueueSnapshot) : (q.replace snap).Sound := by
  simp only [replace]
  split
  · exact ⟨snap.distinct, rfl, place_placed _⟩
  · exact (reload_spec snap.distinct).1

theorem replace_kept (snap : QueueSnapshot) (h : ¬(q.selected = none ∧ q.view = [])) :
    Kept q (q.replace snap) := by
  rw [replace, if_neg fun hc => h ⟨hc.1, isEmpty_iff.mp hc.2.1⟩]
  exact (reload_spec snap.distinct).2

theorem replace_first (snap : QueueSnapshot) (hs : q.selected = none) (hv : q.view = []) :
    (q.replace snap).selected = (q.replace snap).view.head?.map QueueRow.target := by
  simp only [replace]
  split
  · next hc =>
    cases hn : (rebuildView { q with rows := snap.rows }).view with
    | nil => simp [hn] at hc
    | cons row rest => simp [place, hn, Option.filter]
  · next hc =>
    have hn : (rebuildView { q with rows := snap.rows }).view = [] := by simpa [hs, hv] using hc
    change _ = (rebuildView { q with rows := snap.rows }).view.head?.map _
    rw [hn, reload, hs]
    rfl

theorem select_visible {t : QueueTarget} (h : ∃ row ∈ q.view, row.target = t) :
    (q.select t).selected = some t := by
  obtain ⟨i, hp⟩ : ∃ i, q.viewPosition t = some i := by
    rw [← isSome_iff_exists]
    simpa [viewPosition] using h
  obtain ⟨hi, ht, -⟩ := findIdx?_eq_some_iff_getElem.mp hp
  simpa [select, hp, place, Option.filter, hi] using ht

theorem Sound.step (h : q.Sound) (op : QueueOp) : (q.step op).Sound := by
  cases op with
  | replace s => exact replace_sound s
  | setScope scope => exact (h.setScope scope).1
  | setSessionFilter session => exact (h.setSessionFilter session).1
  | select t =>
    simp only [HumanQueue.step, select]
    split
    · exact h.place _
    · exact h
  | selectNext => exact h.move 1
  | selectPrevious => exact h.move (-1)

theorem settings_step (q : HumanQueue) (op : QueueOp) :
    (q.step op).settings = op.install q.settings := by
  cases op with
  | replace snap =>
    simp only [HumanQueue.step, replace]
    split <;> rfl
  | setScope scope =>
    simp only [HumanQueue.step, HumanQueue.setScope]
    split
    · next hs => rw [hs]; rfl
    · rfl
  | setSessionFilter session =>
    simp only [HumanQueue.step, HumanQueue.setSessionFilter]
    split
    · next hs => rw [hs]; rfl
    · rfl
  | select t =>
    simp only [HumanQueue.step, select]
    split <;> rfl
  | selectNext | selectPrevious =>
    simp only [HumanQueue.step, HumanQueue.move]
    split <;> rfl

theorem Placed.window (h : q.Placed) {body c : Nat} (hb : 1 ≤ body) (hc : q.cursor = some c) :
    q.viewportTop body ≤ c ∧ c < q.viewportTop body + body := by
  have hlt : c < q.view.length := by
    obtain ⟨hn, -⟩ | ⟨i, row, hi, hr, -⟩ := h
    · exact nomatch hn.symm.trans hc
    · obtain rfl : i = c := some_inj.mp (hi.symm.trans hc)
      exact (List.getElem?_eq_some_iff.mp hr).1
  simp only [viewportTop, hc, getD_some]
  split <;> omega

end HumanQueue

/-- The visible rows are the admitted ones of the last snapshot in order, under the scope and the
filter set last; cursor and selection name one of them; the selection is carried or cleared, except
that a snapshot selects the first row of a queue that showed none; the window holds the cursor. -/
theorem selection_never_jumps (ops : List QueueOp) :
    let q := ops.foldl HumanQueue.step {}
    (q.rows, q.scope, q.session) = ops.foldl QueueOp.install ([], .work, none) ∧
    (q.view.Perm (admitted q.session q.scope q.rows) ∧
      q.view.Pairwise (fun a b => a.rank < b.rank) ∧
      ∀ rows', rows'.Perm q.rows → visible q.session q.scope rows' = q.view) ∧
    q.Placed ∧
    ((∀ scope, (q.setScope scope).scope = scope ∧ q.Kept (q.setScope scope)) ∧
      (∀ session, (q.setSessionFilter session).session = session ∧
        q.Kept (q.setSessionFilter session)) ∧
      ∀ snap, (q.replace snap).rows = snap.rows ∧
        (q.selected = none → q.view = [] →
          (q.replace snap).selected = (q.replace snap).view.head?.map QueueRow.target) ∧
        (¬(q.selected = none ∧ q.view = []) → q.Kept (q.replace snap))) ∧
    (∀ target, (∃ row ∈ q.view, row.target = target) → (q.select target).selected = some target) ∧
    ∀ body c, 1 ≤ body → q.cursor = some c →
      q.viewportTop body ≤ c ∧ c < q.viewportTop body + body := by
  intro q
  have h : q.Sound := Runs.foldl_invariant HumanQueue.Sound (fun _ op h => h.step op)
    ⟨nodup_nil, by simp [visible, admitted], .inl ⟨rfl, rfl⟩⟩
  have hinstall : q.settings = ops.foldl QueueOp.install ([], .work, none) :=
    (foldl_hom HumanQueue.settings fun q op => (HumanQueue.settings_step q op).symm).symm
  have hset (op : QueueOp) : (q.step op).settings = op.install q.settings :=
    HumanQueue.settings_step q op
  refine ⟨hinstall, ?_, h.placed, ⟨fun scope => ⟨?_, (h.setScope scope).2⟩,
    fun f => ⟨?_, (h.setSessionFilter f).2⟩, fun snap => ⟨?_, HumanQueue.replace_first snap,
      HumanQueue.replace_kept snap⟩⟩, fun _ => HumanQueue.select_visible,
    fun _ _ => h.placed.window⟩
  · rw [h.view]
    exact ⟨visible_perm, visible_ordered h.distinct, fun _ => visible_congr h.distinct⟩
  · exact congrArg (·.2.1) (hset (.setScope scope))
  · exact congrArg (·.2.2) (hset (.setSessionFilter f))
  · exact congrArg (·.1) (hset (.replace snap))

/-- A task from the operator that waits for its agent. -/
def sampleRow : QueueRow where
  target := ⟨⟨"cyc-11111111-11111111", rfl⟩,
    ⟨⟨1, Uuid.one_ne_zero⟩, .agent ⟨2, Uuid.two_ne_zero⟩ ⟨3⟩⟩⟩
  recipient := ⟨⟨1, Uuid.one_ne_zero⟩, .agent ⟨2, Uuid.two_ne_zero⟩ ⟨3⟩⟩
  sender := ⟨⟨1, Uuid.one_ne_zero⟩, .admin⟩
  mailbox := .pending
  wake := .needsAttention
  routePane := none
  needsAction := true
  seq := 1
  direction := .outbound

theorem sample_row_selected :
    let q := [QueueOp.replace ⟨[sampleRow], nodup_singleton _⟩].foldl HumanQueue.step {}
    q.view = [sampleRow] ∧ q.selected = some sampleRow.target := by
  intro q
  obtain ⟨hset, ⟨hview, -⟩, -⟩ :=
    selection_never_jumps [.replace ⟨[sampleRow], nodup_singleton _⟩]
  obtain ⟨-, -, -, ⟨-, -, hreplace⟩, -⟩ := selection_never_jumps []
  obtain ⟨hrows, hscope⟩ := Prod.mk.inj hset
  obtain ⟨hscope, hsession⟩ := Prod.mk.inj hscope
  rw [hrows, hscope, hsession] at hview
  have hv : q.view = [sampleRow] := perm_singleton.mp hview
  have hfirst := (hreplace ⟨[sampleRow], nodup_singleton _⟩).2.1 rfl rfl
  exact ⟨hv, hfirst.trans (congrArg (·.head?.map QueueRow.target) hv)⟩

end Cyclops.Queue
