import Cyclops.Lib.Runs
import Cyclops.Tmux.Notify

/-!
# The pane table

A watcher keeps a table of the panes of one session.
-/

namespace Cyclops.Tmux

open List Option Bool Notification

/-! ## Rows and values -/

structure PaneRow where
  windowId : String
  windowName : String
  title : String
  dead : Bool
  inMode : Bool
  currentCommand : String
  width : Nat
  height : Nat
  active : Bool
  panePid : Int
deriving DecidableEq

abbrev Panes := String → Option PaneRow

structure SubValue where
  title : String
  dead : Bool
  inMode : Bool
  currentCommand : String
  panePid : Int

def PaneRow.pushed (row : PaneRow) : SubValue :=
  ⟨row.title, row.dead, row.inMode, row.currentCommand, row.panePid⟩

def PaneRow.push (row : PaneRow) (value : SubValue) : PaneRow :=
  { row with
    title := value.title, dead := value.dead, inMode := value.inMode
    currentCommand := value.currentCommand, panePid := value.panePid }

@[simp] theorem PaneRow.push_push (row : PaneRow) (a b : SubValue) :
    (row.push a).push b = row.push b := rfl

def splitLastTab (text : List Char) : Option (List Char × List Char) :=
  match text.reverse.dropWhile (· ≠ '\t') with
  | [] => none
  | _ :: before => some (before.reverse, (text.reverse.takeWhile (· ≠ '\t')).reverse)

/-- A decimal number that fits 32 bits, with an optional sign. -/
def parseI32 (text : List Char) : Option Int :=
  let (negative, digits) : Bool × List Char :=
    match text with
    | '-' :: digits => (true, digits)
    | '+' :: digits => (false, digits)
    | digits => (false, digits)
  if digits = [] ∨ ¬digits.all (·.isDigit) then none
  else
    let value : Nat := digits.foldl (fun n c => 10 * n + (c.toNat - '0'.toNat)) 0
    let value : Int := if negative then -value else value
    if -2 ^ 31 ≤ value ∧ value < 2 ^ 31 then some value else none

def parsePanePid (field : List Char) : Option Int :=
  if field = [] then some (-1) else parseI32 field

/-- The fields from the right; the title is what remains. -/
def parseSubValue (value : String) : Option SubValue := do
  let (rest, pid) ← splitLastTab value.toList
  let (rest, command) ← splitLastTab rest
  let (rest, inMode) ← splitLastTab rest
  let (title, dead) ← splitLastTab rest
  let panePid ← parsePanePid pid
  return {
    title := String.ofList title
    dead := dead = ['1']
    inMode := inMode = ['1']
    currentCommand := String.ofList command
    panePid }

/-! ## Notifications -/

/-- What a notification asks of the loop. -/
inductive Action where
  | none
  | hint
  | disconnect
deriving DecidableEq

def deadSub : String := "cypdead"

def subPrefix : String := "cyp"

/-- Output of a pane the table does not know is a hint. -/
def outputActivity (table : Panes) (pane : String) : Action :=
  if (table pane).isSome then .none else .hint

/-- A death is a hint when it disagrees with the table. -/
def deadEdge (table : Panes) (pane value : String) : Action :=
  match (if value = "0" then some false else if value = "1" then some true else none) with
  | none => .hint
  | some dead =>
    match table pane with
    | some row => if row.dead = dead then .none else .hint
    | none => .hint

def applySubValue (table : Panes) (pane value : String) : Panes × Action :=
  match parseSubValue value with
  | none => (table, .hint)
  | some value =>
    match table pane with
    | none => (table, .hint)
    | some row => (Function.update table pane (some (row.push value)), .none)

/-- `ownId` is the id of the watched session, if it could be resolved. -/
def handleNotification (ownId : Option String) (table : Panes) :
    Notification → Panes × Action
  | .output pane _ | .extendedOutput pane _ _ => (table, outputActivity table pane)
  | .subscriptionChanged name _ _ pane value =>
    if name = deadSub then
      match pane with
      | some pane => (table, deadEdge table pane value)
      | none => (table, .hint)
    else if subPrefix.toList.isPrefixOf name.toList then
      match pane with
      | some pane => applySubValue table pane value
      | none => (table, .hint)
    else (table, .none)
  | .exit _ => (table, .disconnect)
  | .sessionRenamed session _ =>
    -- the watcher's own session is followed by name, which leaves the panes
    (table, if ownId.isSome ∧ ownId = session then .none else .hint)
  | .windowAdd _ | .windowClose _ | .windowRenamed _ _ | .unlinkedWindowAdd _
  | .unlinkedWindowClose _ | .unlinkedWindowRenamed _ _ | .layoutChange _ _
  | .windowPaneChanged _ _ | .paneModeChanged _ | .sessionsChanged | .sessionChanged _ _ =>
    (table, .hint)
  | .pause _ | .resume _ | .clientDetached _ | .clientSessionChanged _ _ _ | .other _ =>
    (table, .none)

/-! ## The loop -/

/-- What the loop reads. -/
inductive Queued where
  | notification (n : Notification)
  /-- The notifications after this point are lost. -/
  | continuityLost

/-- Why the loop asks for the panes. -/
inductive Cause where
  | bootstrap
  | continuity
  | request
  | timer

structure Asking where
  cause : Cause
  /-- The panes tmux answered with, which have not arrived yet. -/
  answer : Option Panes

structure Watch where
  tmux : Panes
  table : Panes := fun _ => none
  queue : List Queued := []
  pending : Bool := false
  /-- Counts dropped notifications. The source's wraps after `2 ^ 64`, a gap that is left out. -/
  epoch : Nat := 0
  deadline : Bool := false
  /-- The epoch at which the loop began to make up for a gap. -/
  continuityEpoch : Option Nat := none
  asking : Option Asking := some ⟨.bootstrap, none⟩
  up : Bool := true

/-- A step of tmux or of the loop. -/
inductive WatchStep where
  /-- tmux's panes become these, and tmux sends notifications; each finds room in the queue
  or does not. -/
  | tmux (panes : Panes) (sent : List (Notification × Bool))
  | handle
  | request
  | fire
  | answer
  | apply
  | fail

namespace Watch

variable (s : Watch)

def enqueueNotification (sent : Notification × Bool) : Watch :=
  if s.pending then { s with epoch := s.epoch + 1 }
  else if sent.2 then { s with queue := s.queue ++ [.notification sent.1] }
  else { s with
    pending := true, epoch := s.epoch + 1, queue := s.queue ++ [.continuityLost] }

def ask (cause : Cause) : Watch :=
  { s with asking := some ⟨cause, none⟩ }

/-- The table is replaced. A gap is closed if nothing was dropped meanwhile. -/
def applyAnswer (panes : Panes) : Watch :=
  match s.continuityEpoch with
  | none => { s with table := panes, asking := none, deadline := false }
  | some epoch =>
    if s.epoch = epoch then
      { s with
        table := panes, asking := none, deadline := false
        queue := [], pending := false, continuityEpoch := none }
    else { s with table := panes, asking := none, up := false }

def failed : Cause → Watch
  | .bootstrap => { s with asking := none, up := false }
  | .continuity => { s with asking := none, deadline := true }
  | .request => { s with asking := none, deadline := false, up := s.continuityEpoch.isNone }
  | .timer => { s with asking := none, up := s.continuityEpoch.isNone }

def handleNext (ownId : Option String) : Watch :=
  match s.queue with
  | [] => s
  | .continuityLost :: rest =>
    { s with
      queue := rest, pending := true, continuityEpoch := some s.epoch }.ask .continuity
  | .notification n :: rest =>
    let (table, action) := handleNotification ownId s.table n
    let s := { s with queue := rest, table }
    match action with
    | .none => s
    | .hint => { s with deadline := true }
    | .disconnect => { s with up := false }

def idle : Bool :=
  s.up && s.asking.isNone

/-- One step; the loop acts while it is up and has nothing asked. -/
def step (ownId : Option String) (s : Watch) : WatchStep → Watch
  | .tmux panes sent => sent.foldl enqueueNotification { s with tmux := panes }
  | .handle => if s.idle then s.handleNext ownId else s
  | .request => if s.idle then s.ask .request else s
  | .fire => if s.idle && s.deadline then { s with deadline := false }.ask .timer else s
  | .answer =>
    match s.asking with
    | some ⟨cause, none⟩ => { s with asking := some ⟨cause, some s.tmux⟩ }
    | _ => s
  | .apply =>
    match s.asking with
    | some ⟨_, some panes⟩ => s.applyAnswer panes
    | _ => s
  | .fail =>
    match s.asking with
    | some asking => s.failed asking.cause
    | none => s

def careful (s : Watch) : WatchStep → Bool
  | .fail => s.asking.all fun asking =>
      match asking.cause with
      | .bootstrap | .continuity => true
      | .request => !s.deadline
      | .timer => false
  | _ => true

end Watch

/-! ## What a notification does to one pane -/

/-- What one notification does to the table. -/
inductive Effect where
  | nothing
  | hint
  | stop
  | seen (pane : String)
  | dead (pane : String) (value : Bool)
  | push (pane : String) (value : SubValue)

def Notification.effect (ownId : Option String) : Notification → Effect
  | .output pane _ | .extendedOutput pane _ _ => .seen pane
  | .subscriptionChanged name _ _ pane value =>
    if name = deadSub then
      match pane with
      | some pane =>
        if value = "0" then .dead pane false else if value = "1" then .dead pane true else .hint
      | none => .hint
    else if subPrefix.toList.isPrefixOf name.toList then
      match pane, parseSubValue value with
      | some pane, some value => .push pane value
      | _, _ => .hint
    else .nothing
  | .exit _ => .stop
  | .sessionRenamed session _ => if ownId.isSome ∧ ownId = session then .nothing else .hint
  | .windowAdd _ | .windowClose _ | .windowRenamed _ _ | .unlinkedWindowAdd _
  | .unlinkedWindowClose _ | .unlinkedWindowRenamed _ _ | .layoutChange _ _
  | .windowPaneChanged _ _ | .paneModeChanged _ | .sessionsChanged | .sessionChanged _ _ => .hint
  | .pause _ | .resume _ | .clientDetached _ | .clientSessionChanged _ _ _ | .other _ => .nothing

def Queued.effect (ownId : Option String) : Queued → Effect
  | .notification n => n.effect ownId
  | .continuityLost => .hint

namespace Effect

/-- The row of the pane `p` afterwards, and whether this is a hint as far as it goes. -/
def view (p : String) (row : Option PaneRow) : Effect → Option PaneRow × Bool
  | .nothing | .stop => (row, false)
  | .hint => (row, true)
  | .seen pane => (row, pane = p && row.isNone)
  | .dead pane value => (row, pane = p && row.map PaneRow.dead ≠ some value)
  | .push pane value => if pane = p then (row.map (·.push value), row.isNone) else (row, false)

def reads (p : String) : Option PaneRow → List Effect → Option PaneRow × Bool
  | row, [] => (row, false)
  | row, e :: es =>
    let rest := reads p (e.view p row).1 es
    (rest.1, (e.view p row).2 || rest.2)

def lastPush (p : String) : List Effect → Option SubValue
  | [] => none
  | e :: es =>
    (lastPush p es).or (match e with
      | .push pane value => if pane = p then some value else none
      | _ => none)

section

variable {p : String} {row : Option PaneRow} {es es' : List Effect}

theorem reads_append : reads p row (es ++ es') = ((reads p (reads p row es).1 es').1,
        (reads p row es).2 || (reads p (reads p row es).1 es').2) := by
  induction es generalizing row with
  | nil => simp [reads]
  | cons e es ih => simp [reads, ih, Bool.or_assoc]

theorem lastPush_append : lastPush p (es ++ es') = (lastPush p es').or (lastPush p es) := by
  induction es with
  | nil => simp [lastPush]
  | cons e es ih => simp [lastPush, ih, Option.or_assoc]

theorem reads_row : (reads p row es).1 =
      match lastPush p es with
      | none => row
      | some v => row.map (·.push v) := by
  induction es generalizing row with
  | nil => rfl
  | cons e es ih =>
    simp only [reads, lastPush, ih]
    cases hl : lastPush p es with
    | none =>
      cases e with
      | push pane =>
        by_cases hs : pane = p <;> simp [view, hs]
      | _ => rfl
    | some =>
      cases e with
      | push pane =>
        by_cases hs : pane = p
        · cases row <;> simp [view, hs]
        · simp [view, hs]
      | _ => rfl

theorem reads_none {v : SubValue} (hl : lastPush p es = some v) : (reads p none es).2 = true := by
  induction es generalizing v with
  | nil => cases hl
  | cons e es ih =>
    simp only [lastPush] at hl
    cases hla : lastPush p es with
    | some =>
      cases e with
      | push pane =>
        by_cases hs : pane = p
        · simp [reads, view, hs]
        · simpa [reads, view, hs] using ih hla
      | _ => simp [reads, view, ih hla]
    | none =>
      rw [hla, none_or] at hl
      cases e with
      | push pane =>
        have hs : pane = p := by
          by_contra ho
          simp [ho] at hl
        simp [reads, view, hs]
      | _ => cases hl

theorem reads_hint_of_dead {a b : PaneRow} (hq : lastPush p es = none)
    (hs : a.dead = b.dead) : (reads p (some a) es).2 = (reads p (some b) es).2 := by
  induction es with
  | nil => rfl
  | cons e es ih =>
    simp only [lastPush, or_eq_none_iff] at hq
    have rest := ih hq.1
    cases e with
    | push pane =>
      have other : pane ≠ p := by
        rintro rfl
        simp at hq
      simp [reads, view, other, rest]
    | _ => simp [reads, view, rest, hs]

end

end Effect

def Effect.run (table : Panes) : Effect → Panes × Action
  | .nothing => (table, .none)
  | .hint => (table, .hint)
  | .stop => (table, .disconnect)
  | .seen pane => (table, if (table pane).isSome then .none else .hint)
  | .dead pane value =>
    (table, if (table pane).map PaneRow.dead = some value then .none else .hint)
  | .push pane value =>
    match table pane with
    | none => (table, .hint)
    | some row => (Function.update table pane (some (row.push value)), .none)

theorem deadEdge_eq (t : Panes) (pane : String) (v : Bool) : (match t pane with
      | some row => if row.dead = v then Action.none else .hint
      | none => .hint) =
      if (t pane).map PaneRow.dead = some v then .none else .hint := by
  cases t pane <;> simp

open Effect

theorem handleNotification_eq (ownId : Option String) (t : Panes) (n : Notification) :
    handleNotification ownId t n = (n.effect ownId).run t := by
  cases n with
  | subscriptionChanged name session w pane v =>
    simp only [handleNotification, effect]
    split
    · cases pane with
      | none => rfl
      | some =>
        simp only [deadEdge]
        by_cases hz : v = "0"
        · simp only [hz, if_true, deadEdge_eq, run]
        · by_cases one : v = "1"
          · simp only [one, deadEdge_eq]
            rfl
          · simp only [hz, one, if_false, run]
    · split
      · cases pane with
        | none => rfl
        | some =>
          simp only [applySubValue]
          cases parseSubValue v <;> rfl
      · rfl
  | sessionRenamed =>
    simp only [handleNotification, effect]
    split <;> rfl
  | _ => rfl

theorem Effect.run_view (e : Effect) (t : Panes) : (∀ p, (e.run t).1 p = (e.view p (t p)).1) ∧
    ((e.run t).2 ≠ .hint → ∀ p, (e.view p (t p)).2 = false) := by
  cases e with
  | nothing | stop => exact ⟨fun _ => rfl, fun _ _ => rfl⟩
  | hint => exact ⟨fun _ => rfl, fun hc => absurd rfl hc⟩
  | seen pane =>
    refine ⟨fun _ => rfl, fun hc p => ?_⟩
    by_cases same : pane = p
    · subst same
      cases hk : t pane <;> simp_all [run, view]
    · simp [view, same]
  | dead pane v =>
    refine ⟨fun _ => rfl, fun hc p => ?_⟩
    by_cases same : pane = p
    · subst same
      by_cases ha : (t pane).map PaneRow.dead = some v
      · simp [view, ha]
      · simp [run, ha] at hc
    · simp [view, same]
  | push pane =>
    simp only [run]
    cases hk : t pane with
    | none =>
      refine ⟨fun p => ?_, fun hc => absurd rfl hc⟩
      by_cases same : pane = p
      · subst same
        simp [view, hk]
      · simp [view, same]
    | some =>
      refine ⟨fun p => ?_, fun _ p => ?_⟩
      · by_cases same : pane = p
        · subst same
          simp [view, hk]
        · simp [view, same, Ne.symm same]
      · by_cases same : pane = p
        · subst same
          simp [view, hk]
        · simp [view, same]

/-- Handling a notification, pane by pane. -/
theorem handleNotification_view (ownId : Option String) (t : Panes) (n : Notification) :
    (∀ p, (handleNotification ownId t n).1 p = ((n.effect ownId).view p (t p)).1) ∧
    ((handleNotification ownId t n).2 ≠ .hint →
      ∀ p, ((n.effect ownId).view p (t p)).2 = false) := by
  rw [handleNotification_eq]
  exact (n.effect ownId).run_view t

/-! ## The table is owed tmux's panes -/

namespace Watch

variable (ownId : Option String)

def effects (s : Watch) : List Effect :=
  s.queue.map (Queued.effect ownId)

/-- Reading the queue from these panes ends at tmux's, or raises a hint. -/
def Owed (s : Watch) (panes : Panes) : Prop :=
  ∀ p, (reads p (panes p) (s.effects ownId)).2 = true ∨
    (reads p (panes p) (s.effects ownId)).1 = s.tmux p

/-- What tmux sends with a change: values of the pane, or a hint. -/
structure Announced (before after : Panes) (sent : List Notification) : Prop where
  accurate : ∀ n ∈ sent, ∀ p value, n.effect ownId = .push p value →
    ∃ row, after p = some row ∧ row.pushed = value
  told : ∀ p, after p ≠ before p →
    (reads p (before p) (sent.map (Notification.effect ownId))).2 = true ∨
      (reads p (before p) (sent.map (Notification.effect ownId))).1 = after p

/-- The last values pushed are the pane's, or there is a hint. -/
def LastAccurate (panes : Panes) (p : String) (row : Option PaneRow) (es : List Effect) : Prop :=
  (reads p row es).2 = true ∨
    ∀ value, lastPush p es = some value → ∃ row, panes p = some row ∧ row.pushed = value

def Announces (s : Watch) : WatchStep → Prop
  | .tmux panes sent => Announced ownId s.tmux panes (sent.map Prod.fst)
  | _ => True

structure Honest (s : Watch) : Prop where
  /-- The table, unless a reconcile is on its way that cannot fail in silence. -/
  table : (∀ asking, s.asking = some asking → asking.cause = .request) →
    s.deadline = true ∨ s.pending = true ∨ s.Owed ownId s.table
  answer : ∀ asking panes, s.asking = some asking → asking.answer = some panes →
    s.pending = true ∨ s.Owed ownId panes
  /-- The last values pushed are tmux's, or there is a hint. -/
  pushes : s.pending = true ∨ ∀ es, es <:+ s.effects ownId → ∀ p row, LastAccurate s.tmux p row es
  gap : s.pending = true → s.continuityEpoch.isSome ∨ .continuityLost ∈ s.queue
  held : ∀ epoch, s.continuityEpoch = some epoch →
    s.pending = true ∧ epoch ≤ s.epoch ∧ (s.deadline = true ∨ s.asking.isSome)
  /-- If nothing was dropped since, tmux has not changed since. -/
  exact : ∀ epoch, s.continuityEpoch = some epoch → s.epoch = epoch →
    ∀ asking panes, s.asking = some asking → asking.answer = some panes → panes = s.tmux

/-! ## One step -/

section

variable {ownId} {s : Watch} {e : WatchStep}

theorem idle_iff : s.idle = true ↔ s.up = true ∧ s.asking = none := by
  simp [idle]

structure Sent (s s' : Watch) (sent : List (Notification × Bool)) : Prop where
  same : s' = { s with queue := s'.queue, pending := s'.pending, epoch := s'.epoch }
  epoch : s.epoch ≤ s'.epoch
  queued : ∃ new, s'.queue = s.queue ++ new ∧
    ∀ q ∈ new, q = .continuityLost ∨ ∃ n ∈ sent.map Prod.fst, q = .notification n
  gap : s.pending = true → s'.pending = true ∧ s'.queue = s.queue ∧
    s'.epoch = s.epoch + sent.length
  whole : s.pending = false →
    (s'.pending = false ∧ s'.queue = s.queue ++ sent.map (.notification ·.1)) ∨
      (s'.pending = true ∧ .continuityLost ∈ s'.queue)

theorem sent_enqueue (sent : List (Notification × Bool)) (s : Watch) :
    Sent s (sent.foldl enqueueNotification s) sent := by
  induction sent generalizing s with
  | nil =>
    exact ⟨rfl, Nat.le_refl _, ⟨[], by simp, nofun⟩, fun h => ⟨h, rfl, rfl⟩,
      fun h => .inl ⟨h, by simp⟩⟩
  | cons x sent ih =>
    obtain ⟨hs, epoch, ⟨new, queued, ha⟩, gap, hw⟩ := ih (s.enqueueNotification x)
    have ha (q : Queued) (there : q ∈ new) : q = .continuityLost ∨
        ∃ n ∈ (x :: sent).map Prod.fst, q = .notification n :=
      (ha q there).imp_right fun ⟨n, there, hs⟩ => ⟨n, mem_cons_of_mem _ there, hs⟩
    rw [foldl_cons]
    cases dropping : s.pending with
    | true =>
      have first : s.enqueueNotification x = { s with epoch := s.epoch + 1 } := by
        simp [enqueueNotification, dropping]
      rw [first] at hs epoch gap queued ⊢
      obtain ⟨hst, queue, hc⟩ := gap dropping
      dsimp only at hc
      refine ⟨hs, by omega, ⟨new, queued, ha⟩, fun _ => ⟨hst, queue, ?_⟩,
        fun h => by simp [dropping] at h⟩
      rw [length_cons]
      omega
    | false =>
      cases hr : x.2 with
      | true =>
        have first : s.enqueueNotification x =
            { s with queue := s.queue ++ [.notification x.1] } := by
          simp [enqueueNotification, dropping, hr]
        rw [first] at hs epoch hw queued ⊢
        refine ⟨hs, epoch, ⟨.notification x.1 :: new, by simpa using queued, ?_⟩,
          fun h => by simp [dropping] at h, fun _ => ?_⟩
        · exact forall_mem_cons.mpr ⟨.inr ⟨x.1, by simp, rfl⟩, ha⟩
        · refine (hw dropping).imp_left fun ⟨hst, queue⟩ => ⟨hst, ?_⟩
          rw [queue]
          simp
      | false =>
        have first : s.enqueueNotification x = { s with
              pending := true, epoch := s.epoch + 1, queue := s.queue ++ [.continuityLost] } := by
          simp [enqueueNotification, dropping, hr]
        rw [first] at hs epoch gap queued ⊢
        obtain ⟨hst, queue, hc⟩ := gap rfl
        dsimp only at epoch
        refine ⟨hs, by omega, ⟨.continuityLost :: new, by simpa using queued, ?_⟩,
          fun h => by simp [dropping] at h, fun _ => .inr ⟨hst, ?_⟩⟩
        · exact forall_mem_cons.mpr ⟨.inl rfl, ha⟩
        · rw [queue]
          simp

/-- What one step does to the watch. -/
inductive Moves (ownId : Option String) (s : Watch) : WatchStep → Watch → Prop
  | still {e : WatchStep} : Moves ownId s e s
  | sent {panes : Panes} {sent : List (Notification × Bool)} {s' : Watch}
      (came : Sent { s with tmux := panes } s' sent) : Moves ownId s (.tmux panes sent) s'
  | reads {n : Notification} {rest : List Queued} {deadline up : Bool} (idle : s.idle = true)
      (queue : s.queue = .notification n :: rest)
      (armed : deadline = (s.deadline || decide ((handleNotification ownId s.table n).2 = .hint))) :
      Moves ownId s .handle
        { s with queue := rest, table := (handleNotification ownId s.table n).1, deadline, up }
  | lost {rest : List Queued} (idle : s.idle = true) (queue : s.queue = .continuityLost :: rest) :
      Moves ownId s .handle { s with
        queue := rest, pending := true, continuityEpoch := some s.epoch
        asking := some ⟨.continuity, none⟩ }
  | asks {e : WatchStep} {cause : Cause} {deadline : Bool} (idle : s.idle = true)
      (why : cause = .request ∧ deadline = s.deadline ∨ cause = .timer) :
      Moves ownId s e { s with deadline, asking := some ⟨cause, none⟩ }
  | answered {cause : Cause} (asked : s.asking = some ⟨cause, none⟩) :
      Moves ownId s .answer { s with asking := some ⟨cause, some s.tmux⟩ }
  | applied {cause : Cause} {panes : Panes} (asked : s.asking = some ⟨cause, some panes⟩) :
      Moves ownId s .apply (s.applyAnswer panes)
  | failed {asking : Asking} (asked : s.asking = some asking) :
      Moves ownId s .fail (s.failed asking.cause)

theorem step_moves (ownId : Option String) (s : Watch) (e : WatchStep) :
    s.Moves ownId e (s.step ownId e) := by
  cases e with simp only [Watch.step]
  | tmux panes sent => exact .sent (sent_enqueue sent _)
  | handle =>
    split
    · next idle =>
      cases queue : s.queue with
      | nil =>
        simp only [handleNext, queue]
        exact .still
      | cons q =>
        cases q with
        | continuityLost =>
          simp only [handleNext, queue]
          exact .lost idle queue
        | notification n =>
          simp only [handleNext, queue]
          cases action : (handleNotification ownId s.table n).2 <;>
            exact .reads idle queue (by simp [action])
    · exact .still
  | request =>
    split
    · next idle => exact .asks idle (.inl ⟨rfl, rfl⟩)
    · exact .still
  | fire =>
    split
    · next idle => exact .asks (and_eq_true_iff.mp idle).1 (.inr rfl)
    · exact .still
  | answer =>
    split
    · next asked => exact .answered asked
    · exact .still
  | apply =>
    split
    · next asked => exact .applied asked
    · exact .still
  | fail =>
    split
    · next asked => exact .failed asked
    · exact .still

end

/-! ## tmux goes on -/

section

variable {ownId} {s : Watch} {ps b a : Panes} {es : List Effect} {p : String}
  {sent : List Notification}

theorem reads_of_accurate {row : Option PaneRow} (hs : ps p = row)
    (ha : ∀ v, lastPush p es = some v →
      ∃ row, ps p = some row ∧ row.pushed = v) : (reads p row es).1 = ps p := by
  rw [reads_row]
  cases hl : lastPush p es with
  | none => exact hs.symm
  | some v =>
    obtain ⟨k, there, rfl⟩ := ha v hl
    rw [← hs, there]
    rfl

section

variable (told : Announced ownId b a sent)

include told

theorem Announced.lastPush {v : SubValue}
    (hl : Effect.lastPush p (sent.map (effect ownId)) = some v) :
    ∃ row, a p = some row ∧ row.pushed = v := by
  have among : ∃ n ∈ sent, n.effect ownId = .push p v := by
    clear told
    induction sent with
    | nil => cases hl
    | cons n rest ih =>
      simp only [map_cons, Effect.lastPush] at hl
      cases hla : Effect.lastPush p (rest.map (effect ownId)) with
      | some =>
        rw [hla, some_or] at hl
        obtain ⟨n', among, hp⟩ := ih (hla.trans hl)
        exact ⟨n', mem_cons_of_mem _ among, hp⟩
      | none =>
        rw [hla, none_or] at hl
        refine ⟨n, mem_cons_self, ?_⟩
        split at hl
        · next pane v' hp =>
          split at hl
          · next same =>
            cases hl
            rw [hp, same]
          · cases hl
        · cases hl
  obtain ⟨n, among, hp⟩ := among
  exact told.accurate n among p v hp

/-- From the panes before, what was sent leads to the panes after, or raises a hint. -/
theorem Announced.reads (p : String) : (reads p (b p) (sent.map (effect ownId))).2 = true ∨
      (reads p (b p) (sent.map (effect ownId))).1 = a p := by
  by_cases hs : a p = b p
  · exact .inr (reads_of_accurate hs fun _ hl => told.lastPush hl)
  · exact told.told p hs

theorem Announced.owed
    (ho : (Effect.reads p (ps p) es).2 = true ∨ (Effect.reads p (ps p) es).1 = b p) :
    (Effect.reads p (ps p) (es ++ sent.map (effect ownId))).2 = true ∨
      (Effect.reads p (ps p) (es ++ sent.map (effect ownId))).1 = a p := by
  rw [reads_append]
  obtain hinted | ht := ho
  · exact .inl (by simp [hinted])
  · rw [ht]
    exact (told.reads p).imp_left fun hinted => by simp [hinted]

theorem Announced.lastAccurate {row : Option PaneRow} (ho : LastAccurate b p row es) :
    LastAccurate a p row (es ++ sent.map (effect ownId)) := by
  unfold LastAccurate
  rw [reads_append, lastPush_append]
  obtain hinted | ho := ho
  · exact .inl (by simp [hinted])
  cases hn : Effect.lastPush p (sent.map (effect ownId)) with
  | some v =>
    refine .inr fun v' hl => ?_
    cases hl
    exact told.lastPush hn
  | none =>
    cases hl : Effect.lastPush p es with
    | none => exact .inr (by simp)
    | some v =>
      obtain ⟨k, there, rfl⟩ := ho v hl
      -- nothing was pushed since: the pane is unchanged, or whoever has these values gets a hint
      by_cases hs : a p = b p
      · refine .inr fun v' hl => ?_
        cases hl
        exact ⟨k, hs.trans there, rfl⟩
      · have hinted := (told.told p hs).resolve_right fun ha => hs (by
          rw [← ha, reads_row, hn])
        refine .inl (or_eq_true_iff.mpr ?_)
        cases row with
        | none => exact .inl (reads_none hl)
        | some row =>
          have ht : (Effect.reads p (some row) es).1 = some (row.push k.pushed) := by
            rw [reads_row, hl]
            rfl
          rw [there] at hinted
          rw [ht]
          have hal := @reads_hint_of_dead p _ (row.push k.pushed) k hn rfl
          exact .inr (hal.trans hinted)

end

theorem effects_sent {s' : Watch} {sent : List (Notification × Bool)}
    (queue : s'.queue = s.queue ++ sent.map (.notification ·.1)) :
    s'.effects ownId = s.effects ownId ++ (sent.map Prod.fst).map (effect ownId) := by
  simp [effects, queue, Queued.effect]

section

variable (good : s.Honest ownId)

include good

theorem Honest.tmux {sent : List (Notification × Bool)} {s' : Watch}
    (hca : Sent { s with tmux := ps } s' sent)
    (told : Announced ownId s.tmux ps (sent.map Prod.fst)) : s'.Honest ownId := by
  obtain ⟨hs, epoch, -, gap, whole⟩ := hca
  -- the panes a state owes stay owed
  have ho : ∀ k : Panes, s.pending = true ∨ s.Owed ownId k →
      s'.pending = true ∨ s'.Owed ownId k := by
    intro k b
    cases hd : s.pending with
    | true => exact .inl (gap hd).1
    | false =>
      obtain ⟨-, queue⟩ | ⟨hl, -⟩ := whole hd
      · refine .inr fun p => ?_
        have ha : s'.tmux = ps := by rw [hs]
        have ht := b.resolve_left (by simp [hd]) p
        rw [effects_sent queue, ha]
        exact told.owed ht
      · exact .inl hl
  have asking : s'.asking = s.asking := by rw [hs]
  have hta : s'.table = s.table := by rw [hs]
  have hde : s'.deadline = s.deadline := by rw [hs]
  have hc : s'.continuityEpoch = s.continuityEpoch := by rw [hs]
  have ha : s'.tmux = ps := by rw [hs]
  refine ⟨fun hr => ?_, fun a k ht hf => ?_, ?_, fun hl => ?_, fun e ht => ?_,
    fun e ht hu a k ht' hf => ?_⟩
  · rw [asking] at hr
    rw [hde, hta]
    exact (good.table hr).imp_right (ho s.table)
  · exact ho k (good.answer a k (asking ▸ ht) hf)
  · cases hd : s.pending with
    | true => exact .inl (gap hd).1
    | false =>
      obtain ⟨-, queue⟩ | ⟨hl, -⟩ := whole hd
      · refine .inr fun es hsu p row => ?_
        have old := good.pushes.resolve_left (by simp [hd])
        rw [effects_sent queue] at hsu
        rw [ha]
        obtain ⟨passed, split⟩ := hsu
        obtain ⟨f, whole, rfl⟩ | ⟨read, -, new⟩ := append_eq_append_iff.mp split
        · exact told.lastAccurate (old f ⟨passed, whole.symm⟩ p row)
        · refine .inr fun v last => told.lastPush ?_
          rw [new, lastPush_append, last, some_or]
      · exact .inl hl
  · cases hd : s.pending with
    | true =>
      obtain ⟨-, queue, -⟩ := gap hd
      rw [hc, queue]
      exact good.gap hd
    | false =>
      obtain ⟨hst, -⟩ | ⟨-, hm⟩ := whole hd
      · simp [hst] at hl
      · exact .inr hm
  · rw [hc] at ht
    obtain ⟨hd, le, hb⟩ := good.held e ht
    rw [hde, asking]
    exact ⟨(gap hd).1, Nat.le_trans le epoch, hb⟩
  · rw [hc] at ht
    rw [asking] at ht'
    obtain ⟨hd, le, -⟩ := good.held e ht
    obtain ⟨-, -, hco⟩ := gap hd
    have hco : s'.epoch = s.epoch + sent.length := hco
    obtain rfl : sent = [] := length_eq_zero_iff.mp (by omega)
    have hst : ps = s.tmux := by
      funext p
      by_contra hch
      simpa [reads, Ne.symm hch] using told.told p hch
    rw [ha, hst]
    exact good.exact e ht (by simpa using hco.symm.trans hu) a k ht' hf

/-! ## The loop goes on -/

theorem Honest.owed_tmux : s.pending = true ∨ s.Owed ownId s.tmux := by
  refine good.pushes.imp_right fun ha p => ?_
  refine (ha _ suffix_rfl p (s.tmux p)).imp_right fun hl => ?_
  exact reads_of_accurate rfl hl

theorem Honest.reads {n : Notification} {rest : List Queued} {deadline up : Bool}
    (hi : s.idle = true) (queue : s.queue = .notification n :: rest)
    (ha : deadline = (s.deadline || decide ((handleNotification ownId s.table n).2 = .hint))) :
    Honest ownId
      { s with queue := rest, table := (handleNotification ownId s.table n).1, deadline, up } := by
  obtain ⟨-, hf⟩ := idle_iff.mp hi
  obtain ⟨hr, hc⟩ := handleNotification_view ownId s.table n
  have he : s.effects ownId = n.effect ownId :: rest.map (Queued.effect ownId) := by
    simp [Watch.effects, queue, Queued.effect]
  have hv : ∀ asking, s.asking = some asking → False := by simp [hf]
  refine ⟨fun _ => ?_, fun a _ ht => (hv a ht).elim, ?_, fun hl => ?_,
    fun e ht => ?_, fun _ _ _ a _ ht => (hv a ht).elim⟩
  · by_cases hint : (handleNotification ownId s.table n).2 = .hint
    · exact .inl (by simp [ha, hint])
    · have b := good.table (by simp [hf])
      simp only [ha, hint, decide_false, Bool.or_false]
      refine b.imp_right (.imp_right fun ho p => ?_)
      have ht := ho p
      simp only [he, Effect.reads, hc hint p, ← hr p] at ht
      exact ht
  · refine good.pushes.imp_right fun hac es hs => hac es ?_
    rw [he]
    exact .trans hs (List.suffix_cons _ _)
  · simpa [queue] using good.gap hl
  · obtain ⟨hl, le, hb⟩ := good.held e ht
    exact ⟨hl, le, hb.imp_left fun on => by simp [ha, on]⟩

theorem Honest.apply {c : Cause} (ha : s.asking = some ⟨c, some ps⟩)
    (up : (s.applyAnswer ps).up = true) :
    (s.applyAnswer ps).Honest ownId := by
  unfold applyAnswer at up ⊢
  cases held : s.continuityEpoch with
  | none =>
    refine ⟨fun _ => .inr (good.answer _ ps ha rfl), fun a _ ht => ?_, good.pushes,
      fun hl => ?_, fun e ht => ?_, fun e ht => ?_⟩
    · cases ht
    · simpa [held] using good.gap hl
    · cases ht
    · cases ht
  | some epoch =>
    simp only [held] at up ⊢
    by_cases hu : s.epoch = epoch
    · rw [if_pos hu]
      have hc := good.exact epoch held hu _ ps ha rfl
      refine ⟨fun _ => .inr (.inr fun p => .inr ?_), fun a _ ht => ?_,
        .inr fun es hs p row => .inr fun v hla => ?_, fun hl => ?_, fun e ht => ?_,
        fun e ht => ?_⟩
      · simp only [Watch.effects, map_nil, Effect.reads, hc]
      · cases ht
      · simp only [Watch.effects, map_nil, suffix_nil] at hs
        rw [hs] at hla
        cases hla
      · cases hl
      · cases ht
      · cases ht
    · rw [if_neg hu] at up
      cases up

theorem Honest.fail {asking : Asking} (asked : s.asking = some asking)
    (hc : s.careful .fail = true) (up : (s.failed asking.cause).up = true) :
    (s.failed asking.cause).Honest ownId := by
  obtain ⟨c, ans⟩ := asking
  simp only [Watch.careful, asked] at hc
  cases c with
  | bootstrap => cases up
  | timer => cases hc
  | continuity =>
    refine ⟨fun _ => .inl rfl, fun a _ ht => ?_, good.pushes, good.gap, fun e ht => ?_,
      fun _ _ _ a _ ht => ?_⟩
    · cases ht
    · obtain ⟨hl, le, -⟩ := good.held e ht
      exact ⟨hl, le, .inl rfl⟩
    · cases ht
  | request =>
    have hu : s.deadline = false := by simpa using hc
    have hf : s.continuityEpoch = none := by simpa [failed] using up
    have ho := (good.table (by simp [asked])).resolve_left (by simp [hu])
    refine ⟨fun _ => .inr ho, fun a _ ht => ?_, good.pushes, good.gap, fun e ht => ?_,
      fun e ht => ?_⟩
    · cases ht
    · cases hf.symm.trans ht
    · cases hf.symm.trans ht

theorem Honest.step {e : WatchStep} (told : s.Announces ownId e) (hc : s.careful e = true)
    (up : (s.step ownId e).up = true) :
    (s.step ownId e).Honest ownId := by
  have hm := step_moves ownId s e
  generalize s.step ownId e = s' at *
  cases hm with
  | still => exact good
  | sent hca => exact good.tmux hca told
  | reads hi hq har => exact good.reads hi hq har
  | lost =>
    refine ⟨fun hr => ?_, fun a k ht hf => ?_, .inl rfl, fun _ => .inl rfl,
      fun e ht => ?_, fun e _ _ a k ht hf => ?_⟩
    · cases hr _ rfl
    · cases ht
      cases hf
    · cases ht
      exact ⟨rfl, Nat.le_refl _, .inr rfl⟩
    · cases ht
      cases hf
  | asks hi hw =>
    obtain ⟨-, hfr⟩ := idle_iff.mp hi
    refine ⟨fun hr => ?_, fun a _ ht hf => ?_, good.pushes, good.gap, fun e ht => ?_,
      fun _ _ _ a _ ht hf => ?_⟩
    · obtain ⟨-, rfl⟩ | rfl := hw
      · exact good.table (by simp [hfr])
      · cases hr _ rfl
    · cases ht
      cases hf
    · obtain ⟨lost, le, -⟩ := good.held e ht
      exact ⟨lost, le, .inr rfl⟩
    · cases ht
      cases hf
  | @answered c ha =>
    refine ⟨fun hr => ?_, fun a ps ht hf => ?_, good.pushes, good.gap,
      fun e ht => ?_, fun _ _ _ a ps ht hf => ?_⟩
    · refine good.table fun a ht => ?_
      cases ha.symm.trans ht
      exact hr ⟨c, some s.tmux⟩ rfl
    · cases ht
      cases hf
      exact good.owed_tmux
    · obtain ⟨lost, le, -⟩ := good.held e ht
      exact ⟨lost, le, .inr rfl⟩
    · cases ht
      cases hf
      rfl
  | applied ha => exact good.apply ha up
  | failed ha => exact good.fail ha hc up

end

theorem Honest.start (ps : Panes) : Honest ownId { tmux := ps } := by
  refine ⟨fun hr => ?_, fun a _ ht hf => ?_,
    .inr fun es hs p row => .inr fun v hl => ?_, by simp, by simp, by simp⟩
  · cases hr _ rfl
  · cases ht
    cases hf
  · simp only [Watch.effects, map_nil, suffix_nil] at hs
    rw [hs] at hl
    cases hl

end

end Watch

end Cyclops.Tmux
