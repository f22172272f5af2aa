import Cyclops.Lib.Progress
import Cyclops.Tmux.Watcher

/-!
# The pane table converges

A run of the watcher has no end.

Results: `table_converges`, `failed_reconcile_drops_hint`.
-/

namespace Cyclops.Tmux

open Progress List Option Nat Watch Effect

namespace Watch

variable {o : Option String}

def Present (ownId : Option String) (tmux : Panes) (q : Queued) : Prop :=
  ∀ p value, q.effect ownId = .push p value → ∃ row, tmux p = some row ∧ row.pushed = value

def Current (s : Watch) : Prop :=
  ∀ asking panes, s.asking = some asking → asking.answer = some panes → panes = s.tmux

structure Settled (ownId : Option String) (s : Watch) : Prop where
  table : s.table = s.tmux
  current : s.Current
  present : ∀ q ∈ s.queue, Present ownId s.tmux q

/-! ## One step, with tmux's panes unchanged -/

section

variable {s s' : Watch} {e : WatchStep}

theorem applyAnswer_spec (s : Watch) (ps : Panes) :
    (s.applyAnswer ps).table = ps ∧ (s.applyAnswer ps).asking = none ∧
      ((s.applyAnswer ps).queue = s.queue ∨ (s.applyAnswer ps).queue = []) := by
  unfold applyAnswer
  split
  · exact ⟨rfl, rfl, .inl rfl⟩
  · split
    · exact ⟨rfl, rfl, .inr rfl⟩
    · exact ⟨rfl, rfl, .inl rfl⟩

theorem failed_spec (s : Watch) (c : Cause) :
    (s.failed c).table = s.table ∧ (s.failed c).asking = none ∧ (s.failed c).queue = s.queue := by
  cases c <;> exact ⟨rfl, rfl, rfl⟩

theorem queue_step (hto : s.Announces o e) (still : (s.step o e).tmux = s.tmux) :
    (∃ new, (s.step o e).queue = s.queue ++ new ∧ ∀ q ∈ new, Present o s.tmux q) ∨
      (e = .handle ∧ s.idle = true ∧ (s.step o e).queue = s.queue.tail) ∨
      (s.asking.isSome = true ∧ (s.step o e).queue = []) := by
  have hm := step_moves o s e
  generalize s.step o e = s' at *
  have hs (h : s'.queue = s.queue) :
      ∃ new, s'.queue = s.queue ++ new ∧ ∀ q ∈ new, Present o s.tmux q :=
    ⟨[], by simp [h], nofun⟩
  cases hm with
  | sent hc =>
    obtain ⟨new, queue, ha⟩ := hc.queued
    refine .inl ⟨new, queue, fun q ht p v hp => ?_⟩
    rw [← still, hc.same]
    obtain rfl | ⟨n, sent, rfl⟩ := ha q ht
    · cases hp
    · exact hto.accurate n sent p v hp
  | reads idle queue | lost idle queue => exact .inr (.inl ⟨rfl, idle, by rw [queue]; rfl⟩)
  | @applied _ ps has =>
    obtain hk | he := (s.applyAnswer_spec ps).2.2
    · exact .inl (hs hk)
    · exact .inr (.inr ⟨by rw [has]; rfl, he⟩)
  | @failed a => exact .inl (hs (s.failed_spec a.cause).2.2)
  | _ => exact .inl (hs rfl)

theorem asking_step {a : Asking} {ps : Panes}
    (ha : (s.step o e).asking = some a) (hfo : a.answer = some ps) :
    s.asking = some a ∨ ps = s.tmux := by
  have hm := step_moves o s e
  generalize s.step o e = s' at *
  cases hm with
  | sent hc =>
    rw [hc.same] at ha
    exact .inl ha
  | still | reads => exact .inl ha
  | lost | asks =>
    cases ha
    cases hfo
  | answered =>
    cases ha
    cases hfo
    exact .inr rfl
  | @applied _ g => cases (s.applyAnswer_spec g).2.1.symm.trans ha
  | @failed a => cases (s.failed_spec a.cause).2.1.symm.trans ha

/-- The table is kept, reads the head of the queue, or becomes the panes tmux gave. -/
theorem table_step (s : Watch) (e : WatchStep) : (s.step o e).table = s.table ∨
      (e = .handle ∧ s.idle = true ∧ ∃ q rest, s.queue = q :: rest ∧
        ∀ p, (s.step o e).table p = ((q.effect o).view p (s.table p)).1) ∨
      ∃ a panes, s.asking = some a ∧ a.answer = some panes ∧ (s.step o e).table = panes := by
  have hm := step_moves o s e
  generalize s.step o e = s' at *
  cases hm with
  | sent hc =>
    rw [hc.same]
    exact .inl rfl
  | @reads n rest _ _ idle queue =>
    exact .inr (.inl ⟨rfl, idle, _, rest, queue, (handleNotification_view o s.table n).1⟩)
  | @applied _ panes asked =>
    exact .inr (.inr ⟨_, panes, asked, rfl, (s.applyAnswer_spec panes).1⟩)
  | @failed a => exact .inl (s.failed_spec a.cause).1
  | _ => exact .inl rfl

theorem Present.view {tmux : Panes} {q : Queued} (hp : Present o tmux q) (p : String) :
    ((q.effect o).view p (tmux p)).1 = tmux p := by
  refine @reads_of_accurate tmux [q.effect o] p _ rfl fun v hl => ?_
  cases he : q.effect o with
  | push pane =>
    rw [he] at hl
    by_cases hs : pane = p
    · subst hs
      simp only [lastPush, if_true, none_or, some.injEq] at hl
      exact hp pane v (hl ▸ he)
    · simp [lastPush, hs] at hl
  | _ => simp [he, lastPush] at hl

theorem Current.step (hc : s.Current) (hs : (s.step o e).tmux = s.tmux) : (s.step o e).Current := by
  intro a ps ha hfo
  obtain hb | hn := asking_step ha hfo
  · exact (hc a ps hb hfo).trans hs.symm
  · exact hn.trans hs.symm

theorem Settled.step (hs : s.Settled o) (hto : s.Announces o e)
    (still : (s.step o e).tmux = s.tmux) : (s.step o e).Settled o := by
  refine ⟨?_, hs.current.step still, ?_⟩
  · rw [still]
    obtain hsa | ⟨-, -, q, rest, queue, hv⟩ | ⟨a, panes, asked, found, hsa⟩ :=
      table_step s e
    · exact hsa.trans hs.table
    · funext p
      rw [hv p, hs.table, (hs.present q (by simp [queue])).view]
    · exact hsa.trans (hs.current a panes asked found)
  · rw [still]
    obtain ⟨new, queue, hp⟩ | ⟨-, -, queue⟩ | queue := queue_step hto still
    · rw [queue]
      intro q ht
      obtain ht | ht := mem_append.mp ht
      · exact hs.present q ht
      · exact hp q ht
    · rw [queue]
      exact fun q ht => hs.present q (mem_of_mem_tail ht)
    · simp [queue]

/-! ## The loop asks for nothing -/

/-- The head of the queue leads the table to tmux's panes, a hint, or the marker of a gap. -/
def Due (ownId : Option String) (s : Watch) (old : List Queued) : Prop :=
  .continuityLost ∈ old ∨ ∀ p,
    (Effect.reads p (s.table p) (old.map (Queued.effect ownId))).2 = true ∨
      (Effect.reads p (s.table p) (old.map (Queued.effect ownId))).1 = s.tmux p

structure Parts (ownId : Option String) (s : Watch) (old new : List Queued) : Prop where
  queue : s.queue = old ++ new
  present : ∀ q ∈ new, Present ownId s.tmux q

theorem Parts.tail {old new : List Queued} (hp : s.Parts o old new)
    (hs : s'.tmux = s.tmux) (hq : s'.queue = s.queue.tail) :
    s'.Parts o old.tail (if old = [] then new.tail else new) := by
  rw [hp.queue] at hq
  cases old with
  | nil => exact ⟨hq, hs ▸ fun q ht => hp.present q (mem_of_mem_tail ht)⟩
  | cons => exact ⟨hq, hs ▸ hp.present⟩

theorem Parts.step {old new : List Queued} (hp : s.Parts o old new)
    (hto : s.Announces o e) (hs : (s.step o e).tmux = s.tmux) :
    (∃ new', (s.step o e).Parts o old new') ∨
      (e = .handle ∧ s.idle = true ∧ (s.step o e).queue = s.queue.tail) ∨
      (s.asking.isSome = true ∧ (s.step o e).Parts o [] []) := by
  obtain ⟨more, queue, hpr⟩ | handled | ⟨ha, queue⟩ := queue_step hto hs
  · refine .inl ⟨new ++ more, by rw [queue, hp.queue, append_assoc], ?_⟩
    rw [hs]
    exact fun q ht => (mem_append.mp ht).elim (hp.present q) (hpr q)
  · exact .inr (.inl handled)
  · exact .inr (.inr ⟨ha, queue, nofun⟩)

def Stale (ownId : Option String) (k : Nat) (s : Watch) : Prop :=
  ∃ old new, s.Parts ownId old new ∧ old.length ≤ k

variable {k : Nat}

theorem Stale.tail (hs : s.Stale o k) (still : s'.tmux = s.tmux)
    (hq : s'.queue = s.queue.tail) : s'.Stale o (k - 1) := by
  obtain ⟨old, new, parts, hsh⟩ := hs
  refine ⟨_, _, parts.tail still hq, ?_⟩
  rw [length_tail]
  omega

theorem Stale.step (hst : s.Stale o k) (ht : s.Announces o e)
    (still : (s.step o e).tmux = s.tmux) : (s.step o e).Stale o k := by
  obtain ⟨old, new, parts, hs⟩ := id hst
  obtain ⟨new', parts⟩ | ⟨-, -, hq⟩ | ⟨-, parts⟩ := parts.step ht still
  · exact ⟨old, new', parts, hs⟩
  · obtain ⟨old, new, parts, hs⟩ := hst.tail still hq
    exact ⟨old, new, parts, by omega⟩
  · exact ⟨[], [], parts, zero_le k⟩

theorem Stale.present (hst : s.Stale o 0) : ∀ q ∈ s.queue, Present o s.tmux q := by
  obtain ⟨old, new, parts, hs⟩ := hst
  obtain rfl := length_eq_zero_iff.mp (le_zero.mp hs)
  exact parts.queue ▸ parts.present

/-- At most the first `k` of the queue are not present values, and they are due. -/
def Reading (ownId : Option String) (k : Nat) (s : Watch) : Prop :=
  ∃ old new, s.Parts ownId old new ∧ old.length ≤ k ∧ s.Due ownId old

theorem Reading.table (hr : s.Reading o 0) : s.table = s.tmux := by
  obtain ⟨old, new, -, short, hd⟩ := hr
  obtain rfl := length_eq_zero_iff.mp (le_zero.mp short)
  funext p
  obtain hl | hd := hd
  · cases hl
  · simpa [reads] using hd p

theorem handle_calm {q : Queued} {rest : List Queued} (queue : s.queue = q :: rest)
    (hi : s.idle = true) (hfr : (s.step o .handle).asking = none)
    (hu : (s.step o .handle).deadline = false) :
    q ≠ .continuityLost ∧ (s.step o .handle).tmux = s.tmux ∧
      ∀ p, (s.step o .handle).table p = ((q.effect o).view p (s.table p)).1 ∧
        ((q.effect o).view p (s.table p)).2 = false := by
  rw [step, if_pos hi] at hfr hu ⊢
  cases q with
  | continuityLost => simp [handleNext, queue, ask] at hfr
  | notification n =>
    obtain ⟨hr, calm⟩ := handleNotification_view o s.table n
    simp only [handleNext, queue] at hu ⊢
    refine ⟨by simp, ?_⟩
    cases action : (handleNotification o s.table n).2 with
    | hint => simp [action] at hu
    | none | disconnect => exact ⟨rfl, fun p => ⟨hr p, calm (by simp [action]) p⟩⟩

theorem handle_queue (hi : s.idle = true) : (s.step o .handle).queue = s.queue.tail := by
  rw [step, if_pos hi]
  unfold handleNext
  split
  · next empty => rw [empty]; rfl
  · next queue => rw [queue]; rfl
  · next queue =>
    rw [queue]
    dsimp only
    split <;> rfl

theorem Reading.handle (hre : s.Reading o k) (idle : s.idle = true)
    (hfr : (s.step o .handle).asking = none)
    (hu : (s.step o .handle).deadline = false) :
    (s.step o .handle).Reading o (k - 1) := by
  obtain ⟨old, new, parts, short, hd⟩ := hre
  cases hq : s.queue with
  | nil =>
    have hs : s.step o .handle = s := by
      simp only [step, idle, if_true, handleNext, hq]
    obtain ⟨rfl, rfl⟩ := append_eq_nil_iff.mp (parts.queue.symm.trans hq)
    exact hs.symm ▸ ⟨[], [], parts, zero_le _, hd⟩
  | cons q =>
    obtain ⟨hm, still, hr⟩ := handle_calm hq idle hfr hu
    refine ⟨_, _, parts.tail still (handle_queue idle), ?_, ?_⟩
    · rw [length_tail]
      omega
    cases old with
    | nil =>
      -- nothing is due any more, and present values change nothing
      have table : s.table = s.tmux := Reading.table ⟨[], new, parts, le_refl _, hd⟩
      have hp := parts.present q (by rw [← nil_append new, ← parts.queue, hq]; simp)
      refine .inr fun p => .inr ?_
      change (s.step o .handle).table p = (s.step o .handle).tmux p
      rw [still, (hr p).1, table, hp.view]
    | cons =>
      obtain ⟨rfl, -⟩ := cons.inj (hq.symm.trans parts.queue)
      obtain hl | hd := hd
      · exact .inl ((mem_cons.mp hl).resolve_left (Ne.symm hm))
      · refine .inr fun p => ?_
        have he := hd p
        simp only [map_cons, reads, (hr p).2] at he
        rwa [still, (hr p).1]

theorem Reading.step (hr : s.Reading o k) (ht : s.Announces o e)
    (still : (s.step o e).tmux = s.tmux) (hb : s.asking = none)
    (hfr : (s.step o e).asking = none) (hu : (s.step o e).deadline = false) :
    (s.step o e).Reading o k := by
  by_cases hre : e = .handle ∧ s.idle = true
  · obtain ⟨rfl, idle⟩ := hre
    obtain ⟨old, new, parts, short, hd⟩ := hr.handle idle hfr hu
    exact ⟨old, new, parts, by omega, hd⟩
  obtain ⟨old, new, parts, short, hd⟩ := hr
  have table : (s.step o e).table = s.table := by
    obtain hs | ⟨handles, idle, -⟩ | ⟨a, panes, asked, -⟩ := table_step s e
    · exact hs
    · exact absurd ⟨handles, idle⟩ hre
    · cases hb.symm.trans asked
  obtain ⟨new', parts⟩ | ⟨handles, idle, -⟩ | ⟨asked, -⟩ := parts.step ht still
  · exact ⟨old, new', parts, short, by rwa [Due, table, still]⟩
  · exact absurd ⟨handles, idle⟩ hre
  · simp [hb] at asked

theorem Honest.due (hg : s.Honest o) (hfr : s.asking = none)
    (hu : s.deadline = false) : s.Due o s.queue := by
  have ho := (hg.table (by simp [hfr])).resolve_left (by simp [hu])
  obtain hl | ho := ho
  · obtain held | hm := hg.gap hl
    · obtain ⟨epoch, held⟩ := isSome_iff_exists.mp held
      simpa [hfr, hu] using hg.held epoch held
    · exact .inl hm
  · exact .inr ho

def Armed (s : Watch) : Prop :=
  s.deadline = true ∨ ∃ asking, s.asking = some asking ∧ asking.cause = .timer

def reconciles (s : Watch) : WatchStep → Bool
  | .apply => s.asking.any (·.answer.isSome)
  | _ => false

theorem Armed.step (ha : s.Armed) (hca : s.careful e = true)
    (up : (s.step o e).up = true) : (s.step o e).Armed ∨ s.reconciles e = true := by
  have on (hi : s.idle = true) : s.deadline = true :=
    ha.resolve_right (by simp [(idle_iff.mp hi).2])
  have hm := step_moves o s e
  generalize s.step o e = s' at *
  cases hm with
  | still => exact .inl ha
  | sent came =>
    rw [came.same]
    exact .inl ha
  | reads hi _ ha => exact .inl (.inl (by simp [ha, on hi]))
  | lost hi => exact .inl (.inl (on hi))
  | asks hi hw =>
    obtain ⟨-, hs⟩ | timer := hw
    · exact .inl (.inl (hs.trans (on hi)))
    · exact .inl (.inr ⟨_, rfl, timer⟩)
  | answered asked =>
    refine .inl (ha.imp_right fun ⟨asking, there, timer⟩ => ⟨_, rfl, ?_⟩)
    cases asked.symm.trans there
    exact timer
  | applied asked => exact .inr (by simp [reconciles, asked])
  | @failed asking asked =>
    simp only [Watch.careful, asked] at hca
    cases hcau : asking.cause with
    | continuity => exact .inl (.inl rfl)
    | bootstrap => simp [hcau, Watch.failed] at up
    | timer => simp [hcau] at hca
    | request =>
      obtain on | ⟨a, there, timer⟩ := ha
      · simp [hcau, on] at hca
      · cases asked.symm.trans there
        cases hcau.symm.trans timer

theorem asking_ends (ha : s.asking.isSome = true) (hfr : (s.step o e).asking = none)
    (hs : e ≠ .fail) :
    s.reconciles e = true ∧ (s.Current → (s.step o e).table = s.tmux) := by
  have hb (hbe : s.asking = none) : s.reconciles e = true ∧
      (s.Current → (s.step o e).table = s.tmux) := by simp [hbe] at ha
  have hm := step_moves o s e
  generalize s.step o e = s' at *
  cases hm with
  | still => exact hb hfr
  | sent hca =>
    rw [hca.same] at hfr
    exact hb hfr
  | reads hi | lost hi | asks hi => exact hb (idle_iff.mp hi).2
  | answered => cases hfr
  | @applied _ ps hk =>
    refine ⟨by simp [reconciles, hk], fun hc => ?_⟩
    rw [(s.applyAnswer_spec ps).1, ← hc _ ps hk rfl]
  | failed => exact absurd rfl hs

end

end Watch

/-! ## Runs without an end -/

/-- Changes and failures end, and the loop gets its turns; `w n` is the watcher before step `n`. -/
structure CalmRun (ownId : Option String) (w : Nat → Watch) (steps : Nat → WatchStep) :
    Prop where
  start : ∃ panes, w 0 = { tmux := panes }
  next : ∀ n, w (n + 1) = (w n).step ownId (steps n)
  up : ∀ n, (w n).up = true
  told : ∀ n, (w n).Announces ownId (steps n)
  succeed : ∃ n, ∀ m, n ≤ m → steps m ≠ .fail
  still : ∃ n, ∀ m, n ≤ m → (w m).tmux = (w n).tmux
  read : ∀ n, ∃ m, n ≤ m ∧ ((w m).queue = [] ∨ (w m).idle = true ∧ steps m = .handle)
  passes : ∀ n, ∃ m, n ≤ m ∧ ((w m).deadline = false ∨ (w m).idle = true ∧ steps m = .fire)
  ends : ∀ n, ∃ m, n ≤ m ∧ (w m).asking = none

namespace CalmRun

variable {o : Option String} {w : Nat → Watch} {steps : Nat → WatchStep} {n : Nat}
  (calm : CalmRun o w steps) (hc : ∀ n, (w n).careful (steps n) = true)

include calm

theorem drain {p : Nat → Watch → Prop} (hl : ∀ m, n ≤ m → ∀ k, p k (w m) → p k (w (m + 1)))
    (hd : ∀ m, n ≤ m → steps m = .handle → (w m).idle = true →
      ∀ k, p k (w m) → p (k - 1) (w (m + 1)))
    (he : ∀ m, n ≤ m → (w m).queue = [] → ∀ k, p k (w m) → p 0 (w m))
    {k : Nat} (hs : p k (w n)) : ∃ m, n ≤ m ∧ p 0 (w m) := by
  induction k generalizing n with
  | zero => exact ⟨n, le_refl n, hs⟩
  | succ k ih =>
    obtain ⟨m, le, read⟩ := calm.read n
    have ht := persists (fun m le => hl m le (k + 1)) hs m le
    obtain none | ⟨hi, hre⟩ := read
    · exact ⟨m, le, he m le none _ ht⟩
    · obtain ⟨m', le', hr⟩ := ih (fun m' le' => hl m' (by omega))
        (fun m' le' => hd m' (by omega)) (fun m' le' => he m' (by omega))
        (hd m le hre hi (k + 1) ht)
      exact ⟨m', by omega, hr⟩

theorem eventually_still :
    ∃ n, ∀ m, n ≤ m → steps m ≠ .fail ∧ ((w m).step o (steps m)).tmux = (w m).tmux := by
  obtain ⟨n, hs⟩ := calm.succeed
  obtain ⟨n', still⟩ := calm.still
  refine ⟨max n n', fun m le => ⟨hs m (by omega), ?_⟩⟩
  rw [← calm.next m, still m (by omega), still (m + 1) (by omega)]

section

variable (hst : ∀ m, n ≤ m →
  steps m ≠ .fail ∧ ((w m).step o (steps m)).tmux = (w m).tmux)

include hst

theorem eventually_present : ∃ m, n ≤ m ∧ ∀ k, m ≤ k → (w k).Stale o 0 := by
  have hl (m : Nat) (le : n ≤ m) (k : Nat) (hs : (w m).Stale o k) : (w (m + 1)).Stale o k := by
    rw [calm.next]
    exact hs.step (calm.told m) (hst m le).2
  have hr : ∃ m, n ≤ m ∧ (w m).Stale o 0 := by
    refine calm.drain hl (fun m le hre hi k hs => ?_)
      (fun m le he k hs => ⟨[], [], ⟨he, nofun⟩, le_refl _⟩)
      ⟨(w n).queue, [], ⟨by simp, nofun⟩, le_refl _⟩
    rw [calm.next]
    exact hs.tail (hst m le).2 (hre ▸ handle_queue hi)
  obtain ⟨m, le, hs⟩ := hr
  exact ⟨m, le, persists (fun k ha => hl k (by omega) 0) hs⟩

theorem eventually_fresh : ∃ m, n ≤ m ∧ ∀ k, m ≤ k → (w k).Current ∧ (w k).Stale o 0 := by
  obtain ⟨m, le, hs⟩ := calm.eventually_present hst
  obtain ⟨m', le', hfr⟩ := calm.ends m
  have hc : (w m').Current := fun a _ has => by cases hfr.symm.trans has
  refine ⟨m', by omega, fun k ha => ⟨?_, hs k (by omega)⟩⟩
  refine persists (p := fun k => (w k).Current) (fun k ha hc => ?_) hc k ha
  rw [calm.next]
  exact hc.step (hst k (by omega)).2

end

theorem ends_of_asking (ha : (w n).asking.isSome = true) :
    ∃ m, n ≤ m ∧ (w m).asking.isSome = true ∧ ((w m).step o (steps m)).asking = none := by
  obtain ⟨k, le, hfr⟩ := calm.ends n
  by_contra hn
  have asks := persists (p := fun m => (w m).asking.isSome = true)
    (fun m le asks => isSome_iff_ne_none.mpr fun none =>
      hn ⟨m, le, asks, calm.next m ▸ none⟩) ha k le
  simp [hfr] at asks

include hc

theorem honest (n : Nat) : (w n).Honest o := by
  induction n with
  | zero =>
    obtain ⟨ps, hs⟩ := calm.start
    exact hs ▸ Honest.start ps
  | succ n ih =>
    have up := calm.up (n + 1)
    rw [calm.next] at up ⊢
    exact ih.step (calm.told n) (hc n) up

theorem armed_next (ha : (w n).Armed) : (w (n + 1)).Armed ∨ (w n).reconciles (steps n) = true := by
  have up := calm.up (n + 1)
  rw [calm.next] at up ⊢
  exact ha.step (hc n) up

theorem unarmed_of_free (hfr : ∀ m, n ≤ m → (w m).asking = none) : (w n).deadline = false := by
  by_contra ha
  have hs := persists (p := fun m => (w m).deadline = true) (n := n) (fun m le ha => by
      obtain (on | ⟨a, asked, -⟩) | hap := calm.armed_next hc (.inl ha)
      · exact on
      · cases (hfr (m + 1) (by omega)).symm.trans asked
      · cases e : steps m <;> simp [e, reconciles, hfr m le] at hap)
    (by simpa using ha)
  obtain ⟨m, le, hu | ⟨idle, fires⟩⟩ := calm.passes n
  · simp [hs m le] at hu
  · have has := hfr (m + 1) (by omega)
    simp only [calm.next, fires, step, idle, hs m le] at has
    cases has

theorem reconciled_of_armed (ha : (w n).Armed) :
    ∃ m, n ≤ m ∧ (w m).reconciles (steps m) = true := by
  by_contra hn
  have hst := persists (p := fun m => (w m).Armed)
    (fun m le ha => (calm.armed_next hc ha).resolve_right fun hap => hn ⟨m, le, hap⟩) ha
  obtain ⟨last, hs⟩ := calm.succeed
  have has : ∃ m, max n last ≤ m ∧ (w m).asking.isSome = true := by
    by_contra none
    have hfr (m : Nat) (le : max n last ≤ m) : (w m).asking = .none := by
      by_contra asked
      exact none ⟨m, le, isSome_iff_ne_none.mpr asked⟩
    obtain on | ⟨a, asked, -⟩ := hst (max n last) (by omega)
    · simp [calm.unarmed_of_free hc hfr] at on
    · cases (hfr _ (le_refl _)).symm.trans asked
  obtain ⟨m, le, asked⟩ := has
  obtain ⟨m', le', asked', hd⟩ := calm.ends_of_asking asked
  exact hn ⟨m', by omega, (asking_ends asked' hd (hs m' (by omega))).1⟩

section

variable (hsti : ∀ m, n ≤ m →
  steps m ≠ .fail ∧ ((w m).step o (steps m)).tmux = (w m).tmux)
  (hf : ∀ m, n ≤ m → (w m).Current ∧ (w m).Stale o 0)

include hsti hf

theorem settled_of_free (hfr : ∀ m, n ≤ m → (w m).asking = none) :
    ∃ m, n ≤ m ∧ (w m).Settled o := by
  have hu (m : Nat) (le : n ≤ m) : (w m).deadline = false :=
    calm.unarmed_of_free hc fun k ha => hfr k (by omega)
  have hre : ∃ m, n ≤ m ∧ (w m).Reading o 0 := by
    refine calm.drain (p := Reading o) (fun m le k hr => ?_)
      (fun m le hrea hi k hr => ?_) (fun m le he k hr => ?_)
      ⟨(w n).queue, [], ⟨by simp, nofun⟩, le_refl _,
        (calm.honest hc n).due (hfr n (le_refl n)) (hu n (le_refl n))⟩
    · have hf' := hfr (m + 1) (by omega)
      have hu' := hu (m + 1) (by omega)
      rw [calm.next] at hf' hu' ⊢
      exact hr.step (calm.told m) (hsti m le).2 (hfr m le) hf' hu'
    · have hf' := hfr (m + 1) (by omega)
      have hu' := hu (m + 1) (by omega)
      rw [calm.next, hrea] at hf' hu' ⊢
      exact hr.handle hi hf' hu'
    · obtain ⟨old, new, parts, -, hd⟩ := hr
      obtain ⟨rfl, rfl⟩ := append_eq_nil_iff.mp (parts.queue.symm.trans he)
      exact ⟨[], [], parts, le_refl _, hd⟩
  obtain ⟨m, le, hr⟩ := hre
  exact ⟨m, le, hr.table, (hf m le).1, (hf m le).2.present⟩

theorem settles : ∃ m, n ≤ m ∧ (w m).Settled o := by
  by_cases hfr : ∀ m, n ≤ m → (w m).asking = none
  · exact calm.settled_of_free hc hsti hf hfr
  · obtain ⟨a, ha⟩ := not_forall.mp hfr
    obtain ⟨le, ha⟩ := Classical.not_imp.mp ha
    obtain ⟨m, le', asks, hd⟩ := calm.ends_of_asking (isSome_iff_ne_none.mpr ha)
    obtain ⟨hs, hsa⟩ := hsti m (by omega)
    obtain ⟨current, hst⟩ := hf (m + 1) (by omega)
    refine ⟨m + 1, by omega, ?_, current, hst.present⟩
    rw [calm.next, hsa]
    exact (asking_ends asks hd hs).2 (hf m (by omega)).1

end

theorem eventually_settled : ∃ n, ∀ m, n ≤ m → (w m).Settled o := by
  obtain ⟨n, still⟩ := calm.eventually_still
  obtain ⟨a, le, hf⟩ := calm.eventually_fresh still
  obtain ⟨m, le', hs⟩ := calm.settles hc (fun m ha => still m (by omega)) hf
  refine ⟨m, persists (fun k ha hs => ?_) hs⟩
  rw [calm.next]
  exact hs.step (calm.told k) (still k (by omega)).2

end CalmRun

/-- The table converges, if no failure drops a hint, and every hint is followed by a reconcile that
succeeds. -/
theorem table_converges (ownId : Option String) (w : Nat → Watch) (steps : Nat → WatchStep)
    (calm : CalmRun ownId w steps) (careful : ∀ n, (w n).careful (steps n) = true) :
    (∃ n, ∀ m, n ≤ m → (w m).table = (w m).tmux) ∧
    ∀ n, (w n).asking = none → (w n).deadline = true →
      ∃ m, n ≤ m ∧ (w m).reconciles (steps m) = true := by
  obtain ⟨n, hs⟩ := calm.eventually_settled careful
  refine ⟨⟨n, fun m le => (hs m le).table⟩, fun n _ ha => ?_⟩
  exact calm.reconciled_of_armed careful (.inl ha)

/-! ## Finite runs -/

def watches (steps : List WatchStep) : Nat → Watch :=
  run (Watch.step none) { tmux := fun _ => none } (followed steps fun _ => .apply)

theorem CalmRun.of_steps (steps : List WatchStep) {last : Watch}
    (hr : steps.foldl (step none) { tmux := fun _ => none } = last)
    (hal : Runs.Along (step none) (fun s e => s.up = true ∧ s.Announces none e)
      { tmux := fun _ => none } steps)
    (hi : last.idle = true) (hem : last.queue = []) (hu : last.deadline = false) :
    CalmRun none (watches steps) (followed steps fun _ => .apply) ∧
      ∀ n, steps.length ≤ n → watches steps n = last := by
  obtain ⟨up, hfr⟩ := idle_iff.mp hi
  have hs : ∀ _n : Nat, last.step none .apply = last := fun _ => by
    simp only [step, hfr]
  subst hr
  have he := followed_along hal hs fun _ => ⟨up, trivial⟩
  have ha (n : Nat) (le : steps.length ≤ n) := run_followed_idle hs le
  have late (n : Nat) := ha (max n steps.length) (by omega)
  refine ⟨⟨⟨_, rfl⟩, fun _ => rfl, fun n => (he n).1, fun n => (he n).2,
    ⟨steps.length, fun n le => ?_⟩, ⟨steps.length, fun n le => ?_⟩, fun n => ?_, fun n => ?_,
    fun n => ?_⟩, ha⟩
  · rw [followed_of_le le]
    rintro ⟨⟩
  · rw [watches, ha n le, ha _ (le_refl _)]
  · exact ⟨_, le_max_left _ _, .inl (by rw [watches, late, hem])⟩
  · exact ⟨_, le_max_left _ _, .inl (by rw [watches, late, hu])⟩
  · exact ⟨_, le_max_left _ _, by rw [watches, late, hfr]⟩

def onePane (p : String) : Option PaneRow :=
  if p = "%1" then
    some ⟨"@1", "shell", "", false, false, "zsh", 80, 24, true, 100⟩
  else none

def hinted : List WatchStep :=
  [.answer, .apply, .tmux onePane [(.windowAdd "@1", true)], .handle, .fire]

theorem hinted_announced (rest : List WatchStep)
    (ha : Runs.Along (step none) (fun s e => s.up = true ∧ s.Announces none e)
      (hinted.foldl (step none) { tmux := fun _ => none }) rest) :
    Runs.Along (step none) (fun s e => s.up = true ∧ s.Announces none e)
      { tmux := fun _ => none } (hinted ++ rest) := by
  have hto : Announced none (fun _ => none) onePane [.windowAdd "@1"] := by
    refine ⟨fun n ht p v hp => ?_, fun p _ => .inl rfl⟩
    cases mem_singleton.mp ht
    cases hp
  refine Runs.along_append.mpr ⟨?_, ha⟩
  exact ⟨⟨rfl, trivial⟩, ⟨rfl, trivial⟩, ⟨rfl, hto⟩, ⟨rfl, trivial⟩, ⟨rfl, trivial⟩, trivial⟩

/-- The reconcile the deadline started succeeds. -/
theorem hint_reconciled :
    CalmRun none (watches (hinted ++ [.answer, .apply]))
      (followed (hinted ++ [.answer, .apply]) fun _ => .apply) ∧
    ∃ n, ∀ m, n ≤ m → (watches (hinted ++ [.answer, .apply]) m).table =
      (watches (hinted ++ [.answer, .apply]) m).tmux := by
  obtain ⟨calm, -⟩ := CalmRun.of_steps (hinted ++ [.answer, .apply]) rfl
    (hinted_announced [.answer, .apply] ⟨⟨rfl, trivial⟩, ⟨rfl, trivial⟩, trivial⟩) rfl rfl rfl
  have hca : Runs.Along (step none) (fun s e => s.careful e = true)
      { tmux := fun _ => none } (hinted ++ [.answer, .apply]) :=
    ⟨rfl, rfl, rfl, rfl, rfl, rfl, rfl, trivial⟩
  refine ⟨calm, (table_converges none _ _ calm fun n => ?_).1⟩
  exact followed_along hca (fun _ => rfl) (fun _ => rfl) n

/-- The reconcile fails, and the pane is missing from the table for good. -/
theorem failed_reconcile_drops_hint :
    ∃ w steps, CalmRun none w steps ∧ ¬ ∃ n, ∀ m, n ≤ m → (w m).table = (w m).tmux := by
  obtain ⟨calm, ha⟩ := CalmRun.of_steps (hinted ++ [.fail]) rfl
    (hinted_announced [.fail] ⟨⟨rfl, trivial⟩, trivial⟩) rfl rfl rfl
  refine ⟨_, _, calm, fun ⟨n, hs⟩ => ?_⟩
  have ht := congrFun (hs (max n 6) (by omega)) "%1"
  rw [ha (max n 6) (le_max_right _ _)] at ht
  revert ht
  decide

end Cyclops.Tmux
