import Mathlib.Algebra.GroupWithZero.Nat
import Mathlib.Data.List.Basic

/-!
# Programs that share a store, one command at a time

A program sends commands to a store and goes on with the answer. Several programs share one store,
so between two commands of a program anything may happen that the others are allowed to do. A
`Party` says what a program may rely on (`rely`) and what one of its own commands can do (`exec`).
-/

namespace Commands

open List Nat

/-- A program over commands `C` with answers `A`. -/
inductive Prog (C A α : Type) where
  | done (result : α)
  | call (command : C) (next : A → Prog C A α)

namespace Prog

variable {C A α β : Type}

protected def bind : Prog C A α → (α → Prog C A β) → Prog C A β
  | .done a, f => f a
  | .call c next, f => .call c fun answer => (next answer).bind f

instance : Monad (Prog C A) where
  pure := .done
  bind := Prog.bind

def command (c : C) : Prog C A A :=
  .call c .done

def isDone : Prog C A α → Bool
  | .done _ => true
  | .call .. => false

def pending : Prog C A α → Option C
  | .done _ => none
  | .call c _ => some c

/-- Every command the program can send, whatever it is answered. -/
def Sends (ok : C → Prop) : Prog C A α → Prop
  | .done _ => True
  | .call c next => ok c ∧ ∀ answer, (next answer).Sends ok

variable {ok : C → Prop}

theorem sends_pure {a : α} : Sends ok (pure a : Prog C A α) :=
  trivial

theorem sends_command {c : C} (holds : ok c) : Sends ok (command c : Prog C A A) :=
  ⟨holds, fun _ => trivial⟩

variable {f : α → Prog C A β} {xs : List α} {acc : β} {n k : Nat} {p : Prog C A α}

theorem Sends.bind (first : p.Sends ok) (hr : ∀ a, (f a).Sends ok) : (p >>= f).Sends ok := by
  induction p with
  | done a => exact hr a
  | call c next ih => exact ⟨first.1, fun ans => ih ans (first.2 ans)⟩

theorem sends_foldlM {f : β → α → Prog C A β} (hp : ∀ acc, ∀ x ∈ xs, (f acc x).Sends ok) :
    (xs.foldlM f acc).Sends ok := by
  induction xs generalizing acc with
  | nil => exact sends_pure
  | cons x xs ih =>
    exact (hp acc x mem_cons_self).bind fun acc' =>
      ih fun acc y ha => hp acc y (mem_cons_of_mem _ ha)

theorem Sends.andThen {p : OptionT (Prog C A) α} {f : α → OptionT (Prog C A) β}
    (first : p.run.Sends ok) (hr : ∀ a, (f a).run.Sends ok) : (p >>= f).run.Sends ok := by
  refine first.bind fun found => ?_
  cases found with
  | none => exact sends_pure
  | some a => exact hr a

/-- Every result the program can have, whatever it is answered. -/
def Returns (post : α → Prop) : Prog C A α → Prop
  | .done a => post a
  | .call _ next => ∀ answer, (next answer).Returns post

theorem returns_true : p.Returns fun _ => True := by
  induction p with
  | done => trivial
  | call c next ih => exact ih

theorem Returns.mono {post post' : α → Prop} (hr : p.Returns post)
    (hw : ∀ a, post a → post' a) : p.Returns post' := by
  induction p with
  | done a => exact hw a hr
  | call c next ih => exact fun ans => ih ans (hr ans)

theorem Returns.bind {mid : α → Prop} {post : β → Prop} (first : p.Returns mid)
    (hr : ∀ a, mid a → (f a).Returns post) :
    (p >>= f).Returns post := by
  induction p with
  | done a => exact hr a first
  | call c next ih => exact fun ans => ih ans (first ans)

theorem returns_foldlM {inv : β → Prop} {f : β → α → Prog C A β}
    (hp : ∀ acc x, inv acc → (f acc x).Returns inv) (holds : inv acc) :
    (xs.foldlM f acc).Returns inv := by
  induction xs generalizing acc with
  | nil => exact holds
  | cons x xs ih =>
    exact (hp acc x holds).bind fun acc' hk => ih hk

/-- The program sends at most so many commands, whatever it is answered. -/
def Within : Nat → Prog C A α → Prop
  | _, .done _ => True
  | 0, .call _ _ => False
  | n + 1, .call _ next => ∀ answer, (next answer).Within n

theorem within_pure {a : α} : Within n (pure a : Prog C A α) := by
  cases n <;> trivial

theorem Within.mono (hw : p.Within n) (le : n ≤ k) : p.Within k := by
  induction p generalizing n k with
  | done => exact within_pure
  | call c next ih =>
    cases n with
    | zero => cases hw
    | succ n =>
      obtain ⟨k, rfl⟩ := Nat.exists_eq_add_of_le' (Nat.le_trans (Nat.le_add_left 1 n) le)
      exact fun ans => ih ans (hw ans) (le_of_succ_le_succ le)

theorem within_command {c : C} : Within 1 (command c : Prog C A A) :=
  fun _ => trivial

theorem Within.bind (first : p.Within n) (hr : ∀ a, (f a).Within k) : (p >>= f).Within (n + k) := by
  induction p generalizing n with
  | done a => exact (hr a).mono (le_add_left k n)
  | call c next ih =>
    cases n with
    | zero => cases first
    | succ =>
      rw [succ_add]
      exact fun ans => ih ans (first ans)

theorem Within.andThen {p : OptionT (Prog C A) α} {f : α → OptionT (Prog C A) β}
    (first : p.run.Within n) (hr : ∀ a, (f a).run.Within k) : (p >>= f).run.Within (n + k) := by
  refine first.bind fun found => ?_
  cases found with
  | none => exact within_pure
  | some a => exact hr a

theorem within_foldlM {f : β → α → Prog C A β} (hp : ∀ acc, ∀ x ∈ xs, (f acc x).Within n) :
    (xs.foldlM f acc).Within (n * xs.length) := by
  induction xs generalizing acc with
  | nil => exact within_pure
  | cons x xs ih =>
    rw [foldlM_cons, length_cons, Nat.mul_succ, Nat.add_comm]
    exact (hp acc x mem_cons_self).bind fun acc' =>
      ih fun acc y ha => hp acc y (mem_cons_of_mem _ ha)

theorem within_forM {cost : α → Nat} {f : α → Prog C A PUnit}
    (hv : ∀ x ∈ xs, (f x).Within (cost x)) : (xs.forM f).Within (xs.map cost).sum := by
  induction xs with
  | nil => exact within_pure
  | cons x xs ih =>
    exact (hv x mem_cons_self).bind fun _ =>
      ih fun y ha => hv y (mem_cons_of_mem _ ha)

end Prog

/-- What a program may rely on and what its commands can do. -/
structure Party (σ C A : Type) where
  rely : σ → σ → Prop
  exec : σ → C → A → σ → Prop
  rely_refl : ∀ s, rely s s
  rely_trans : ∀ {s t u}, rely s t → rely t u → rely s u

namespace Party

variable {σ C A α β : Type} (P : Party σ C A)

/-- What the others cannot make false. -/
def Stable (holds : σ → Prop) : Prop :=
  ∀ s t, holds s → P.rely s t → holds t

/-- The rest of a program can run from a state. -/
def Safe (guar : σ → C → σ → Prop) (post : α → σ → Prop) : Prog C A α → σ → Prop
  | .done a, s => ∀ t, P.rely s t → post a t
  | .call c next, s => ∀ t, P.rely s t → ∀ answer u, P.exec t c answer u →
      guar t c u ∧ Safe guar post (next answer) u

variable {P} {guar : σ → C → σ → Prop} {post : α → σ → Prop} {p : Prog C A α} {s t : σ}

theorem stable_const {fixed : Prop} : P.Stable fun _ => fixed :=
  fun _ _ hn _ => hn

theorem Stable.and {h ho' : σ → Prop} (first : P.Stable h) (hs : P.Stable ho') :
    P.Stable fun s => h s ∧ ho' s :=
  fun s t hn ho => ⟨first s t hn.1 ho, hs s t hn.2 ho⟩

theorem stable_forall {ι : Sort*} {h : ι → σ → Prop} (he : ∀ i, P.Stable (h i)) :
    P.Stable fun s => ∀ i, h i s :=
  fun s t hn ho i => he i s t (hn i) ho

theorem Safe.stable (hs : P.Safe guar post p s) (ho : P.rely s t) : P.Safe guar post p t := by
  cases p with
  | done | call => exact fun u hl => hs u (P.rely_trans ho hl)

theorem Safe.step {c : C} {next : A → Prog C A α} {ans : A}
    (hs : P.Safe guar post (.call c next) s) (hr : P.exec s c ans t) :
    guar s c t ∧ P.Safe guar post (next ans) t :=
  hs s (P.rely_refl s) ans t hr

theorem Safe.result {a : α} (hs : P.Safe guar post (.done a) s) : post a s :=
  hs s (P.rely_refl s)

theorem Safe.mono {guar' : σ → C → σ → Prop} {post' : α → σ → Prop}
    (hs : P.Safe guar post p s) (how : ∀ s c t, guar s c t → guar' s c t)
    (hw : ∀ a s, post a s → post' a s) : P.Safe guar' post' p s := by
  induction p generalizing s with
  | done a => exact fun t ho => hw a t (hs t ho)
  | call c next ih =>
    intro t ho ans u ran
    obtain ⟨hk, hr⟩ := hs t ho ans u ran
    exact ⟨how t c u hk, ih ans hr⟩

theorem Safe.weaken {post' : α → σ → Prop} (hs : P.Safe guar post p s)
    (hw : ∀ a s, post a s → post' a s) : P.Safe guar post' p s :=
  hs.mono (fun _ _ _ hk => hk) hw

theorem safe_pure {a : α} (hs : P.Stable (post a)) (holds : post a s) :
    P.Safe guar post (pure a) s :=
  fun t ho => hs s t holds ho

/-- One command, between two facts the others keep. -/
theorem safe_command {c : C} {post : A → σ → Prop} {pre : σ → Prop} (hb : P.Stable pre)
    (ha : ∀ ans, P.Stable (post ans))
    (ran : ∀ t ans u, pre t → P.exec t c ans u → guar t c u ∧ post ans u)
    (holds : pre s) : P.Safe guar post (.command c) s := by
  intro t ho ans u hs
  obtain ⟨hk, hr⟩ := ran t ans u (hb s t holds ho) hs
  exact ⟨hk, fun v hl => ha ans u v hr hl⟩

/-- A program and what follows it, with a fact in between. -/
theorem Safe.seq {f : α → Prog C A β} {post' : β → σ → Prop} (first : P.Safe guar post p s)
    (hr : ∀ a s, post a s → P.Safe guar post' (f a) s) : P.Safe guar post' (p >>= f) s := by
  induction p generalizing s with
  | done a => exact hr a s first.result
  | call c next ih =>
    intro t ho ans u ran
    obtain ⟨hk, ha⟩ := first t ho ans u ran
    exact ⟨hk, ih ans ha⟩

/-- What the others and the program's own commands keep. -/
theorem Safe.frame {h : σ → Prop} (hsa : P.Safe guar post p s) (hs : P.Stable h)
    (own : ∀ s c t, guar s c t → h s → h t) (hn : h s) :
    P.Safe guar (fun a s => h s ∧ post a s) p s := by
  induction p generalizing s with
  | done => exact fun t ho => ⟨hs s t hn ho, hsa t ho⟩
  | call c next ih =>
    intro t ho ans u ran
    obtain ⟨hk, hr⟩ := hsa t ho ans u ran
    exact ⟨hk, ih ans hr (own t c u hk (hs s t hn ho))⟩

variable {xs : List α} {inv : σ → Prop}

theorem safe_foldlM {f : β → α → Prog C A β} {inv : β → σ → Prop} {acc : β}
    (hs : ∀ acc, P.Stable (inv acc))
    (hp : ∀ acc, ∀ x ∈ xs, ∀ s, inv acc s → P.Safe guar inv (f acc x) s) (holds : inv acc s) :
    P.Safe guar inv (xs.foldlM f acc) s := by
  induction xs generalizing acc s with
  | nil => exact safe_pure (hs acc) holds
  | cons x xs ih =>
    refine (hp acc x mem_cons_self s holds).seq fun acc' s' hk => ?_
    exact ih (fun acc y ha => hp acc y (mem_cons_of_mem _ ha)) hk

theorem safe_forM {f : α → Prog C A PUnit} (hs : P.Stable inv)
    (hv : ∀ x ∈ xs, ∀ s, inv s → P.Safe guar (fun _ => inv) (f x) s) (holds : inv s) :
    P.Safe guar (fun _ => inv) (xs.forM f) s := by
  induction xs generalizing s with
  | nil => exact safe_pure hs holds
  | cons x xs ih =>
    refine (hv x mem_cons_self s holds).seq fun _ s' hk => ?_
    exact ih (fun y ha => hv y (mem_cons_of_mem _ ha)) hk

/-! ## Programs that stop at their first error -/

/-- The rest runs after a result; an error ends the program. -/
theorem Safe.andThen {p : OptionT (Prog C A) α} {f : α → OptionT (Prog C A) β}
    {mid : Option α → σ → Prop} {post' : Option β → σ → Prop}
    (first : P.Safe guar mid p.run s) (hf : ∀ s, mid none s → post' none s)
    (hs : P.Stable (post' none))
    (hr : ∀ a s, mid (some a) s → P.Safe guar post' (f a).run s) :
    P.Safe guar post' (p >>= f).run s := by
  refine .seq first fun found s held => ?_
  cases found with
  | none => exact safe_pure hs (hf s held)
  | some a => exact hr a s held

theorem Safe.map {p : OptionT (Prog C A) α} {f : α → β} {post' : Option β → σ → Prop}
    (hs : ∀ b, P.Stable (post' b)) (first : P.Safe guar (fun a => post' (a.map f)) p.run s) :
    P.Safe guar post' (p >>= fun a => pure (f a)).run s :=
  first.andThen (fun _ hn => hn) (hs none) fun _ _ hn => safe_pure (hs _) hn

theorem safe_foldlM_andThen {f : β → α → OptionT (Prog C A) β} {acc : β} (hs : P.Stable inv)
    (hp : ∀ acc, ∀ x ∈ xs, ∀ s, inv s → P.Safe guar (fun _ => inv) (f acc x).run s)
    (holds : inv s) : P.Safe guar (fun _ => inv) (xs.foldlM f acc).run s := by
  induction xs generalizing acc s with
  | nil => exact safe_pure hs holds
  | cons x xs ih =>
    refine (hp acc x mem_cons_self s holds).andThen (fun _ hk => hk) hs ?_
    exact fun acc' s' hk => ih (fun acc y ha => hp acc y (mem_cons_of_mem _ ha)) hk

/-! ## Programs that only send some commands -/

/-- A program keeps what every command it can send keeps. -/
theorem safe_of_sends {ok : C → Prop} (hse : p.Sends ok) (hs : P.Stable inv)
    (hr : ∀ t c ans u, ok c → inv t → P.exec t c ans u → guar t c u ∧ inv u) (holds : inv s) :
    P.Safe guar (fun _ => inv) p s := by
  induction p generalizing s with
  | done => exact fun t ho => hs s t holds ho
  | call c next ih =>
    intro t ho ans u hst
    obtain ⟨hk, hn⟩ := hr t c ans u hse.1 (hs s t holds ho) hst
    exact ⟨hk, ih ans (hse.2 ans) hn⟩

end Party

end Commands
