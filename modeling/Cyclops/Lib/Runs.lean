import Cyclops.Lib.Checked

/-!
# Runs

A run is a fold of a step function over a list of inputs. `Along step ok s xs` says that every
step of the run from `s` meets the condition `ok` in the state it starts from; with it a guarded
transition system is a step function and a guard.
-/

namespace Runs

open List Checked

variable {σ α : Type}

/-- Every step of the run meets the condition in the state it starts from. -/
def Along (step : σ → α → σ) (ok : σ → α → Prop) : σ → List α → Prop
  | _, [] => True
  | s, x :: xs => ok s x ∧ Along step ok (step s x) xs

/-- A run can be checked step by step. -/
instance Along.decidable {step : σ → α → σ} {ok : σ → α → Prop}
    [∀ s x, Decidable (ok s x)] : (s : σ) → (xs : List α) → Decidable (Along step ok s xs)
  | _, [] => inferInstanceAs (Decidable True)
  | s, x :: xs =>
    have : Decidable (Along step ok (step s x) xs) := Along.decidable (step s x) xs
    inferInstanceAs (Decidable (ok s x ∧ Along step ok (step s x) xs))

variable {step : σ → α → σ} {ok : σ → α → Prop} {s : σ} {xs ys : List α}

@[simp] theorem Along.nil : Along step ok s [] :=
  trivial

variable {x : α}

@[simp] theorem along_cons : Along step ok s (x :: xs) ↔ ok s x ∧ Along step ok (step s x) xs :=
  .rfl

theorem along_append :
    Along step ok s (xs ++ ys) ↔ Along step ok s xs ∧ Along step ok (xs.foldl step s) ys := by
  induction xs generalizing s with
  | nil => simp
  | cons x xs ih => simp [ih, and_assoc]

theorem Along.of_forall (h : ∀ x ∈ xs, ∀ s, ok s x) : Along step ok s xs := by
  induction xs generalizing s with
  | nil => trivial
  | cons x xs ih =>
    exact ⟨h x mem_cons_self s, ih fun y hy => h y (mem_cons_of_mem _ hy)⟩

theorem Along.and {ok' : σ → α → Prop} (h : Along step ok s xs) (h' : Along step ok' s xs) :
    Along step (fun s x => ok s x ∧ ok' s x) s xs := by
  induction xs generalizing s with
  | nil => trivial
  | cons x xs ih => exact ⟨⟨h.1, h'.1⟩, ih h.2 h'.2⟩

theorem Along.invariant (inv : σ → Prop) (hp : ∀ s x, inv s → ok s x → inv (step s x))
    (h : Along step ok s xs) (hi : inv s) : inv (xs.foldl step s) := by
  induction xs generalizing s with
  | nil => exact hi
  | cons x xs ih => exact ih h.2 (hp s x hi h.1)

theorem along_congr {ok' : σ → α → Prop} (inv : σ → Prop)
    (hiff : ∀ s x, inv s → (ok s x ↔ ok' s x)) (hp : ∀ s x, inv s → ok' s x → inv (step s x))
    (hi : inv s) : Along step ok s xs ↔ Along step ok' s xs := by
  induction xs generalizing s with
  | nil => exact .rfl
  | cons x xs ih =>
    rw [along_cons, along_cons, hiff s x hi]
    exact and_congr_right fun hx => ih (hp s x hi hx)

theorem foldl_invariant (inv : σ → Prop) (hp : ∀ s x, inv s → inv (step s x))
    (hi : inv s) : inv (xs.foldl step s) := by
  induction xs generalizing s with
  | nil => exact hi
  | cons x xs ih => exact ih (hp s x hi)

/-! ## Fallible folds -/

variable {ε : Type} {apply : σ → α → Except ε σ}

/-- A journal extended by one accepted row. -/
theorem foldlM_concat_ok {t u : σ} (h : xs.foldlM apply s = .ok t) (hx : apply t x = .ok u) :
    (xs ++ [x]).foldlM apply s = .ok u := by
  rw [foldlM_append, h]
  change (apply t x >>= fun t' => pure t') = .ok u
  rw [hx]
  rfl

/-- An accepted journal ends with an accepted row. -/
theorem foldlM_concat_inv {u : σ} (h : (xs ++ [x]).foldlM apply s = .ok u) :
    ∃ t, xs.foldlM apply s = .ok t ∧ apply t x = .ok u := by
  rw [foldlM_append, bind_eq_ok] at h
  obtain ⟨t, ht, h⟩ := h
  rw [foldlM_cons, bind_eq_ok] at h
  obtain ⟨u', hu, h⟩ := h
  exact ⟨t, ht, h ▸ hu⟩

/-- What every accepted row preserves holds after an accepted journal. -/
theorem foldlM_invariant {inv : σ → Prop} {t : σ} (hp : ∀ s x t, inv s → apply s x = .ok t → inv t)
    (hi : inv s) (h : xs.foldlM apply s = .ok t) : inv t := by
  induction xs generalizing s with
  | nil =>
    rw [foldlM_nil, pure_eq_ok] at h
    exact h ▸ hi
  | cons x xs ih =>
    rw [foldlM_cons, bind_eq_ok] at h
    obtain ⟨u, hu, h⟩ := h
    exact ih (hp s x u hi hu) h

end Runs
