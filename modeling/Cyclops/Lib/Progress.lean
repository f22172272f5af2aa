import Cyclops.Lib.Runs

/-!
# Progress along infinite runs

A run without an end is a step function and an input for every instant. Its scheduler is *weakly
fair* to an action when the action cannot stay enabled from some instant on without ever
occurring.
-/

namespace Progress

open List

def run {σ α : Type} (step : σ → α → σ) (s : σ) (inputs : Nat → α) : Nat → σ
  | 0 => s
  | n + 1 => step (run step s inputs n) (inputs n)

/-- What stays enabled eventually occurs. -/
def WeakFair (enabled occurs : Nat → Prop) : Prop :=
  ∀ n, (∀ m, n ≤ m → enabled m) → ∃ m, n ≤ m ∧ occurs m

theorem persists {p : Nat → Prop} {n : Nat} (next : ∀ m, n ≤ m → p m → p (m + 1))
    (hs : p n) (m : Nat) (le : n ≤ m) : p m := by
  induction le with
  | refl => exact hs
  | step le ih => exact next _ le ih

/-- While `p` lasts the action is enabled from some instant on, and `p` ends only
in the goal; so the goal is reached. -/
theorem WeakFair.leads {enabled o p goal : Nat → Prop} {n : Nat} (hf : WeakFair enabled o)
    (hk : ∀ m, n ≤ m → p m → ¬ o m → p (m + 1) ∨ goal (m + 1))
    (he : ∀ m, n ≤ m → p m → o m → goal (m + 1))
    (hen : ∃ k, n ≤ k ∧ ∀ m, k ≤ m → p m → enabled m)
    (hs : p n) : ∃ m, n ≤ m ∧ goal m := by
  by_contra hne
  have hn : ∀ m, n ≤ m → ¬ goal m := fun m le hr => hne ⟨m, le, hr⟩
  have hl : ∀ m, n ≤ m → p m := by
    refine persists (fun m le holds => ?_) hs
    by_cases ho : o m
    · exact absurd (he m le holds ho) (hn (m + 1) (by omega))
    · exact (hk m le holds ho).resolve_right (hn (m + 1) (by omega))
  obtain ⟨k, le, enabled⟩ := hen
  obtain ⟨m, after, ho⟩ := hf k fun m after => enabled m after (hl m (by omega))
  exact hn (m + 1) (by omega) (he m (by omega) (hl m (by omega)) ho)

/-- The induction is on the rank at the current instant. -/
theorem eventually_of_rank {goal : Nat → Prop} (rank : Nat → Nat) {n : Nat}
    (hd : ∀ m, n ≤ m → ∃ k, m ≤ k ∧ (goal k ∨ rank k < rank m)) :
    ∃ m, n ≤ m ∧ goal m := by
  induction hb : rank n using Nat.strongRecOn generalizing n with
  | _ r ih =>
    obtain ⟨k, le, hr | hl⟩ := hd n (Nat.le_refl n)
    · exact ⟨k, le, hr⟩
    · obtain ⟨m, after, hr⟩ :=
        ih (rank k) (hb ▸ hl) (fun m after => hd m (by omega)) rfl
      exact ⟨m, by omega, hr⟩

/-! ## A finite run followed by idle inputs -/

section

variable {σ α : Type} {step : σ → α → σ} {s : σ} {xs : List α} {idle : Nat → α}

/-- The inputs of a list, then idle ones. -/
def followed (xs : List α) (idle : Nat → α) (n : Nat) : α :=
  (xs[n]?).getD (idle n)

theorem followed_of_lt {n : Nat} (lt : n < xs.length) : followed xs idle n = xs[n] := by
  simp [followed, lt]

theorem followed_of_le {n : Nat} (le : xs.length ≤ n) : followed xs idle n = idle n := by
  simp [followed, le]

theorem run_followed {n : Nat} (le : n ≤ xs.length) :
    run step s (followed xs idle) n = (xs.take n).foldl step s := by
  induction n with
  | zero => rfl
  | succ n ih =>
    have lt : n < xs.length := by omega
    rw [run, ih (by omega), followed_of_lt lt, take_succ_eq_append_getElem lt, foldl_append]
    rfl

/-- After the list the run stands still. -/
theorem run_followed_idle (hs : ∀ n, step (xs.foldl step s) (idle n) = xs.foldl step s)
    {n : Nat} (le : xs.length ≤ n) : run step s (followed xs idle) n = xs.foldl step s := by
  induction le with
  | refl => rw [run_followed (Nat.le_refl _), take_length]
  | step le ih => rw [run, ih, followed_of_le le, hs]

theorem followed_along {ok : σ → α → Prop} (ha : Runs.Along step ok s xs)
    (hs : ∀ n, step (xs.foldl step s) (idle n) = xs.foldl step s)
    (hal : ∀ n, ok (xs.foldl step s) (idle n)) (n : Nat) :
    ok (run step s (followed xs idle) n) (followed xs idle n) := by
  by_cases lt : n < xs.length
  · have split : xs.take n ++ xs[n] :: xs.drop (n + 1) = xs := by
      rw [getElem_cons_drop, take_append_drop]
    rw [← split] at ha
    rw [run_followed (by omega), followed_of_lt lt]
    exact (Runs.along_append.mp ha).2.1
  · rw [run_followed_idle hs (by omega), followed_of_le (by omega)]
    exact hal n

end

end Progress
