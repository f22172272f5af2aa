import Mathlib.Data.List.Forall2

/-!
# Checked computations

Guards for computations in `Except`. A validator is a sequence of refusals followed by a result,
so each guard comes with the lemma that peels it off an accepted run: an accepted run has passed
every guard before its result.
-/

namespace Checked

open List

variable {ε α β : Type}

def refuseIf (refused : Prop) [Decidable refused] (error : ε) : Except ε Unit :=
  if refused then .error error else .ok ()

def orRefuse (value : Option α) (error : ε) : Except ε α :=
  match value with
  | some a => .ok a
  | none => .error error

variable {x : Except ε α} {f : α → Except ε β} {b : β} {e error : ε} {xs : List α}

theorem bind_eq_ok : (x >>= f) = .ok b ↔ ∃ a, x = .ok a ∧ f a = .ok b := by
  cases x with
  | error => exact ⟨fun h => (nomatch h), fun ⟨_, h, _⟩ => (nomatch h)⟩
  | ok a => exact ⟨fun h => ⟨a, rfl, h⟩, fun ⟨_, h, hf⟩ => by cases h; exact hf⟩

theorem bind_ne_error (hx : x ≠ .error e) (hf : ∀ a, x = .ok a → f a ≠ .error e) :
    (x >>= f) ≠ .error e := by
  cases x with
  | error => exact fun h => hx (by cases h; rfl)
  | ok a => exact hf a rfl

theorem map_ne_error {f : α → β} (hx : x ≠ .error e) : x.map f ≠ .error e := by
  cases x with
  | error => exact fun h => hx (by cases h; rfl)
  | ok => exact fun h => (nomatch h)

@[simp] theorem pure_eq_ok {a b : α} : (pure a : Except ε α) = .ok b ↔ a = b :=
  ⟨fun h => by cases h; rfl, fun h => by rw [h]; rfl⟩

@[simp] theorem refuseIf_eq_ok {r : Prop} [Decidable r] {u : Unit} :
    refuseIf r error = .ok u ↔ ¬ r := by
  unfold refuseIf
  split
  · next h => exact ⟨fun h' => (nomatch h'), fun h' => absurd h h'⟩
  · next h => exact ⟨fun _ => h, fun _ => rfl⟩

@[simp] theorem orRefuse_eq_ok {v : Option α} {a : α} : orRefuse v error = .ok a ↔ v = some a := by
  cases v with
  | none => exact ⟨fun h => (nomatch h), fun h => (nomatch h)⟩
  | some => exact ⟨fun h => by cases h; rfl, fun h => by cases h; rfl⟩

theorem exists_ok_of_toOption {f : α → β} (h : x.toOption.map f = some b) :
    ∃ a, x = .ok a ∧ f a = b := by
  cases x with
  | error => cases h
  | ok a => exact ⟨a, rfl, Option.some.inj h⟩

theorem refuseIf_bind_eq_ok {r : Prop} [Decidable r] {f : Unit → Except ε β} :
    (refuseIf r error >>= f) = .ok b ↔ ¬ r ∧ f () = .ok b := by
  simp only [bind_eq_ok, refuseIf_eq_ok]
  exact ⟨fun ⟨_, h, hf⟩ => ⟨h, hf⟩, fun ⟨h, hf⟩ => ⟨(), h, hf⟩⟩

theorem orRefuse_bind_eq_ok {v : Option α} :
    (orRefuse v error >>= f) = .ok b ↔ ∃ a, v = some a ∧ f a = .ok b := by
  simp only [bind_eq_ok, orRefuse_eq_ok]

/-- An accepted traversal accepts every element, in order. -/
theorem mapM_eq_ok {ys : List β} : xs.mapM f = .ok ys ↔ Forall₂ (fun x y => f x = .ok y) xs ys := by
  induction xs generalizing ys with
  | nil => rw [mapM_nil, pure_eq_ok, forall₂_nil_left_iff, eq_comm]
  | cons x xs ih =>
    rw [mapM_cons, bind_eq_ok]
    constructor
    · rintro ⟨y, hy, h⟩
      obtain ⟨zs, hzs, hys⟩ := bind_eq_ok.mp h
      rw [pure_eq_ok] at hys
      exact hys ▸ Forall₂.cons hy (ih.mp hzs)
    · rintro (_ | ⟨hy, hys⟩)
      exact ⟨_, hy, bind_eq_ok.mpr ⟨_, ih.mpr hys, rfl⟩⟩

theorem exists_of_forall₂ {R : α → β → Prop} {ys : List β} (h : Forall₂ R xs ys) {x : α}
    (hx : x ∈ xs) : ∃ y ∈ ys, R x y := by
  induction h with
  | nil => cases hx
  | cons ho _ ih =>
    rcases mem_cons.mp hx with rfl | hx
    · exact ⟨_, mem_cons_self, ho⟩
    · obtain ⟨y, hy, hxy⟩ := ih hx
      exact ⟨y, mem_cons_of_mem _ hy, hxy⟩

theorem mapM_ok_of_forall (h : ∀ x ∈ xs, ∃ y, f x = .ok y) : ∃ ys, xs.mapM f = .ok ys := by
  induction xs with
  | nil => exact ⟨[], rfl⟩
  | cons x xs ih =>
    obtain ⟨y, hy⟩ := h x mem_cons_self
    obtain ⟨ys, hys⟩ := ih fun x' hx' => h x' (mem_cons_of_mem _ hx')
    exact ⟨y :: ys, mapM_eq_ok.mpr (.cons hy (mapM_eq_ok.mp hys))⟩

/-! ## Weaker validators -/

/-- `Weaker x y`: whatever `x` accepts, `y` accepts with the same result. -/
def Weaker (x y : Except ε α) : Prop :=
  ∀ a, x = .ok a → y = .ok a

theorem Weaker.refl (x : Except ε α) : Weaker x x :=
  fun _ h => h

theorem Weaker.bind {y : Except ε α} {g : α → Except ε β} (hxy : Weaker x y)
    (hfg : ∀ a, Weaker (f a) (g a)) : Weaker (x >>= f) (y >>= g) := by
  intro b h
  obtain ⟨a, hx, hf⟩ := bind_eq_ok.mp h
  exact bind_eq_ok.mpr ⟨a, hxy a hx, hfg a b hf⟩

theorem Weaker.refuseIf {c d : Prop} [Decidable c] [Decidable d] {e' : ε} (h : d → c) :
    Weaker (refuseIf c e) (refuseIf d e') := by
  intro u hu
  rw [refuseIf_eq_ok] at hu ⊢
  exact fun hd => hu (h hd)

end Checked
