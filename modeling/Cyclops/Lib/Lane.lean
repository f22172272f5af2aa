import Mathlib.Data.List.Pairwise

/-!
# Lanes

A lane is a queue served from its front: an item may be started only when every item before it has
been passed. `Served lane started passed` says so of a lane as it stands.
-/

namespace Lane

open List

variable {α : Type} {lane : List α} {s p s' p' : α → Prop}

/-- Whatever stands before a started item has been passed. -/
def Served (lane : List α) (started passed : α → Prop) : Prop :=
  lane.Pairwise fun a b => started b → passed a

theorem Served.mono (h : Served lane s p)
    (hs : ∀ b ∈ lane, s' b → s b) (hp : ∀ a ∈ lane, p a → p' a) :
    Served lane s' p' :=
  .imp_of_mem (fun ha hb hab hs' => hp _ ha (hab (hs _ hb hs'))) h

/-- The first item that has not been passed may be started. -/
theorem Served.start {bef aft : List α} {m : α}
    (h : Served (bef ++ m :: aft) s p) (hbe : ∀ a ∈ bef, p a)
    (hm : ¬ p m) (hne : m ∉ aft) (hs : ∀ b, s' b → s b ∨ b = m) :
    Served (bef ++ m :: aft) s' p := by
  obtain ⟨hb, hma, -⟩ := pairwise_append.mp h
  obtain ⟨hl, -⟩ := pairwise_cons.mp hma
  -- Nothing after `m` has been started: `m` would have been passed.
  have hn : ∀ b ∈ aft, ¬ s' b := by
    intro b hb hsb
    rcases hs b hsb with hsb | rfl
    · exact hm (hl b hb hsb)
    · exact hne hb
  refine pairwise_append.mpr ⟨?_, pairwise_cons.mpr ⟨?_, ?_⟩, ?_⟩
  · exact .imp_of_mem (fun ha _ _ _ => hbe _ ha) hb
  · exact fun b hb hsb => absurd hsb (hn b hb)
  · exact pairwise_of_forall_mem_list fun _ _ b hb hsb => absurd hsb (hn b hb)
  · exact fun a ha _ _ _ => hbe a ha

/-- An item that has not been started may join at the end. -/
theorem Served.append {m : α} (h : Served lane s p) (hm : ¬ s m) : Served (lane ++ [m]) s p := by
  refine pairwise_append.mpr ⟨h, pairwise_singleton _ _, ?_⟩
  intro a _ b hb hsb
  rw [mem_singleton.mp hb] at hsb
  exact absurd hsb hm

/-- At most one item of a served lane is started and not passed. -/
theorem Served.unique {a b : α} (h : Served lane s p) (ha : a ∈ lane) (hb : b ∈ lane)
    (hsa : s a) (hpa : ¬ p a) (hsb : s b) (hpb : ¬ p b) : a = b := by
  -- Two such items contradict the lane whichever comes first.
  let both (x y : α) : Prop := ¬ (s x ∧ ¬ p x ∧ s y ∧ ¬ p y)
  have : Std.Symm both := ⟨fun _ _ hxy ⟨hy, hy', hx, hx'⟩ => hxy ⟨hx, hx', hy, hy'⟩⟩
  have hbo : lane.Pairwise both :=
    h.imp fun hxy ⟨_, hpx, hsy, _⟩ => hpx (hxy hsy)
  by_contra hab
  exact hbo.forall ha hb hab ⟨hsa, hpa, hsb, hpb⟩

end Lane
