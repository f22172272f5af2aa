import Mathlib.Data.List.Chain
import Mathlib.Data.List.Nodup

/-!
# Trails of a partial function

The trail of an element follows a partial function until it gives nothing. There is at most one,
and it visits nothing twice.
-/

namespace Trails

open List

variable {α : Type} {next : α → Option α} {a : α} {path path' : List α}

/-- The path from an element to the first one without a successor. -/
inductive Trail (next : α → Option α) : α → List α → Prop
  | last {a : α} (h : next a = none) : Trail next a [a]
  | step {a b : α} {path : List α} (h : next a = some b) (rest : Trail next b path) :
      Trail next a (a :: path)

namespace Trail

theorem unique (h : Trail next a path) (h' : Trail next a path') : path = path' := by
  induction h generalizing path' with
  | last hl =>
    cases h' with
    | last => rfl
    | step hs => cases hl.symm.trans hs
  | step hs hr ih =>
    cases h' with
    | last hl => cases hl.symm.trans hs
    | step hs' hr' =>
      cases hs.symm.trans hs'
      rw [ih hr']

theorem from_mem (h : Trail next a path) {b : α} (hb : b ∈ path) :
    ∃ rest, Trail next b rest ∧ rest.length ≤ path.length := by
  induction h with
  | last hl =>
    obtain rfl := mem_singleton.mp hb
    exact ⟨_, .last hl, le_rfl⟩
  | step hs rest ih =>
    rcases mem_cons.mp hb with rfl | hb
    · exact ⟨_, .step hs rest, le_rfl⟩
    · obtain ⟨tail, ht, hle⟩ := ih hb
      exact ⟨tail, ht, hle.trans (Nat.le_succ _)⟩

theorem not_mem_step {b : α} (hs : next a = some b) (rest : Trail next b path) : a ∉ path := by
  intro hm
  obtain ⟨tail, ht, hle⟩ := rest.from_mem hm
  rw [ht.unique (.step hs rest)] at hle
  exact absurd hle (Nat.not_succ_le_self _)

end Trail

/-- Follow the function for so many elements, to the end; nothing at a repetition. -/
def walk [DecidableEq α] (next : α → Option α) : Nat → α → List α → Option (List α)
  | 0, _, _ => none
  | hops + 1, a, seen =>
    if a ∈ seen then none
    else
      match next a with
      | none => some [a]
      | some b => (walk next hops b (seen ++ [a])).map (a :: ·)

theorem walk_eq_some [DecidableEq α] {ho : Nat} {seen : List α} : walk next ho a seen = some path ↔
      Trail next a path ∧ path.length ≤ ho ∧ ∀ b ∈ path, b ∉ seen := by
  induction ho generalizing a seen path with
  | zero =>
    refine ⟨nofun, fun ⟨ht, hl, _⟩ => ?_⟩
    cases ht <;> cases hl
  | succ ho ih =>
    by_cases hs : a ∈ seen
    · refine ⟨fun h => by simp [walk, hs] at h, fun ⟨ht, _, hf⟩ => ?_⟩
      cases ht <;> exact absurd hs (hf a mem_cons_self)
    · cases hn : next a with
      | none =>
        simp only [walk, if_neg hs, hn, Option.some.injEq]
        constructor
        · rintro rfl
          exact ⟨.last hn, by simp, by simpa using hs⟩
        · rintro ⟨ht, -, -⟩
          exact ht.unique (.last hn) |>.symm
      | some b =>
        simp only [walk, if_neg hs, hn, Option.map_eq_some_iff, ih]
        constructor
        · rintro ⟨rest, ⟨ht, hl, hf⟩, rfl⟩
          refine ⟨.step hn ht, Nat.succ_le_succ hl, fun c hc => ?_⟩
          rcases mem_cons.mp hc with rfl | hc
          · exact hs
          · exact fun hm => hf c hc (mem_append_left _ hm)
        · rintro ⟨ht, hl, hf⟩
          cases ht with
          | last hno => cases hno.symm.trans hn
          | @step _ _ rest hst ht =>
            cases hst.symm.trans hn
            refine ⟨rest, ⟨ht, Nat.le_of_succ_le_succ hl, fun c hc hm => ?_⟩, rfl⟩
            rcases mem_append.mp hm with hold | hne
            · exact hf c (mem_cons_of_mem _ hc) hold
            · cases mem_singleton.mp hne
              exact ht.not_mem_step hn hc

theorem walk_head [DecidableEq α] {ho : Nat} {seen : List α}
    (h : walk next ho a seen = some path) : ∃ rest, path = a :: rest := by
  cases (walk_eq_some.mp h).1 <;> exact ⟨_, rfl⟩

theorem isChain_and {R S : α → α → Prop} (h : path.IsChain R) (h' : path.IsChain S) :
    path.IsChain fun x y => R x y ∧ S x y := by
  induction h with
  | nil => exact .nil
  | singleton a => exact .singleton a
  | cons_cons hr _ ih =>
    obtain ⟨hs, hre⟩ := isChain_cons_cons.mp h'
    exact .cons_cons ⟨hr, hs⟩ (ih hre)

end Trails
