import Cyclops.Lib.Runs
import Mathlib.Data.Finset.Basic

/-!
# The file panel

The rows of the panel are replaced by snapshots from outside, while cursor, scroll and history are
kept.
-/

namespace Cyclops.Files

open List

def maxHistory : Nat := 64

/-- `none` as the cursor means that the keyboard is not in the panel. -/
structure FileTree (ρ : Type) where
  root : String := ""
  rows : List ρ := []
  expanded : Finset String := ∅
  scroll : Nat := 0
  cursor : Option Nat := none
  back : List String := []
  forward : List String := []
  stamp : Nat := 0

variable {ρ : Type}

namespace FileTree

variable (t : FileTree ρ)

def landOn (root : String) : FileTree ρ :=
  { t with root, scroll := 0 }

/-- The oldest folder falls off the front. -/
def pushBack (path : String) : FileTree ρ :=
  let back := t.back ++ [path]
  { t with back := if maxHistory < back.length then back.tail else back }

/-- `none` here and below is the answer `false`, and changes nothing. -/
def reroot (root : String) : Option (FileTree ρ) :=
  if root = t.root then none
  else
    let left := if t.root = "" then t else t.pushBack t.root
    some ({ left with forward := [] }.landOn root)

def goBack : Option (FileTree ρ) :=
  t.back.getLast?.map { t with back := t.back.dropLast, forward := t.forward ++ [t.root] }.landOn

def goForward : Option (FileTree ρ) :=
  t.forward.getLast?.map ({ t with forward := t.forward.dropLast }.pushBack t.root).landOn

def toggle (path : String) : FileTree ρ :=
  { t with expanded := if path ∈ t.expanded then t.expanded.erase path else insert path t.expanded }

def scrollBy (delta : Int) (height : Nat) : FileTree ρ :=
  { t with scroll := min (t.scroll + delta).toNat (t.rows.length - height) }

def clampScroll (height : Nat) : FileTree ρ :=
  { t with scroll := min t.scroll (t.rows.length - height) }

/-- A panel without rows takes nothing. -/
def takeCursor : FileTree ρ :=
  if t.rows = [] then t
  else { t with cursor := some (min (t.cursor.getD 0) (t.rows.length - 1)) }

def releaseCursor : FileTree ρ :=
  { t with cursor := none }

def moveCursor (delta : Int) : FileTree ρ × Option ρ :=
  match t.cursor with
  | none => (t, none)
  | some current =>
    let next := min (current + delta).toNat (t.rows.length - 1)
    ({ t with cursor := some next }, t.rows[next]?)

def revealCursor (height : Nat) : FileTree ρ :=
  match t.cursor with
  | none => t
  | some row =>
    { t with
      scroll :=
        if row < t.scroll then row
        else if 0 < height ∧ t.scroll + height ≤ row then row + 1 - height
        else t.scroll }

def install (rows : List ρ) (stamp : Nat) : FileTree ρ × Bool :=
  ({ t with rows, stamp, cursor := t.cursor.map (min · (rows.length - 1)) }, t.stamp != stamp)

end FileTree

/-- What the keys and the snapshots do. -/
inductive TreeOp (ρ : Type) where
  | reroot (root : String)
  | goBack
  | goForward
  | toggle (path : String)
  | scrollBy (delta : Int) (height : Nat)
  | clampScroll (height : Nat)
  | takeCursor
  | releaseCursor
  | moveCursor (delta : Int)
  | revealCursor (height : Nat)
  | install (rows : List ρ) (stamp : Nat)

namespace FileTree

def step (t : FileTree ρ) : TreeOp ρ → FileTree ρ
  | .reroot root => (t.reroot root).getD t
  | .goBack => t.goBack.getD t
  | .goForward => t.goForward.getD t
  | .toggle path => t.toggle path
  | .scrollBy delta height => t.scrollBy delta height
  | .clampScroll height => t.clampScroll height
  | .takeCursor => t.takeCursor
  | .releaseCursor => t.releaseCursor
  | .moveCursor delta => (t.moveCursor delta).1
  | .revealCursor height => t.revealCursor height
  | .install rows stamp => (t.install rows stamp).1

/-- The cursor names a row that can be revealed, and going back can be taken back. -/
structure Sound (t : FileTree ρ) : Prop where
  named : ∀ row, t.cursor = some row → row < t.rows.length
  revealed : ∀ height row, 1 ≤ height → t.cursor = some row →
    (t.revealCursor height).scroll ≤ row ∧ row < (t.revealCursor height).scroll + height
  undone : ∀ u, t.back.length < maxHistory → t.goBack = some u → ∃ v, u.goForward = some v ∧
    v.root = t.root ∧ v.back = t.back ∧ v.forward = t.forward

/-- No empty snapshot is installed under a cursor. -/
def Careful (t : FileTree ρ) : TreeOp ρ → Prop
  | .install rows _ => t.cursor = none ∨ rows ≠ []
  | _ => True

variable {t : FileTree ρ}

theorem window_of_reveal {height row : Nat} (h : 1 ≤ height) (hc : t.cursor = some row) :
    (t.revealCursor height).scroll ≤ row ∧ row < (t.revealCursor height).scroll + height := by
  simp only [revealCursor, hc]
  split_ifs <;> omega

theorem goForward_goBack {u : FileTree ρ} (hl : t.back.length < maxHistory)
    (hu : t.goBack = some u) : ∃ v, u.goForward = some v ∧ v.root = t.root ∧ v.back = t.back ∧
      v.forward = t.forward := by
  obtain ⟨previous, hp, rfl⟩ := Option.map_eq_some_iff.mp hu
  have hb : t.back.dropLast ++ [previous] = t.back := dropLast_append_getLast? previous hp
  refine ⟨{ t with scroll := 0 }, ?_, rfl, rfl, rfl⟩
  simp only [goForward, landOn, getLast?_concat, Option.map_some, dropLast_concat, pushBack, hb,
    if_neg hl.not_gt]

theorem sound_iff : t.Sound ↔ ∀ row, t.cursor = some row → row < t.rows.length :=
  ⟨Sound.named, fun h => ⟨h, fun _ _ => window_of_reveal, fun _ => goForward_goBack⟩⟩

theorem Sound.frame {u : FileTree ρ} (h : t.Sound) (hc : u.cursor = t.cursor)
    (hr : u.rows = t.rows) : u.Sound := by
  rw [sound_iff, hc, hr]
  exact h.named

theorem sound_of_clamped {u : FileTree ρ} {row : Nat} (hr : u.rows ≠ [])
    (hc : u.cursor = some (min row (u.rows.length - 1))) : u.Sound := by
  have := length_pos_iff.mpr hr
  rw [sound_iff, hc]
  rintro _ ⟨⟩
  omega

theorem sound_install_iff {rows : List ρ} {stamp : Nat} :
    (t.install rows stamp).1.Sound ↔ t.cursor = none ∨ rows ≠ [] := by
  cases hc : t.cursor with
  | none => simp [sound_iff, install, hc]
  | some row =>
    have clamped : (t.install rows stamp).1.cursor = some (min row (rows.length - 1)) := by
      simp only [install, hc, Option.map_some]
    refine ⟨fun hs => .inr ?_, fun hr => sound_of_clamped (hr.resolve_left nofun) clamped⟩
    exact length_pos_iff.mp (Nat.zero_lt_of_lt (hs.named _ clamped))

/-- Only a snapshot replaces the rows, and only snapshots and keys move the cursor. -/
theorem sound_step_iff (h : t.Sound) (op : TreeOp ρ) : (t.step op).Sound ↔ t.Careful op := by
  cases op with
  | install rows stamp => exact sound_install_iff
  | releaseCursor => simp [sound_iff, step, releaseCursor, Careful]
  | takeCursor =>
    refine iff_true_intro ?_
    simp only [step, takeCursor]
    split
    · exact h
    · exact sound_of_clamped ‹_› rfl
  | moveCursor delta =>
    refine iff_true_intro ?_
    simp only [step, moveCursor]
    cases hc : t.cursor with
    | none => exact h
    | some current => exact sound_of_clamped (ne_nil_of_length_pos (Nat.zero_lt_of_lt (h.named _ hc))) rfl
  | reroot root =>
    refine iff_true_intro (h.frame ?_ ?_) <;>
    · simp only [step, reroot]
      split
      · rfl
      · split <;> rfl
  | goBack =>
    refine iff_true_intro (h.frame ?_ ?_) <;>
    · simp only [step, goBack]
      cases t.back.getLast? <;> rfl
  | goForward =>
    refine iff_true_intro (h.frame ?_ ?_) <;>
    · simp only [step, goForward]
      cases t.forward.getLast? <;> rfl
  | revealCursor height =>
    refine iff_true_intro (h.frame ?_ ?_) <;>
    · simp only [step, revealCursor]
      split <;> rfl
  | toggle path => exact iff_true_intro (h.frame rfl rfl)
  | scrollBy delta height => exact iff_true_intro (h.frame rfl rfl)
  | clampScroll height => exact iff_true_intro (h.frame rfl rfl)

end FileTree

/-- Each operation leaves the panel sound exactly when no empty snapshot is installed under a
cursor. -/
theorem cursor_names_row_iff (ops : List (TreeOp ρ)) :
    Runs.Along FileTree.step (fun t op => (t.step op).Sound) {} ops ↔
      Runs.Along FileTree.step FileTree.Careful {} ops :=
  Runs.along_congr FileTree.Sound (fun _ op h => FileTree.sound_step_iff h op)
    (fun _ op h => (FileTree.sound_step_iff h op).mpr) (FileTree.sound_iff.mpr nofun)

/-- The folder is emptied under the cursor. -/
theorem cursor_outlives_rows :
    let ops : List (TreeOp Unit) := [.install [()] 1, .takeCursor, .install [] 2]
    (ops.foldl FileTree.step {}).cursor = some 0 ∧ (ops.foldl FileTree.step {}).rows = [] ∧
      ¬ Runs.Along FileTree.step (fun t op => (t.step op).Sound) {} ops :=
  ⟨rfl, rfl, fun h => absurd (h.2.2.1.named 0 rfl) (by decide)⟩

end Cyclops.Files
