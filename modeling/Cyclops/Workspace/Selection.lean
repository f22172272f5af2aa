import Mathlib.Order.Nat

/-!
# Double click

A double click selects the word under it.

Results: `word_selected_iff`, `blank_click_selects_both`.
-/

namespace Cyclops.Selection

open Nat List

structure CellPos where
  col : UInt16
  row : UInt16
deriving DecidableEq

/-- The text of a row has one character for each of the pane's columns, which a `u16` counts. -/
structure RowText where
  chars : List Char
  cols : chars.length < UInt16.size

def isWordChar (c : Char) : Bool :=
  c.isAlphanum || c = '_' || c = '-'

def wordAt (chars : List Char) (i : Nat) : Bool :=
  chars[i]?.any isWordChar

/-- The scan to the left: column `start - 1` is next. -/
def scanLeft (chars : List Char) : Nat → Nat
  | 0 => 0
  | start + 1 => if wordAt chars start then scanLeft chars start else start + 1

/-- The scan to the right, over the characters after column `last`. -/
def scanRight (last : Nat) : List Char → Nat
  | [] => last
  | c :: rest => if isWordChar c then scanRight (last + 1) rest else last

def wordRange (chars : List Char) (pos : CellPos) : CellPos × CellPos :=
  if chars.isEmpty then (pos, pos)
  else
    let col := min pos.col.toNat (chars.length - 1)
    ({ pos with col := .ofNat (scanLeft chars col) },
      { pos with col := .ofNat (scanRight col (chars.drop (col + 1))) })

/-- The column a click is on: a click past the row is on its last column. -/
def clicked (chars : List Char) (pos : CellPos) : Nat :=
  if chars.isEmpty then pos.col.toNat else min pos.col.toNat (chars.length - 1)

/-- The columns from `first` to `last` hold word characters, and `col` is one of them. -/
structure Run (chars : List Char) (col first last : Nat) : Prop where
  first_le : first ≤ col
  le_last : col ≤ last
  word : ∀ i, first ≤ i → i ≤ last → wordAt chars i

/-- What a double click on `col` is to select: the longest run through it, if there is one. -/
def Selected (chars : List Char) (col first last : Nat) : Prop :=
  if wordAt chars col then
    Run chars col first last ∧ ∀ f l, Run chars col f l → first ≤ f ∧ l ≤ last
  else first = col ∧ last = col

/-- The scan stops before a column that holds no word character. -/
theorem scanLeft_spec (chars : List Char) (col : Nat) : scanLeft chars col ≤ col ∧
    (∀ i, scanLeft chars col ≤ i → i < col → wordAt chars i) ∧
    ∀ i, i + 1 = scanLeft chars col → ¬ wordAt chars i := by
  induction col with
  | zero => simp [scanLeft]
  | succ start ih =>
    rw [scanLeft]
    split
    next word =>
      obtain ⟨le, all, stop⟩ := ih
      refine ⟨le.trans start.le_succ, fun i lower below => ?_, stop⟩
      rcases Nat.lt_succ_iff_lt_or_eq.mp below with below | rfl
      · exact all i lower below
      · exact word
    next blank =>
      refine ⟨le_rfl, fun i lower below => absurd lower below.not_ge, fun i here => ?_⟩
      cases here
      exact blank

theorem scanRight_spec (chars : List Char) (last : Nat) : last ≤ scanRight last (chars.drop (last + 1)) ∧
    (∀ i, last < i → i ≤ scanRight last (chars.drop (last + 1)) → wordAt chars i) ∧
    ¬ wordAt chars (scanRight last (chars.drop (last + 1)) + 1) := by
  generalize rest_eq : chars.drop (last + 1) = rest
  induction rest generalizing last with
  | nil =>
    have past : chars.length ≤ last + 1 := drop_eq_nil_iff.mp rest_eq
    refine ⟨le_rfl, fun i after upto => absurd after upto.not_gt, ?_⟩
    simp [wordAt, scanRight, getElem?_eq_none past]
  | cons c rest ih =>
    have here : chars[last + 1]? = some c := by rw [← head?_drop, rest_eq, head?_cons]
    rw [scanRight]
    split
    next word =>
      obtain ⟨le, all, stop⟩ := ih (last + 1) (by rw [← tail_drop, rest_eq, tail_cons])
      refine ⟨(le_succ last).trans le, fun i after upto => ?_, stop⟩
      rcases eq_or_lt_of_le (succ_le_of_lt after) with rfl | after
      · simpa [wordAt, here] using word
      · exact all i after upto
    next blank =>
      refine ⟨le_rfl, fun i after upto => absurd after upto.not_gt, ?_⟩
      simpa [wordAt, here] using blank

/-- The two scans find the longest run through a column that holds a word character. -/
theorem run_scans {chars : List Char} {col : Nat} (word : wordAt chars col) :
    Run chars col (scanLeft chars col) (scanRight col (chars.drop (col + 1))) ∧
    ∀ f l, Run chars col f l →
      scanLeft chars col ≤ f ∧ l ≤ scanRight col (chars.drop (col + 1)) := by
  obtain ⟨left, allLeft, stopLeft⟩ := scanLeft_spec chars col
  obtain ⟨right, allRight, stopRight⟩ := scanRight_spec chars col
  refine ⟨⟨left, right, fun i lower upto => ?_⟩, fun f l run => ⟨?_, ?_⟩⟩
  · rcases lt_trichotomy i col with before | rfl | after
    · exact allLeft i lower before
    · exact word
    · exact allRight i after upto
  · by_contra further
    obtain ⟨i, here⟩ := Nat.exists_eq_add_one_of_ne_zero (Nat.ne_zero_of_lt (not_le.mp further))
    exact stopLeft i here.symm (run.word i (by omega) (by have := run.le_last; omega))
  · by_contra further
    exact stopRight (run.word _ (run.first_le.trans (right.trans (le_succ _))) (by omega))

/-- An empty row is scanned like any other: both scans stay where they are. -/
theorem wordRange_eq (chars : List Char) (pos : CellPos) : wordRange chars pos =
    ({ pos with col := .ofNat (scanLeft chars (clicked chars pos)) },
      { pos with col := .ofNat (scanRight (clicked chars pos)
        (chars.drop (clicked chars pos + 1))) }) := by
  unfold wordRange clicked
  split
  next empty =>
    rw [isEmpty_iff.mp empty]
    have stays : scanLeft [] pos.col.toNat = pos.col.toNat := by
      cases pos.col.toNat <;> rfl
    simp [stays, scanRight]
  next => rfl

theorem clicked_lt (chars : List Char) (pos : CellPos) : clicked chars pos < UInt16.size := by
  have bound := pos.col.toNat_lt_size
  unfold clicked
  split
  · exact bound
  · exact (min_le_left _ _).trans_lt bound

theorem scanRight_lt (row : RowText) (pos : CellPos) : scanRight (clicked row.chars pos)
    (row.chars.drop (clicked row.chars pos + 1)) < UInt16.size := by
  obtain ⟨right, all, -⟩ := scanRight_spec row.chars (clicked row.chars pos)
  rcases right.eq_or_lt with same | moved
  · exact same ▸ clicked_lt row.chars pos
  · refine lt_of_not_ge fun past => ?_
    have word := all _ moved le_rfl
    rw [wordAt, getElem?_eq_none (row.cols.le.trans past)] at word
    cases word

/-- Where the clicked column holds no word character the scans still run over its neighbours. -/
theorem scans_stay_iff {chars : List Char} {col : Nat} (blank : ¬ wordAt chars col) :
    scanLeft chars col = col ∧ scanRight col (chars.drop (col + 1)) = col ↔
      ¬ (wordAt chars (col - 1) ∨ wordAt chars (col + 1)) := by
  obtain ⟨left, allLeft, stopLeft⟩ := scanLeft_spec chars col
  obtain ⟨right, allRight, stopRight⟩ := scanRight_spec chars col
  constructor
  · rintro ⟨first, last⟩ (before | after)
    · cases col with
      | zero => exact blank before
      | succ i => exact stopLeft i first.symm before
    · rw [last] at stopRight
      exact stopRight after
  · intro alone
    obtain ⟨before, after⟩ := not_or.mp alone
    constructor
    · rcases left.eq_or_lt with same | moved
      · exact same
      · exact absurd (allLeft _ (le_pred_of_lt moved) (pred_lt_of_lt moved)) before
    · rcases right.eq_or_lt with same | moved
      · exact same.symm
      · exact absurd (allRight _ col.lt_succ_self moved) after

/-- A click selects what it is to select exactly when the clicked column holds a word character
or neither of its neighbours does. -/
theorem word_selected_iff (row : RowText) (pos : CellPos) :
    Selected row.chars (clicked row.chars pos) (wordRange row.chars pos).1.col.toNat
        (wordRange row.chars pos).2.col.toNat ↔
      wordAt row.chars (clicked row.chars pos) ∨
        ¬ (wordAt row.chars (clicked row.chars pos - 1) ∨
          wordAt row.chars (clicked row.chars pos + 1)) := by
  have right := scanRight_lt row pos
  have left := (scanLeft_spec row.chars (clicked row.chars pos)).1.trans_lt
    (clicked_lt row.chars pos)
  rw [wordRange_eq, Selected]
  generalize clicked row.chars pos = col at *
  rw [UInt16.toNat_ofNat_of_lt' left, UInt16.toNat_ofNat_of_lt' right]
  split
  next word => exact iff_of_true (run_scans word) (.inl word)
  next blank => rw [scans_stay_iff blank, or_iff_right blank]

/-- The click is on the blank of `ab cd`. -/
theorem blank_click_selects_both :
    wordRange ['a', 'b', ' ', 'c', 'd'] ⟨2, 0⟩ = (⟨0, 0⟩, ⟨4, 0⟩) ∧
      ¬ Selected ['a', 'b', ' ', 'c', 'd'] 2 0 4 := by
  refine ⟨by decide, fun selected => ?_⟩
  have alone : 0 = 2 ∧ 4 = 2 := selected
  cases alone.1

end Cyclops.Selection
