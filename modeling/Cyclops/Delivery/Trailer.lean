import Mathlib.Data.List.Sublists

/-!
# The rows after a composer

What was staged is proved to be all the composer holds by the rows that follow it: they are to be
the trailer rows the vendor's manifest declares, in order.

Results: `laterFollow_iff`, `trailerFollows_iff`.
-/

namespace Cyclops.Trailer

open List

/-- A compiled pattern: the span of its first match in a row, and what it captures as content. -/
structure Regex where
  find : String → Option (Nat × Nat)
  content : String → Option String

namespace Regex

def isMatch (re : Regex) (row : String) : Bool :=
  (re.find row).isSome

def wholeRow (re : Regex) (row : String) : Bool :=
  re.find row = some (0, row.utf8ByteSize)

def capturedContent (re : Regex) (row : String) : Option String :=
  if re.wholeRow row then re.content row else none

end Regex

/-- How a capture without styling proves its composer. -/
inductive UnstyledComposerProof where
  | structuralTrailer
deriving DecidableEq

/-- The trailer rows of a manifest, as the loader lets them through: a style pattern for each row,
and where anything is declared a required prefix that the rows can satisfy. -/
structure Manifest where
  composerTrailers : List Regex
  composerTrailersEsc : List Regex
  required : Nat
  unstyledComposerProof : Option UnstyledComposerProof := none
  composerPrompt : Option Regex := none
  composerContinuation : Option Regex := none
  paired : composerTrailersEsc.length = composerTrailers.length
  measured : composerTrailers ≠ [] ∨ required ≠ 0 →
    required ≠ 0 ∧ required ≤ composerTrailers.length

/-- A captured row with its escapes, and the same row plain. -/
structure Row where
  raw : String
  plain : String

/-- The patterns not tried yet after one of them took the row. -/
def claim (fits : Nat → Row → Bool) (row : Row) : List Nat → Option (List Nat)
  | [] => none
  | i :: next => if fits i row then some next else claim fits row next

/-- Later declared rows may be absent, but never reordered. -/
def laterFollow (fits : Nat → Row → Bool) (next : List Nat) : List Row → Bool
  | [] => true
  | row :: rows =>
    match claim fits row next with
    | none => false
    | some next => laterFollow fits next rows

namespace Manifest

def structuralUnstyled (m : Manifest) (suffix : List Row) : Bool :=
  suffix.all (fun row => row.raw = row.plain) && m.unstyledComposerProof = some .structuralTrailer

def belongsToComposer (m : Manifest) (first : Row) : Bool :=
  m.composerPrompt.any (fun re => (re.capturedContent first.plain).isSome) ||
    m.composerContinuation.any fun re => (re.capturedContent first.plain).isSome

/-- Pattern `i` against a row: the whole of the plain row, and some of the styled one. -/
def fits (m : Manifest) (unstyled : Bool) (i : Nat) (row : Row) : Bool :=
  m.composerTrailers[i]?.any (·.wholeRow row.plain) &&
    (m.composerTrailersEsc[i]?.any (·.isMatch row.raw) || unstyled)

def trailerFollows (m : Manifest) (suffix : List Row) : Bool :=
  let layout := m.composerTrailers.length
  if layout = 0 ∨ m.composerTrailersEsc.length ≠ layout then false
  else if m.required = 0 ∨ m.required > layout then false
  else if suffix.length < m.required ∨ suffix.length > layout then false
  else
    let unstyled := m.structuralUnstyled suffix
    if unstyled && suffix.head?.all m.belongsToComposer then false
    else
      (suffix.take m.required).zipIdx.all (fun row => m.fits unstyled row.2 row.1) &&
        laterFollow (m.fits unstyled) (.range' m.required (layout - m.required))
          (suffix.drop m.required)

end Manifest

section Greedy

variable {fits : Nat → Row → Bool}

theorem laterFollow_cons (i : Nat) (next : List Nat) (row : Row) (rows : List Row) :
    laterFollow fits (i :: next) (row :: rows) =
      if fits i row then laterFollow fits next rows else laterFollow fits next (row :: rows) := by
  rw [laterFollow, claim]
  split_ifs <;> rfl

/-- A row that takes a later pattern than it could only leaves fewer to the rows after it. -/
theorem laterFollow_iff {next : List Nat} {rows : List Row} : laterFollow fits next rows ↔
    ∃ chosen : List Nat, chosen.Sublist next ∧ Forall₂ (fun i row => fits i row) chosen rows := by
  induction next generalizing rows with
  | nil =>
    cases rows with
    | nil => simp [laterFollow]
    | cons row rows => simp [laterFollow, claim]
  | cons i next ih =>
    cases rows with
    | nil => exact iff_of_true rfl ⟨[], nil_sublist _, .nil⟩
    | cons row rows =>
      rw [laterFollow_cons]
      split_ifs with fit
      · rw [ih]
        constructor
        · rintro ⟨chosen, sub, all⟩
          exact ⟨i :: chosen, sub.cons_cons i, .cons fit all⟩
        · rintro ⟨chosen, sub, all⟩
          obtain ⟨j, later, -, others, rfl⟩ := forall₂_cons_right_iff.mp all
          exact ⟨later, sub.tail, others⟩
      · rw [ih]
        constructor
        · rintro ⟨chosen, sub, all⟩
          exact ⟨chosen, sub.cons i, all⟩
        · rintro ⟨chosen, sub, all⟩
          obtain ⟨j, later, other, -, rfl⟩ := forall₂_cons_right_iff.mp all
          rcases sublist_cons_iff.mp sub with sub | ⟨_, here, -⟩
          · exact ⟨_, sub, all⟩
          · exact absurd ((cons.inj here).1 ▸ other) fit

end Greedy

/-- The rows after a composer are accepted exactly when there are enough and not too many of them,
the first match the required patterns, and the others match patterns picked in order from the
later ones. -/
theorem trailerFollows_iff (m : Manifest) (suffix : List Row) (declared : m.composerTrailers ≠ [])
    (styled : m.structuralUnstyled suffix = false) :
    m.trailerFollows suffix ↔
      (m.required ≤ suffix.length ∧ suffix.length ≤ m.composerTrailers.length) ∧
      (∀ i row, i < m.required → suffix[i]? = some row → m.fits false i row) ∧
      ∃ chosen : List Nat,
        chosen.Sublist (.range' m.required (m.composerTrailers.length - m.required)) ∧
        Forall₂ (fun i row => m.fits false i row) chosen (suffix.drop m.required) := by
  obtain ⟨some_required, enough⟩ := m.measured (.inl declared)
  have layout : m.composerTrailers.length ≠ 0 := by simpa using declared
  unfold Manifest.trailerFollows
  rw [styled, if_neg (by simp [layout, m.paired]), if_neg (by simp [some_required, enough])]
  dsimp only
  rw [Bool.false_and, if_neg Bool.false_ne_true]
  split_ifs with count
  · refine iff_of_false id fun accepted => ?_
    rcases count with few | many
    · exact few.not_ge accepted.1.1
    · exact many.not_ge accepted.1.2
  · have counted := not_or.mp count
    rw [Bool.and_eq_true, laterFollow_iff, all_eq_true]
    refine (and_congr_left' ?_).trans
      (and_iff_right ⟨not_lt.mp counted.1, not_lt.mp counted.2⟩).symm
    simp only [Prod.forall, mem_zipIdx_iff_getElem?, getElem?_take]
    constructor
    · intro all i row before found
      exact all row i (by rw [if_pos before, found])
    · intro all row i found
      split_ifs at found with before
      exact all i row before found

def literal (text : String) : Regex where
  find row := if row = text then some (0, row.utf8ByteSize) else none
  content _ := none

/-- A required border and two rows that may follow it. -/
def borderAndHints : Manifest where
  composerTrailers := [literal "---", literal "? help", literal "ready"]
  composerTrailersEsc := [literal "---", literal "? help", literal "ready"]
  required := 1
  paired := rfl
  measured _ := ⟨Nat.one_ne_zero, Nat.succ_le_succ (Nat.zero_le 2)⟩

/-- The second pattern is passed over. -/
theorem hint_row_absent : borderAndHints.trailerFollows [⟨"---", "---"⟩, ⟨"ready", "ready"⟩] := by
  refine (trailerFollows_iff borderAndHints _ (cons_ne_nil _ _) rfl).mpr
    ⟨by decide, ?_, [2], by decide, ?_⟩
  · intro i row first found
    obtain rfl := Nat.lt_one_iff.mp first
    cases found
    decide
  · exact .cons (by decide) .nil

end Cyclops.Trailer
