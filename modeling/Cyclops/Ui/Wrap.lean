import Mathlib.Algebra.GroupWithZero.Nat
import Mathlib.Algebra.Order.BigOperators.Group.List
import Mathlib.Data.List.Induction

/-!
# Wrapping text to a width

A line of a message is cut into pieces that fit a row.

Result: `wrap_spec`.
-/

namespace Cyclops.Wrap

open List

/-- The columns of a character. A blank takes at least one. -/
structure Columns where
  of : Char → Nat
  le_two : ∀ c, of c ≤ 2
  blank : 0 < of ' '

variable (cols : Columns)

def displayWidth (text : List Char) : Nat :=
  (text.map cols.of).sum

structure Filling where
  out : List (List Char) := []
  line : List Char := []
  used : Nat := 0
  /-- Where the last blank is in `line`, unless it is in the first column. -/
  breakAt : Option Nat := none

namespace Filling

def cut (s : Filling) : Filling :=
  match s.breakAt.filter (· < s.line.length) with
  | some i =>
    let rest := s.line.drop (i + 1)
    ⟨s.out ++ [s.line.take (i + 1)], rest, displayWidth cols rest, none⟩
  | none => ⟨s.out ++ [s.line], [], 0, none⟩

def put (width : Nat) (s : Filling) (c : Char) : Filling :=
  let s := if width < s.used + cols.of c then s.cut cols else s
  ⟨s.out, s.line ++ [c], s.used + cols.of c,
    if c = ' ' ∧ 0 < s.used then some s.line.length else s.breakAt⟩

end Filling

def wrapLine (width : Nat) (para : List Char) : List (List Char) :=
  let s := para.foldl (Filling.put cols width) {}
  s.out ++ [s.line]

def wrap (text : List Char) (width : Nat) : List (List Char) :=
  if width = 0 then [] else (text.splitOn '\n').flatMap (wrapLine cols width)

/-! ## What a line is cut into -/

/-- No blank after the first column. -/
def Unbroken (piece : List Char) : Prop :=
  ∀ x y, piece = x ++ ' ' :: y → displayWidth cols x = 0

/-- A piece that fits, and ends after a blank if it has one it can end after. -/
structure Piece (width : Nat) (piece : List Char) : Prop where
  fits : displayWidth cols piece ≤ width
  ends : piece.getLast? = some ' ' ∨ Unbroken cols piece

structure Filling.Sound (width : Nat) (text : List Char) (s : Filling) : Prop where
  kept : s.out.flatten ++ s.line = text
  pieces : ∀ piece ∈ s.out, Piece cols width piece
  used : s.used = displayWidth cols s.line
  fits : s.used ≤ width
  unbroken : s.breakAt = none → Unbroken cols s.line
  broken : ∀ i, s.breakAt = some i → ∃ x y, s.line = x ++ ' ' :: y ∧ x.length = i ∧
    0 < displayWidth cols x ∧ ' ' ∉ y

variable {cols} {width : Nat} {text : List Char} {s : Filling} {c : Char}

@[simp] theorem displayWidth_append {a b : List Char} :
    displayWidth cols (a ++ b) = displayWidth cols a + displayWidth cols b := by
  simp [displayWidth]

@[simp] theorem displayWidth_cons {a : Char} {b : List Char} :
    displayWidth cols (a :: b) = cols.of a + displayWidth cols b := by
  simp [displayWidth]

@[simp] theorem displayWidth_nil : displayWidth cols [] = 0 := rfl

namespace Filling

theorem Sound.cut (h : s.Sound cols width text) (hw : 2 ≤ width) (c : Char) :
    (s.cut cols).Sound cols width text ∧ (s.cut cols).used + cols.of c ≤ width := by
  have hc := cols.le_two c
  have hu := h.used
  have hf := h.fits
  unfold Filling.cut
  cases hb : s.breakAt with
  | none =>
    have hp : Piece cols width s.line := ⟨hu ▸ hf, .inr (h.unbroken hb)⟩
    rw [Option.filter_none]
    exact ⟨⟨by simp [h.kept], forall_mem_append.mpr ⟨h.pieces, forall_mem_singleton.mpr hp⟩, rfl,
      Nat.zero_le _, fun _ => by simp [Unbroken], nofun⟩, by dsimp only; omega⟩
  | some i =>
    obtain ⟨x, y, hl, hx, hpos, hy⟩ := h.broken i hb
    have hi : i < s.line.length := by simp [hl, ← hx]
    have htake : s.line.take (i + 1) = x ++ [' '] := by simp [hl, ← hx, take_append]
    have hdrop : s.line.drop (i + 1) = y := by simp [hl, ← hx]
    have hcols := cols.blank
    rw [hu, hl, displayWidth_append, displayWidth_cons] at hf
    have hp : Piece cols width (x ++ [' ']) :=
      ⟨by rw [displayWidth_append, displayWidth_cons, displayWidth_nil]; omega, .inl (by simp)⟩
    simp only [Option.filter_some, hi, decide_true, if_true, htake, hdrop]
    refine ⟨⟨?_, forall_mem_append.mpr ⟨h.pieces, forall_mem_singleton.mpr hp⟩, rfl, ?_,
      fun _ a b hab => ?_, nofun⟩, ?_⟩
    · simp [← h.kept, hl]
    · dsimp only
      omega
    · rw [show y = a ++ ' ' :: b from hab] at hy
      exact absurd (mem_append_right a mem_cons_self) hy
    · omega

theorem unbroken_concat {line : List Char} (h : Unbroken cols line)
    (hc : c = ' ' → displayWidth cols line = 0) : Unbroken cols (line ++ [c]) := by
  intro x y he
  cases y using List.reverseRecOn with
  | nil =>
    obtain ⟨rfl, hc'⟩ := append_inj' he rfl
    exact hc (cons.inj hc').1
  | append_singleton y d =>
    rw [← cons_append, ← append_assoc] at he
    exact h x y (append_inj' he rfl).1

theorem Sound.put (h : s.Sound cols width text) (hw : 2 ≤ width) (c : Char) :
    (s.put cols width c).Sound cols width (text ++ [c]) := by
  have hs : ∃ s' : Filling, s.put cols width c = ⟨s'.out, s'.line ++ [c], s'.used + cols.of c,
      if c = ' ' ∧ 0 < s'.used then some s'.line.length else s'.breakAt⟩ ∧
      s'.Sound cols width text ∧ s'.used + cols.of c ≤ width := by
    refine ⟨_, rfl, ?_⟩
    split
    · exact h.cut hw c
    · next hn => exact ⟨h, not_lt.mp hn⟩
  obtain ⟨s', he, h, hfit⟩ := hs
  rw [he]
  refine ⟨by simp [← h.kept], h.pieces, by simp [h.used], hfit, fun hb => ?_, fun i hb => ?_⟩
  · dsimp only at hb
    split at hb
    · cases hb
    · next hn =>
      exact unbroken_concat (h.unbroken hb) fun hc =>
        h.used ▸ Nat.eq_zero_of_not_pos fun hpos => hn ⟨hc, hpos⟩
  · dsimp only at hb
    split at hb
    · next hc =>
      obtain rfl := Option.some_inj.mp hb
      exact ⟨s'.line, [], by rw [hc.1], rfl, h.used ▸ hc.2, not_mem_nil⟩
    · next hn =>
      obtain ⟨x, y, hl, hx, hpos, hy⟩ := h.broken i hb
      have hne : c ≠ ' ' := by
        intro hc
        refine hn ⟨hc, ?_⟩
        rw [h.used, hl, displayWidth_append]
        omega
      exact ⟨x, y ++ [c], by simp [hl], hx, hpos, by simp [hy, Ne.symm hne]⟩

end Filling

/-- The pieces of a line are the line, each fits, and each but the last ends after a blank if it
can. -/
theorem wrapLine_spec (hw : 2 ≤ width) (para : List Char) :
    (wrapLine cols width para).flatten = para ∧
      (∀ piece ∈ wrapLine cols width para, displayWidth cols piece ≤ width) ∧
      ∀ piece ∈ (wrapLine cols width para).dropLast,
        piece.getLast? = some ' ' ∨ Unbroken cols piece := by
  have h : (para.foldl (Filling.put cols width) {}).Sound cols width para := by
    induction para using List.reverseRecOn with
    | nil => exact ⟨rfl, nofun, rfl, Nat.zero_le _, fun _ => by simp [Unbroken], nofun⟩
    | append_singleton para c ih =>
      rw [foldl_append]
      exact ih.put hw c
  refine ⟨by simpa [wrapLine] using h.kept, ?_, ?_⟩
  · simp only [wrapLine, mem_append, mem_singleton]
    rintro piece (hp | rfl)
    · exact (h.pieces piece hp).fits
    · exact h.used ▸ h.fits
  · simp only [wrapLine, dropLast_concat]
    exact fun piece hp => (h.pieces piece hp).ends

/-- The pieces of a line are that line, take at most `width` columns, and break after a blank where
there is one. -/
theorem wrap_spec (cols : Columns) (text : List Char) (width : Nat) (hw : 2 ≤ width) :
    ∃ pieces : List (List (List Char)), wrap cols text width = pieces.flatten ∧
      pieces.map flatten = text.splitOn '\n' ∧ ∀ line ∈ pieces,
        (∀ piece ∈ line, displayWidth cols piece ≤ width) ∧
        ∀ piece ∈ line.dropLast, piece.getLast? ≠ some ' ' →
          ∀ x y, piece = x ++ ' ' :: y → displayWidth cols x = 0 := by
  refine ⟨(text.splitOn '\n').map (wrapLine cols width), ?_, ?_, ?_⟩
  · rw [wrap, if_neg (by omega)]
    rfl
  · rw [map_map]
    exact map_id'' (fun para => (wrapLine_spec hw para).1) _
  · simp only [mem_map]
    rintro _ ⟨para, -, rfl⟩
    obtain ⟨-, hf, he⟩ := @wrapLine_spec cols _ hw para
    exact ⟨hf, fun piece hp hb => (he piece hp).resolve_left hb⟩

/-- A line that breaks after its blank. -/
theorem wrap_blank_spec :
    let cols : Columns := ⟨fun _ => 1, fun _ => by decide, by decide⟩
    let text := ['a', ' ', 'b', 'c']
    wrap cols text 2 = [['a', ' '], ['b', 'c']] ∧
      ∃ pieces : List (List (List Char)), wrap cols text 2 = pieces.flatten ∧
        pieces.map flatten = text.splitOn '\n' ∧ ∀ line ∈ pieces,
          (∀ piece ∈ line, displayWidth cols piece ≤ 2) ∧
          ∀ piece ∈ line.dropLast, piece.getLast? ≠ some ' ' →
            ∀ x y, piece = x ++ ' ' :: y → displayWidth cols x = 0 :=
  ⟨by decide, wrap_spec _ ['a', ' ', 'b', 'c'] 2 (by decide)⟩

end Cyclops.Wrap
