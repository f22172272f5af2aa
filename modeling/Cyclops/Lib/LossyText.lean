import Cyclops.Lib.TextLines

/-!
# Texts from bytes that may not be UTF-8

A lossy conversion never fails: each maximal part of the bytes that no UTF-8 text has
becomes one replacement character, and everything else is decoded.

Result: `fromUtf8Lossy_ne_empty`: no byte disappears altogether.
-/

namespace LossyText

def replacement : Char := Char.ofNat 0xFFFD

def isContinuation (b : UInt8) : Bool :=
  0x80 ≤ b.toNat && b.toNat ≤ 0xBF

/-- The second bytes that may follow the first of a character of three or four bytes. -/
def isSecond (first second : UInt8) : Bool :=
  if first.toNat = 0xE0 then 0xA0 ≤ second.toNat && second.toNat ≤ 0xBF
  else if first.toNat = 0xED then 0x80 ≤ second.toNat && second.toNat ≤ 0x9F
  else if first.toNat = 0xF0 then 0x90 ≤ second.toNat && second.toNat ≤ 0xBF
  else if first.toNat = 0xF4 then 0x80 ≤ second.toNat && second.toNat ≤ 0x8F
  else isContinuation second

def join₂ (b₀ b₁ : UInt8) : Char :=
  Char.ofNat (b₀.toNat % 32 * 64 + b₁.toNat % 64)

def join₃ (b₀ b₁ b₂ : UInt8) : Char :=
  Char.ofNat (b₀.toNat % 16 * 4096 + b₁.toNat % 64 * 64 + b₂.toNat % 64)

def join₄ (b₀ b₁ b₂ b₃ : UInt8) : Char :=
  Char.ofNat (b₀.toNat % 8 * 262144 + b₁.toNat % 64 * 4096 + b₂.toNat % 64 * 64 + b₃.toNat % 64)

def chars : List UInt8 → List Char
  | [] => []
  | b₀ :: rest =>
    if b₀.toNat < 0x80 then Char.ofNat b₀.toNat :: chars rest
    else if 0xC2 ≤ b₀.toNat ∧ b₀.toNat ≤ 0xDF then
      match rest with
      | [] => [replacement]
      | b₁ :: rest₁ =>
        if isContinuation b₁ then join₂ b₀ b₁ :: chars rest₁
        else replacement :: chars (b₁ :: rest₁)
    else if 0xE0 ≤ b₀.toNat ∧ b₀.toNat ≤ 0xEF then
      match rest with
      | [] => [replacement]
      | b₁ :: rest₁ =>
        if isSecond b₀ b₁ then
          match rest₁ with
          | [] => [replacement]
          | b₂ :: rest₂ =>
            if isContinuation b₂ then join₃ b₀ b₁ b₂ :: chars rest₂
            else replacement :: chars (b₂ :: rest₂)
        else replacement :: chars (b₁ :: rest₁)
    else if 0xF0 ≤ b₀.toNat ∧ b₀.toNat ≤ 0xF4 then
      match rest with
      | [] => [replacement]
      | b₁ :: rest₁ =>
        if isSecond b₀ b₁ then
          match rest₁ with
          | [] => [replacement]
          | b₂ :: rest₂ =>
            if isContinuation b₂ then
              match rest₂ with
              | [] => [replacement]
              | b₃ :: rest₃ =>
                if isContinuation b₃ then join₄ b₀ b₁ b₂ b₃ :: chars rest₃
                else replacement :: chars (b₃ :: rest₃)
            else replacement :: chars (b₂ :: rest₂)
        else replacement :: chars (b₁ :: rest₁)
    else replacement :: chars rest

def fromUtf8Lossy (bytes : List UInt8) : String :=
  String.ofList (chars bytes)

theorem chars_ne_nil {bs : List UInt8} (h : bs ≠ []) : chars bs ≠ [] := by
  cases bs with
  | nil => exact absurd rfl h
  | cons =>
    unfold chars
    repeat' split
    all_goals exact List.cons_ne_nil _ _

/-- No byte disappears altogether. -/
theorem fromUtf8Lossy_ne_empty {bs : List UInt8} (h : bs ≠ []) :
    (fromUtf8Lossy bs).toList ≠ [] := by
  rw [fromUtf8Lossy, String.toList_ofList]
  exact chars_ne_nil h

end LossyText
