import Cyclops.Fusion.TurnEnds

/-!
# Dedupe keys of turns

A turn reported twice is dropped by a key made of its fields and the event.

Results: `append_part_inj`, `dedupeKey_eq_iff`.
-/

namespace Cyclops.Fusion

open String

/-- One part behind its length in bytes. -/
def lengthPrefixed (part : String) : String :=
  toString part.utf8ByteSize ++ ":" ++ part

def TurnKey.dedupeKey (key : TurnKey) (event : String) : String :=
  key.fields.foldl (fun out part => out ++ lengthPrefixed part) "" ++ lengthPrefixed event

theorem append_colon_inj {a b s t : List Char} (ha : ':' ∉ a) (hb : ':' ∉ b)
    (same : a ++ ':' :: s = b ++ ':' :: t) : a = b ∧ s = t := by
  induction a generalizing b with
  | nil =>
    cases b with
    | nil => exact ⟨rfl, (List.cons.inj same).2⟩
    | cons c b => exact absurd ((List.cons.inj same).1 ▸ List.mem_cons_self) hb
  | cons c a ih =>
    cases b with
    | nil => exact absurd ((List.cons.inj same).1 ▸ List.mem_cons_self) ha
    | cons d b =>
      obtain ⟨rfl, rest⟩ := List.cons.inj same
      obtain ⟨rfl, tail⟩ := ih (fun h => ha (.tail _ h)) (fun h => hb (.tail _ h)) rest
      exact ⟨rfl, tail⟩

theorem colon_notMem_digits (n : Nat) : ':' ∉ Nat.toDigits 10 n := by
  intro mem
  have digit := Nat.isDigit_of_mem_toDigits (by decide) (by decide) mem
  exact absurd digit (by decide)

/-- The length says where the part ends, whatever its characters are. -/
theorem append_part_inj {a b s t : String}
    (same : lengthPrefixed a ++ s = lengthPrefixed b ++ t) : a = b ∧ s = t := by
  have chars := congrArg toList same
  simp only [lengthPrefixed, toList_append, Nat.toString_eq_ofList_toDigits,
    toList_ofList, List.append_assoc] at chars
  obtain ⟨lengths, texts⟩ :=
    append_colon_inj (colon_notMem_digits _) (colon_notMem_digits _) chars
  have size : a.utf8ByteSize = b.utf8ByteSize := by
    have := congrArg (Nat.ofDigitChars 10 · 0) lengths
    simpa using this
  have text : a ++ s = b ++ t := by
    rwa [← toList_inj, toList_append, toList_append]
  have bytes := congrArg toByteArray text
  obtain rfl := toByteArray_inj.mp (ByteArray.append_inj_left bytes size)
  exact ⟨rfl, toList_inj.mp (List.append_cancel_left texts)⟩

theorem foldl_lengthPrefixed (parts : List String) (out : String) :
    parts.foldl (fun out part => out ++ lengthPrefixed part) out =
      out ++ parts.foldl (fun out part => out ++ lengthPrefixed part) "" := by
  induction parts generalizing out with
  | nil => simp
  | cons part parts ih =>
    rw [List.foldl_cons, ih, List.foldl_cons, ih ("" ++ _), empty_append, append_assoc]

theorem lengthPrefixed_append_ne (part rest : String) : lengthPrefixed part ++ rest ≠ "" := by
  intro empty
  have := congrArg length empty
  simp [lengthPrefixed] at this

theorem foldl_lengthPrefixed_inj {xs ys : List String}
    (same : xs.foldl (fun out part => out ++ lengthPrefixed part) "" =
      ys.foldl (fun out part => out ++ lengthPrefixed part) "") : xs = ys := by
  induction xs generalizing ys with
  | nil =>
    cases ys with
    | nil => rfl
    | cons y ys =>
      rw [List.foldl_cons, foldl_lengthPrefixed ys, empty_append] at same
      exact absurd same.symm (lengthPrefixed_append_ne _ _)
  | cons x xs ih =>
    rw [List.foldl_cons, foldl_lengthPrefixed, empty_append] at same
    cases ys with
    | nil => exact absurd same (lengthPrefixed_append_ne _ _)
    | cons y ys =>
      rw [List.foldl_cons, foldl_lengthPrefixed ys, empty_append] at same
      obtain ⟨rfl, rest⟩ := append_part_inj same
      rw [ih rest]

/-- A key names one turn and one event. -/
theorem dedupeKey_eq_iff (k₁ k₂ : TurnKey) (e₁ e₂ : String) :
    k₁.dedupeKey e₁ = k₂.dedupeKey e₂ ↔ k₁ = k₂ ∧ e₁ = e₂ := by
  have parts : ∀ (k : TurnKey) e, k.dedupeKey e =
      (k.fields ++ [e]).foldl (fun out part => out ++ lengthPrefixed part) "" := by
    intro k e
    rw [List.foldl_concat]
    rfl
  rw [parts, parts]
  constructor
  · intro same
    obtain ⟨fields, event⟩ := List.append_inj' (foldl_lengthPrefixed_inj same) rfl
    cases k₁
    cases k₂
    cases fields
    cases event
    exact ⟨rfl, rfl⟩
  · rintro ⟨rfl, rfl⟩
    rfl

end Cyclops.Fusion
