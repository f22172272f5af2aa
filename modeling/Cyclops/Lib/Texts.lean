import Mathlib.Data.List.Basic
import Mathlib.Data.List.DropRight

/-!
# Texts

White space, and the first place of a separator in a text.
-/

namespace Texts

open List

/-- The characters of the Unicode property `White_Space`. -/
def isWhitespace (c : Char) : Bool :=
  let n := c.toNat
  (0x9 ≤ n && n ≤ 0xD) || n == 0x20 || n == 0x85 || n == 0xA0 || n == 0x1680 ||
    (0x2000 ≤ n && n ≤ 0x200A) || n == 0x2028 || n == 0x2029 || n == 0x202F || n == 0x205F ||
    n == 0x3000

def trim (text : List Char) : List Char :=
  ((text.dropWhile isWhitespace).reverse.dropWhile isWhitespace).reverse

theorem trim_trim (text : List Char) : trim (trim text) = trim text := by
  set first := text.dropWhile isWhitespace with hf
  have same : trim text = first.rdropWhile isWhitespace := rfl
  have hk : (trim text).dropWhile isWhitespace = trim text := by
    rw [dropWhile_eq_self_iff]
    intro hn
    -- the first character of what is left is the first one after the leading white space
    have hb : trim text <+: first := same ▸ rdropWhile_prefix _ first
    obtain ⟨rest, hw⟩ := hb
    have head : ¬ isWhitespace (first.get ⟨0, by rw [← hw, length_append]; omega⟩) :=
      dropWhile_eq_self_iff.mp (hf ▸ dropWhile_idempotent _ text) _
    simpa [← hw, getElem_append_left hn] using head
  change ((trim text).dropWhile isWhitespace).rdropWhile isWhitespace = trim text
  rw [hk, same, rdropWhile_idempotent]

theorem trim_ne_nil {c : Char} {text : List Char} (hc : isWhitespace c = false)
    (h : text.head? = some c) : trim text ≠ [] := by
  obtain ⟨rest, rfl⟩ : ∃ rest, text = c :: rest := by
    cases text with
    | nil => cases h
    | cons first rest => exact ⟨rest, by rw [Option.some.inj h]⟩
  rw [trim, dropWhile_cons_of_neg (by simp [hc]), ne_eq, reverse_eq_nil_iff, dropWhile_eq_nil_iff]
  intro ha
  have hw := ha c (by simp)
  rw [hc] at hw
  cases hw

section

variable {α : Type} {sep colon : α} {word s left right : List α}

theorem eq_or_append_of_sep (hu : sep ∉ word) (h : word ++ sep :: left = s ++ sep :: right) :
    s = word ∧ left = right ∨ ∃ more, s = word ++ sep :: more ∧ left = more ++ sep :: right := by
  induction word generalizing s with
  | nil =>
    cases s with
    | nil => exact .inl ⟨rfl, (cons.inj h).2⟩
    | cons a more =>
      obtain ⟨rfl, hr⟩ := cons.inj h
      exact .inr ⟨more, rfl, hr⟩
  | cons a word ih =>
    cases s with
    | nil => exact absurd (.inl (cons.inj h).1.symm) (mem_cons.not.mp hu)
    | cons =>
      obtain ⟨rfl, hr⟩ := cons.inj h
      simpa using ih (fun ha => hu (mem_cons_of_mem _ ha)) hr

variable [DecidableEq α]

theorem dropInfix?_sep (hu : sep ∉ word) (rest : List α) :
    (word ++ sep :: rest).dropInfix? [sep] = some (word, rest) := by
  refine dropInfix?_eq_some_iff.mpr ⟨⟨[sep], by simp, by simp⟩, fun s sep' right h hs => ?_⟩
  cases eq_of_beq hs
  rw [append_assoc] at h
  obtain ⟨rfl, -⟩ | ⟨more, rfl, -⟩ := eq_or_append_of_sep hu h
  · exact le_rfl
  · simp

/-- The first lone colon after some words is the one that ends them. -/
theorem dropInfix?_words {words : List (List α)} (hu : sep ∉ word) (ho : colon ≠ sep)
    (hp : ∀ w ∈ words, sep ∉ w ∧ w ≠ [colon]) (rest : List α) : ∃ head,
      (word ++ sep :: (words.flatMap (· ++ [sep]) ++ colon :: sep :: rest)).dropInfix?
        [sep, colon, sep] = some (head, rest) := by
  simp only [dropInfix?_eq_some_iff, beq_iff_eq, exists_eq_right, append_assoc]
  induction words generalizing word with
  | nil =>
    refine ⟨word, rfl, ?_⟩
    rintro s _ right h rfl
    obtain ⟨rfl, -⟩ | ⟨more, rfl, -⟩ := eq_or_append_of_sep hu h
    · exact le_rfl
    · simp
  | cons w words ih =>
    obtain ⟨hpl, hlo⟩ := hp w mem_cons_self
    obtain ⟨head, form, hl⟩ := ih hpl fun w ha => hp w (mem_cons_of_mem _ ha)
    refine ⟨word ++ sep :: head, by simpa using form, ?_⟩
    rintro s _ right h rfl
    obtain ⟨rfl, next⟩ | ⟨more, rfl, next⟩ := eq_or_append_of_sep hu h
    · have next : w ++ sep :: (words.flatMap (· ++ [sep]) ++ colon :: sep :: rest) =
          [colon] ++ sep :: right := by simpa using next
      obtain ⟨alone, -⟩ | ⟨more, alone, -⟩ := eq_or_append_of_sep hpl next
      · exact absurd alone.symm hlo
      · cases w <;> simp_all
    · have := hl more _ right (by simpa using next) rfl
      simp only [length_append, length_cons]
      omega

end

/-- The parts before and after the first occurrence of a separator. -/
def splitOnce (text separator : String) : Option (String × String) :=
  (text.toList.dropInfix? separator.toList).map fun (before, after) =>
    (String.ofList before, String.ofList after)

theorem splitOnce_append {a : String} (hun : ' ' ∉ a.toList) (b : String) :
    splitOnce (a ++ (" " ++ b)) " " = some (a, b) := by
  have := dropInfix?_sep hun b.toList
  simp_all [splitOnce]

end Texts
