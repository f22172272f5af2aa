import Mathlib.Data.List.Basic
import Mathlib.Data.List.TakeWhile

/-!
# Files of text lines

A file of text lines is a list of bytes. Reading it gives one text per line, or nothing for a line
that is not UTF-8. A file that was cut at some byte ends with a fragment, a line without its line
feed.
-/

namespace TextLines

open List String ByteArray

def newline : UInt8 := 10

def carriageReturn : UInt8 := 13

/-! ## Texts as bytes -/

def encode (text : String) : List UInt8 :=
  text.toByteArray.data.toList

def decode (bytes : List UInt8) : Option String :=
  fromUTF8? ⟨bytes.toArray⟩

theorem decode_encode (text : String) : decode (encode text) = some text := by
  have hv : IsValidUTF8 ⟨(encode text).toArray⟩ := text.isValidUTF8
  rw [decode, fromUTF8?, dif_pos hv]
  rfl

variable {text : String} {f : List UInt8} {t : List String}

theorem decode_eq_some {bs : List UInt8} : decode bs = some text ↔ bs = encode text := by
  constructor
  · intro h
    unfold decode fromUTF8? at h
    split at h
    · cases h
      rfl
    · cases h
  · rintro rfl
    exact decode_encode text

theorem encode_eq (text : String) : encode text = text.toList.flatMap utf8EncodeChar := by
  have h : text.toByteArray = text.toList.utf8Encode := by
    rw [← toByteArray_ofList, ofList_toList]
  rw [encode, h, utf8Encode]
  simp

theorem encode_append (a b : String) : encode (a ++ b) = encode a ++ encode b := by
  simp [encode_eq]

theorem isValidUTF8_of_append {chars : List Char} {bs : ByteArray}
    (h : (chars.utf8Encode ++ bs).IsValidUTF8) : bs.IsValidUTF8 := by
  induction chars with
  | nil => simpa using h
  | cons c chars ih =>
    rw [utf8Encode_cons, ByteArray.append_assoc] at h
    exact ih (isValidUTF8_utf8Encode_singleton_append_iff.mp h)

/-- A text can be cut off the front of what is decoded. -/
theorem decode_append (text : String) (bs : List UInt8) :
    decode (encode text ++ bs) = (decode bs).map (text ++ ·) := by
  cases ht : decode bs with
  | some =>
    rw [decode_eq_some.mp ht, ← encode_append, decode_encode]
    rfl
  | none =>
    simp only [decode, fromUTF8?] at ht ⊢
    split_ifs at ht with h
    refine dif_neg fun hw => h (@isValidUTF8_of_append text.toList _ ?_)
    convert hw using 1
    exact ext (by simp [encode])

theorem decode_terminated (text : String) : decode (encode text ++ [newline]) = some (text ++ "\n") := by
  rw [decode_append, show [newline] = encode "\n" from rfl, decode_encode]
  rfl

/-- No control character, the line feed and the carriage return among them. -/
def Printable (text : String) : Prop :=
  ∀ c ∈ text.toList, 32 ≤ c.toNat

instance (text : String) : Decidable (Printable text) :=
  decidable_of_iff (text.toList.all fun c => decide (32 ≤ c.toNat)) (by
    simp only [all_eq_true, decide_eq_true_eq, Printable])

theorem eq_of_mem_utf8EncodeChar {c : Char} {b : UInt8} (hb : b ∈ utf8EncodeChar c)
    (ha : b.toNat < 128) : b.toNat = c.toNat := by
  have hva : c.toNat = c.val.toNat := rfl
  unfold utf8EncodeChar at hb
  simp only at hb
  split at hb
  · rw [mem_singleton] at hb
    subst hb
    rw [UInt8.toNat_ofNat']
    omega
  · split at hb
    · simp only [mem_cons, not_mem_nil, or_false] at hb
      rcases hb with rfl | rfl <;> (rw [UInt8.toNat_ofNat'] at *; omega)
    · split at hb <;> simp only [mem_cons, not_mem_nil, or_false] at hb
      · rcases hb with rfl | rfl | rfl <;> (rw [UInt8.toNat_ofNat'] at *; omega)
      · rcases hb with rfl | rfl | rfl | rfl <;> (rw [UInt8.toNat_ofNat'] at *; omega)

theorem exists_mem_of_mem_encode {b : UInt8} (hb : b ∈ encode text) (ha : b.toNat < 128) :
    ∃ c ∈ text.toList, b.toNat = c.toNat := by
  rw [encode_eq] at hb
  obtain ⟨c, hc, hb⟩ := mem_flatMap.mp hb
  exact ⟨c, hc, eq_of_mem_utf8EncodeChar hb ha⟩

theorem Printable.le_of_mem_encode (h : Printable text) {b : UInt8} (hb : b ∈ encode text) :
    32 ≤ b.toNat := by
  by_contra hl
  obtain ⟨c, hc, hs⟩ := exists_mem_of_mem_encode hb (by omega)
  exact hl (hs ▸ h c hc)

theorem Printable.newline_notMem (h : Printable text) : newline ∉ encode text :=
  fun hm => absurd (h.le_of_mem_encode hm) (by decide)

theorem Printable.carriageReturn_notMem (h : Printable text) : carriageReturn ∉ encode text :=
  fun hm => absurd (h.le_of_mem_encode hm) (by decide)

/-! ## Words -/

theorem space_notMem_encode (h : ' ' ∉ text.toList) : 32 ∉ encode text := by
  intro hm
  obtain ⟨c, hc, hs⟩ := exists_mem_of_mem_encode hm (by decide)
  exact h ((Char.ext (UInt32.toNat_inj.mp hs) : ' ' = c) ▸ hc)

/-! ## Reading line by line -/

/-- The pieces of a file, each up to and with its line feed. -/
def pieces : List UInt8 → List (List UInt8)
  | [] => []
  | b :: rest =>
    if b = newline then [b] :: pieces rest
    else
      match pieces rest with
      | [] => [[b]]
      | first :: others => (b :: first) :: others

/-- A piece without its line feed, and without a carriage return before it. -/
def chomp (piece : List UInt8) : List UInt8 :=
  if piece.getLast? = some newline then
    let text := piece.dropLast
    if text.getLast? = some carriageReturn then text.dropLast else text
  else piece

def lines (file : List UInt8) : List (Option String) :=
  (pieces file).map fun piece => decode (chomp piece)

theorem pieces_append {line rest : List UInt8} (h : newline ∉ line) :
    pieces (line ++ newline :: rest) = (line ++ [newline]) :: pieces rest := by
  induction line with
  | nil => rw [nil_append, nil_append, pieces, if_pos rfl]
  | cons b line ih =>
    obtain ⟨hb, hl⟩ := not_or.mp (mt mem_cons.mpr h)
    rw [cons_append, pieces, if_neg (Ne.symm hb), ih hl]
    rfl

theorem chomp_terminated {line : List UInt8} (h : carriageReturn ∉ line) :
    chomp (line ++ [newline]) = line := by
  have hl : line.getLast? ≠ some carriageReturn := fun hl =>
    h (mem_of_getLast? hl)
  rw [chomp, if_pos getLast?_concat, dropLast_concat]
  exact if_neg hl

theorem chomp_fragment (h : newline ∉ f) : chomp f = f := by
  rw [chomp, if_neg fun hl => h (mem_of_getLast? hl)]

/-- What writing a text as a line adds to a file. -/
def terminated (text : String) : List UInt8 :=
  encode text ++ [newline]

/-- The lines of a file that was written line by line come first. -/
theorem lines_terminated (h : ∀ text ∈ t, Printable text) (rest : List UInt8) :
    lines (t.flatMap terminated ++ rest) = t.map some ++ lines rest := by
  induction t with
  | nil => rfl
  | cons text t ih =>
    obtain ⟨ht, hte⟩ := forall_mem_cons.mp h
    rw [flatMap_cons, terminated, List.append_assoc, List.append_assoc]
    change (pieces (encode text ++ newline :: (t.flatMap terminated ++ rest))).map _ = _
    rw [pieces_append ht.newline_notMem, map_cons,
      chomp_terminated ht.carriageReturn_notMem, decode_encode]
    exact congrArg (some text :: ·) (ih hte)

theorem lines_concat_newline (h : newline ∉ f) (hr : carriageReturn ∉ f) :
    lines (f ++ [newline]) = [decode f] := by
  rw [lines, pieces_append h, map_cons, chomp_terminated hr]
  rfl

/-! ## Files that were cut -/

/-- The part of a file up to its last line feed. -/
def completeLines (file : List UInt8) : List UInt8 :=
  (file.reverse.dropWhile (· ≠ newline)).reverse

theorem completeLines_append (h : newline ∉ f) :
    completeLines (t.flatMap terminated ++ f) = t.flatMap terminated := by
  have hdr : f.reverse.dropWhile (· ≠ newline) = [] := by
    refine dropWhile_eq_nil_iff.mpr fun b hb => ?_
    exact decide_eq_true fun heq => h (heq ▸ mem_reverse.mp hb)
  rw [completeLines, reverse_append, dropWhile_append, hdr]
  rcases eq_nil_or_concat t with rfl | ⟨t, text, rfl⟩
  · rfl
  · simp [terminated]

theorem getLast?_terminated (h : t ≠ []) : (t.flatMap terminated).getLast? = some newline := by
  rcases eq_nil_or_concat t with rfl | ⟨t, text, rfl⟩
  · exact absurd rfl h
  · simp [terminated]

theorem getLast?_append_fragment {file : List UInt8} (h : newline ∉ f)
    (hne : f ≠ []) : (file ++ f).getLast? ≠ some newline := by
  rw [getLast?_append_of_ne_nil _ hne]
  exact fun hl => h (mem_of_getLast? hl)

/-- A part of a written line is all of it, or a fragment of its text. -/
theorem eq_or_part_of_part {part : List UInt8} (h : part <+: terminated text) :
    part = terminated text ∨ part <+: encode text := by
  obtain ⟨rest, hr⟩ := h
  rcases eq_nil_or_concat rest with rfl | ⟨rest, b, rfl⟩
  · exact .inl (by rw [← hr, append_nil])
  · refine .inr ⟨rest, ?_⟩
    have hl := congrArg dropLast hr
    rw [terminated, dropLast_concat, concat_eq_append, ← List.append_assoc, dropLast_concat] at hl
    exact hl

theorem Printable.newline_notMem_part (h : Printable text) {part : List UInt8}
    (hb : part <+: encode text) : newline ∉ part :=
  fun hm => h.newline_notMem (hb.subset hm)

theorem Printable.newline_notMem_take (h : Printable text) {bs : Nat}
    (hb : bs < (terminated text).length) : newline ∉ (terminated text).take bs := by
  rw [terminated, List.length_append, List.length_singleton] at hb
  rw [terminated, take_append_of_le_length (by omega)]
  exact h.newline_notMem_part ( take_prefix _ _)

end TextLines
