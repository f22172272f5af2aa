import Cyclops.Lib.Runs
import Cyclops.Lib.TextLines
import Mathlib.Data.List.Induction

/-!
# Bounded logs

A log that would grow beyond its limit is rotated: of its last bytes the whole lines are kept, and
the record is written behind them.
-/

namespace Cyclops.Bounded

open List TextLines

def boundedAppendLimitMax : Nat := 16 * 1024 * 1024

def retained (file record : List UInt8) (maxBytes retainBytes : Nat) : List UInt8 :=
  file.drop (file.length - min (min retainBytes (maxBytes - record.length)) file.length)

/-- The bytes up to and with the first line feed are dropped; all of them if there is none. -/
def afterNewline (tail : List UInt8) : List UInt8 :=
  (tail.dropWhile (· ≠ newline)).tail

def appendBoundedLocked (file record : List UInt8) (maxBytes retainBytes : Nat) : List UInt8 :=
  if maxBytes ≤ record.length then record.drop (record.length - maxBytes)
  else if file.length + record.length ≤ maxBytes then file ++ record
  else
    let tail := retained file record maxBytes retainBytes
    (if tail.length < file.length then afterNewline tail else tail) ++ record

def appendBounded (maxBytes retainBytes : Nat) (file record : List UInt8) :
    Except String (List UInt8) :=
  if maxBytes = 0 ∨ boundedAppendLimitMax < maxBytes ∨ maxBytes ≤ retainBytes then
    .error "bounded append limits are invalid"
  else .ok (appendBoundedLocked file record maxBytes retainBytes)

/-- The bytes `dropped` before a file end a line, or the old content of the file. -/
def StartsLine (old dropped : List UInt8) : Prop :=
  dropped = [] ∨ dropped = old ∨ dropped.getLast? = some newline

variable {file record old : List UInt8} {M R : Nat}

theorem afterNewline_append {before : List UInt8} (h : newline ∈ before) (rest : List UInt8) :
    afterNewline (before ++ rest) = afterNewline before ++ rest := by
  have hn : before.dropWhile (· ≠ newline) ≠ [] := by
    rw [Ne, dropWhile_eq_nil_iff]
    exact fun hall => by simpa using hall _ h
  rw [afterNewline, dropWhile_append, if_neg (by simpa using hn), tail_append_of_ne_nil hn]
  rfl

theorem afterNewline_spec (tail : List UInt8) : ∃ dropped, tail = dropped ++ afterNewline tail ∧
    (afterNewline tail = [] ∨ dropped.getLast? = some newline) := by
  induction tail with
  | nil => exact ⟨[], rfl, .inl rfl⟩
  | cons b tail ih =>
    by_cases hb : b = newline
    · subst hb
      exact ⟨[newline], by simp [afterNewline], .inr rfl⟩
    · have step : afterNewline (b :: tail) = afterNewline tail := by simp [afterNewline, hb]
      obtain ⟨dropped, ht, hd⟩ := ih
      rw [step]
      refine ⟨b :: dropped, by rw [cons_append, ← ht], hd.imp_right fun hl => ?_⟩
      rw [getLast?_cons, hl]
      rfl

section Append

variable (hl : record.length < M)
include hl

theorem rotation_eq (hf : M < file.length + record.length) :
    appendBoundedLocked file record M R = afterNewline (retained file record M R) ++ record := by
  rw [appendBoundedLocked, if_neg hl.not_ge, if_neg hf.not_ge]
  dsimp only
  rw [if_pos]
  rw [retained, length_drop]
  omega

theorem appendBoundedLocked_spec (file : List UInt8) (R : Nat) : ∃ cut kept, file = cut ++ kept ∧
    appendBoundedLocked file record M R = kept ++ record ∧ kept.length + record.length ≤ M ∧
    (cut = [] ∨ kept = [] ∨ cut.getLast? = some newline) := by
  by_cases hf : file.length + record.length ≤ M
  · rw [appendBoundedLocked, if_neg hl.not_ge, if_pos hf]
    exact ⟨[], file, rfl, rfl, hf, .inl rfl⟩
  · rw [rotation_eq hl (not_le.mp hf)]
    obtain ⟨front, hr⟩ : retained file record M R <:+ file := drop_suffix ..
    obtain ⟨cut, ht, hc⟩ := afterNewline_spec (retained file record M R)
    refine ⟨front ++ cut, _, ?_, rfl, ?_, .inr (hc.imp_right fun hn => ?_)⟩
    · rw [append_assoc, ← ht, hr]
    · have hk := congrArg length ht
      rw [length_append, retained, length_drop] at hk
      dsimp only [retained] at hk ⊢
      omega
    · rw [getLast?_append, hn]
      rfl

end Append

theorem StartsLine.append {dropped content cut kept : List UInt8} (h : StartsLine old dropped)
    (hc : content = dropped ++ (cut ++ kept)) (ho : content = old ∨ content.getLast? = some newline)
    (hd : cut = [] ∨ kept = [] ∨ cut.getLast? = some newline) : StartsLine old (dropped ++ cut) := by
  rcases hd with rfl | rfl | hl
  · rwa [append_nil]
  · rw [append_nil] at hc
    exact .inr (hc ▸ ho)
  · refine .inr (.inr ?_)
    rw [getLast?_append, hl]
    rfl

def Lines (M : Nat) (records : List (List UInt8)) : Prop :=
  ∀ r ∈ records, r.getLast? = some newline ∧ r.length < M

theorem Lines.content {rs : List (List UInt8)} (hr : Lines M rs) :
    old ++ rs.flatten = old ∨ (old ++ rs.flatten).getLast? = some newline := by
  induction rs using reverseRecOn with
  | nil => exact .inl (append_nil _)
  | append_singleton rs r =>
    refine .inr ?_
    rw [flatten_append, flatten_singleton, ← append_assoc, getLast?_append,
      (hr r (mem_append_right _ mem_cons_self)).1]
    rfl

theorem Lines.run {rs : List (List UInt8)} (hr : Lines M rs)
    (h : rs.foldlM (appendBounded M R) old = .ok file) : (old.length ≤ M → file.length ≤ M) ∧
      (∃ dropped, old ++ rs.flatten = dropped ++ file ∧ StartsLine old dropped) ∧
      ∀ r, rs.getLast? = some r → r <:+ file := by
  induction rs using reverseRecOn generalizing file with
  | nil =>
    obtain rfl : old = file := Except.ok.inj h
    exact ⟨id, ⟨[], append_nil _, .inl rfl⟩, nofun⟩
  | append_singleton rs r ih =>
    obtain ⟨hrs, hlast⟩ := forall_mem_append.mp hr
    obtain ⟨prior, hp, ha⟩ := Runs.foldlM_concat_inv h
    obtain ⟨-, ⟨dropped, hd, hs⟩, -⟩ := ih hrs hp
    rw [appendBounded] at ha
    split at ha
    · cases ha
    obtain rfl := Except.ok.inj ha
    obtain ⟨cut, kept, hk, he, hlen, hc⟩ :=
      appendBoundedLocked_spec (hlast r mem_cons_self).2 prior R
    rw [he]
    rw [hk] at hd
    refine ⟨fun _ => by rwa [length_append],
      ⟨dropped ++ cut, ?_, hs.append hd (Lines.content hrs) hc⟩, ?_⟩
    · rw [flatten_append, flatten_singleton, ← append_assoc, hd]
      simp only [append_assoc]
    · rintro _ hlast
      rw [getLast?_concat, Option.some_inj] at hlast
      exact hlast ▸ suffix_append kept r

/-- After any appends the file is within the limit, is what is left of the old content and the
records from the end of a line on, and ends with the newest record. -/
theorem bounded_log_keeps_newest (maxBytes retainBytes : Nat) (hm : retainBytes < maxBytes)
    (old : List UInt8) (records : List (List UInt8)) (hr : Lines maxBytes records) :
    (maxBytes ≤ boundedAppendLimitMax →
      ∃ file, records.foldlM (appendBounded maxBytes retainBytes) old = .ok file) ∧
    ∀ file, records.foldlM (appendBounded maxBytes retainBytes) old = .ok file →
      (old.length ≤ maxBytes → file.length ≤ maxBytes) ∧
      (∃ dropped, old ++ records.flatten = dropped ++ file ∧ StartsLine old dropped) ∧
      (∀ r, records.getLast? = some r → r <:+ file) ∧
      ∀ record before line rest, record.length < maxBytes →
        maxBytes < file.length + record.length →
        retained file record maxBytes retainBytes = before ++ (line ++ rest) → newline ∈ before →
        ∃ front, appendBoundedLocked file record maxBytes retainBytes =
          front ++ (line ++ rest) ++ record := by
  refine ⟨fun hlim => ?_, fun file h => ?_⟩
  · clear hr
    induction records generalizing old with
    | nil => exact ⟨old, rfl⟩
    | cons r rs ih =>
      rw [foldlM_cons, appendBounded, if_neg (by omega)]
      exact ih _
  · obtain ⟨hlen, hsuf, hlast⟩ := hr.run h
    refine ⟨hlen, hsuf, hlast, fun record before line rest hl hf ht hb => ?_⟩
    rw [rotation_eq hl hf, ht, afterNewline_append hb]
    exact ⟨_, rfl⟩

/-- The third line rotates the log, which then holds the last two; so does a fourth. -/
theorem rotated_lines_bounded :
    let file : List UInt8 := [99, 100, 10, 102, 103, 10]
    [[97, 98, 10], [99, 100, 10], [102, 103, 10]].foldlM (appendBounded 8 6) [101, 10] = .ok file ∧
      [102, 103, 10] <:+ file ∧
      ∃ front, appendBoundedLocked file [104, 105, 10] 8 6 =
        front ++ ([102, 103, 10] ++ []) ++ [104, 105, 10] := by
  intro file
  have hrun : [[97, 98, 10], [99, 100, 10], [102, 103, 10]].foldlM (appendBounded 8 6) [101, 10] =
      .ok file := by decide
  obtain ⟨-, -, hlast, hrotate⟩ := (bounded_log_keeps_newest 8 6 (by decide) [101, 10]
    [[97, 98, 10], [99, 100, 10], [102, 103, 10]] (by simp [Lines, newline])).2 file hrun
  exact ⟨hrun, hlast _ rfl, hrotate [104, 105, 10] [100, 10] _ [] (by decide) (by decide)
    (by decide) (by decide)⟩

/-- The old content does not end its line, and the file goes on in the middle of it. -/
theorem unterminated_line_dropped :
    [[120, 121, 122, 10]].foldlM (appendBounded 5 1) [97, 98, 99] = .ok [120, 121, 122, 10] ∧
      ¬ ∃ dropped, [97, 98, 99] ++ [[120, 121, 122, 10]].flatten = dropped ++ [120, 121, 122, 10] ∧
        (dropped = [] ∨ dropped.getLast? = some newline) := by
  refine ⟨by decide, ?_⟩
  rintro ⟨dropped, hd, hs⟩
  obtain rfl : [97, 98, 99] = dropped := append_cancel_right hd
  exact absurd hs (by decide)

end Cyclops.Bounded
