import Cyclops.Lib.Runs
import Mathlib.Order.MinMax

/-!
# Sequence numbers of hook reports

A hook numbers its reports by a counter in a file.

Result: `fresh_reports_accepted_iff`.
-/

namespace Cyclops.Reports

open List Function UInt64

def seenCap : Nat := 256

def resetSeqCeiling : Nat := 8

def resetReplayStreak : Nat := 3

/-- The set of the source holds the numbers of its queue. -/
structure AgentSeen where
  seqOrder : List Nat := []
  maxSeq : Nat := 0
  lowReplays : Nat := 0

namespace AgentSeen

def pushSeq (order : List Nat) (seq : Nat) : List Nat :=
  if seenCap < order.length + 1 then (order ++ [seq]).tail else order ++ [seq]

/-- True for a number that was ingested already. -/
def seenSeq (s : AgentSeen) (seq : Nat) : AgentSeen × Bool :=
  if seq ∈ s.seqOrder then
    if seq < s.maxSeq then
      if seq ≤ resetSeqCeiling ∨ resetReplayStreak ≤ s.lowReplays + 1 then
        (⟨pushSeq [] seq, max 0 seq, 0⟩, false)
      else ({ s with lowReplays := s.lowReplays + 1 }, true)
    else (s, true)
  else (⟨pushSeq s.seqOrder seq, max s.maxSeq seq, 0⟩, false)

def arrive (seq : Nat) (s : AgentSeen) : AgentSeen :=
  (s.seenSeq seq).1

end AgentSeen

/-- `none` when the file is lost or garbage. The addition saturates. -/
def nextSeq (counter : Option Nat) : Nat :=
  min (counter.getD 0 + 1) (size - 1)

/-- A report, whether the counter was lost before it, and how often it is sent again. -/
structure Report where
  restarted : Bool := false
  resends : Nat := 0

structure Series where
  count : Nat := 0
  seen : AgentSeen := {}

namespace Series

open AgentSeen

def number (s : Series) (r : Report) : Nat :=
  nextSeq (if r.restarted then none else some s.count)

def step (s : Series) (r : Report) : Series :=
  ⟨s.number r, (arrive (s.number r))^[r.resends + 1] s.seen⟩

/-- The first arrival is accepted and every other one is a duplicate. -/
def Recognised (s : Series) (r : Report) : Prop :=
  ∀ j ≤ r.resends, (((arrive (s.number r))^[j] s.seen).seenSeq (s.number r)).2 = decide (0 < j)

/-- A reused number is not the highest, and an old report is resent not at all or twice. -/
def Careful (s : Series) (r : Report) : Prop :=
  (s.number r ≤ s.count → s.number r ≠ s.seen.maxSeq) ∧
    (s.number r < s.seen.maxSeq → (s.number r ≤ s.count → seenCap < s.count) →
      r.resends ≤ if s.number r ≤ resetSeqCeiling then 0 else 2)

end Series

/-! ## Resends -/

namespace AgentSeen

variable {s : AgentSeen} {k : Nat}

theorem arrive_duplicate (h : (s.seenSeq k).2 = true) :
    (arrive k s).seqOrder = s.seqOrder ∧ (arrive k s).maxSeq = s.maxSeq := by
  unfold arrive
  unfold seenSeq at h ⊢
  split_ifs at h ⊢ <;> exact ⟨rfl, rfl⟩

theorem iterate_duplicates {n : Nat} (h : ∀ j < n, (((arrive k)^[j] s).seenSeq k).2 = true) :
    ((arrive k)^[n] s).seqOrder = s.seqOrder ∧ ((arrive k)^[n] s).maxSeq = s.maxSeq := by
  induction n with
  | zero => exact ⟨rfl, rfl⟩
  | succ n ih =>
    obtain ⟨ho, hm⟩ := ih fun j hj => h j (by omega)
    obtain ⟨ho', hm'⟩ := arrive_duplicate (h n (by omega))
    rw [iterate_succ_apply']
    exact ⟨ho'.trans ho, hm'.trans hm⟩

theorem duplicates_iff (hk : k ∈ s.seqOrder) (hl : s.lowReplays = 0) (n : Nat) :
    (∀ j < n, (((arrive k)^[j] s).seenSeq k).2 = true) ↔
      (k < s.maxSeq → n ≤ if k ≤ resetSeqCeiling then 0 else 2) := by
  by_cases hm : k < s.maxSeq
  · by_cases hc : k ≤ resetSeqCeiling
    · have first : (s.seenSeq k).2 = false := by simp [seenSeq, hk, hm, hc]
      rw [if_pos hc]
      refine ⟨fun h _ => not_lt.mp fun hn => ?_, fun h j hj => absurd (h hm) (by omega)⟩
      exact absurd (first.symm.trans (h 0 hn)) nofun
    · have again (j : Nat) : seenSeq { s with lowReplays := j } k =
          if 2 ≤ j then (⟨pushSeq [] k, max 0 k, 0⟩, false)
          else ({ s with lowReplays := j + 1 }, true) := by
        simp [seenSeq, hk, hm, hc, resetReplayStreak]
      have low (j : Nat) (hj : j < 3) : (arrive k)^[j] s = { s with lowReplays := j } := by
        induction j with
        | zero => exact congrArg (AgentSeen.mk _ _) hl
        | succ j ih =>
          rw [iterate_succ_apply', ih (by omega), arrive, again, if_neg (by omega)]
      rw [if_neg hc]
      refine ⟨fun h _ => not_lt.mp fun hn => ?_, fun h j hj => ?_⟩
      · have h2 := h 2 hn
        rw [low 2 (by decide), again] at h2
        cases h2
      · have := h hm
        rw [low j (by omega), again, if_neg (by omega)]
  · have same : arrive k s = s := by simp [arrive, seenSeq, hk, hm]
    refine iff_of_true (fun j _ => ?_) (absurd · hm)
    rw [iterate_fixed same]
    simp [seenSeq, hk, hm]

end AgentSeen

/-! ## The window -/

/-- The last numbers of the series, after what is left of the numbers of an earlier one. -/
def Window (count : Nat) (order : List Nat) : Prop :=
  ∃ a n, order = range' a n ++ range' (count + 1 - min count seenCap) (min count seenCap) ∧
    count + 2 ≤ a ∧ (n = 0 ∨ n + count = seenCap)

variable {c : Nat} {o : List Nat}

theorem Window.fresh (h : Window c o) : c + 1 ∉ o := by
  obtain ⟨a, n, rfl, ha, -⟩ := h
  simp only [mem_append, mem_range'_1]
  omega

theorem Window.push (h : Window c o) : Window (c + 1) (AgentSeen.pushSeq o (c + 1)) := by
  obtain ⟨a, n, rfl, ha, hn⟩ := h
  have hadd : range' (c + 1 - min c seenCap) (min c seenCap) ++ [c + 1] =
      range' (c + 1 - min c seenCap) (min c seenCap + 1) := by
    rw [range'_1_concat, Nat.sub_add_cancel (by omega)]
  unfold AgentSeen.pushSeq
  rw [length_append, length_range', length_range', append_assoc, hadd]
  rcases lt_or_ge c seenCap with hc | hc
  · rw [min_eq_left hc.le]
    cases n with
    | zero =>
      rw [if_neg (by omega)]
      exact ⟨c + 3, 0, by rw [min_eq_left hc]; simp, by omega, .inl rfl⟩
    | succ n =>
      rw [if_pos (by omega)]
      exact ⟨a + 1, n, by rw [min_eq_left hc]; simp, by omega, by omega⟩
  · obtain rfl : n = 0 := by omega
    rw [min_eq_right hc, if_pos (by omega)]
    refine ⟨c + 3, 0, ?_, by omega, .inl rfl⟩
    rw [min_eq_right (by omega), range'_zero, range'_zero, nil_append, nil_append, range'_succ,
      tail_cons, ← Nat.sub_add_comm (by omega)]

theorem Window.restart (h : Window c o) (hc : seenCap < c) : Window 0 o := by
  obtain ⟨a, n, rfl, ha, hn⟩ := h
  obtain rfl : n = 0 := by omega
  refine ⟨c + 1 - seenCap, seenCap, ?_, by omega, .inr rfl⟩
  rw [min_eq_right hc.le]
  simp

theorem Window.mem (h : Window c o) {k : Nat} (hk : c < k + seenCap) (h1 : 1 ≤ k) (hc : k ≤ c) :
    k ∈ o := by
  obtain ⟨a, n, rfl, -, -⟩ := h
  refine mem_append_right _ (mem_range'_1.mpr ?_)
  omega

/-! ## Series -/

namespace Series

open AgentSeen

structure Inv (s : Series) : Prop where
  window : Window s.count s.seen.seqOrder
  le_max : s.count ≤ s.seen.maxSeq
  le_u64 : s.seen.maxSeq ≤ size - 1

variable {s : Series} {r : Report} {t : AgentSeen}

def Settles (s : Series) (r : Report) : Prop :=
  (s.Recognised r ↔ s.Careful r) ∧ (s.Careful r → (s.step r).Inv)

theorem number_pos : 1 ≤ s.number r :=
  le_min (Nat.succ_pos _) (by decide)

theorem number_le : s.number r ≤ size - 1 :=
  min_le_right _ _

theorem number_cases (s : Series) (r : Report) : s.number r = s.count + 1 ∨
    s.number r ≤ s.count ∧ (s.number r = 1 ∨ s.number r = size - 1) := by
  have h1 : 1 ≤ size - 1 := by decide
  cases hr : r.restarted with
  | false =>
    have hn : s.number r = min (s.count + 1) (size - 1) := by rw [number, hr]; rfl
    omega
  | true =>
    have hn : s.number r = 1 := by rw [number, hr]; exact min_eq_left h1
    omega

section Accepted

variable (ht : s.seen.seenSeq (s.number r) = (t, false))
include ht

theorem recognised_iff_resends : s.Recognised r ↔
    ∀ j < r.resends, (((arrive (s.number r))^[j] t).seenSeq (s.number r)).2 = true := by
  have ha : arrive (s.number r) s.seen = t := congrArg Prod.fst ht
  constructor
  · intro h j hj
    have hs := h (j + 1) hj
    rwa [iterate_succ_apply, ha] at hs
  · rintro h (_ | j) hj
    · exact congrArg Prod.snd ht
    · rw [iterate_succ_apply, ha]
      exact h j hj

theorem seen_step (h : s.Recognised r) :
    (s.step r).seen.seqOrder = t.seqOrder ∧ (s.step r).seen.maxSeq = t.maxSeq := by
  rw [step, iterate_succ_apply, arrive, ht]
  exact iterate_duplicates ((recognised_iff_resends ht).mp h)

theorem Inv.accepted (hw : Window (s.number r) t.seqOrder) (hm : s.number r ≤ t.maxSeq)
    (hu : t.maxSeq ≤ size - 1) (hl : t.lowReplays = 0)
    (hc : s.number r ≤ s.count → s.number r ≠ s.seen.maxSeq)
    (hmax : s.number r < t.maxSeq ↔
      s.number r < s.seen.maxSeq ∧ (s.number r ≤ s.count → seenCap < s.count)) : s.Settles r := by
  have hk : s.number r ∈ t.seqOrder :=
    hw.mem (Nat.lt_add_of_pos_right (by decide)) number_pos le_rfl
  have hiff : s.Recognised r ↔ s.Careful r := by
    rw [recognised_iff_resends ht, duplicates_iff hk hl, hmax, and_imp]
    exact (and_iff_right hc).symm
  refine ⟨hiff, fun h => ?_⟩
  obtain ⟨ho, hx⟩ := seen_step ht (hiff.mpr h)
  exact ⟨ho ▸ hw, hx ▸ hm, hx ▸ hu⟩

end Accepted

theorem Inv.fresh {c : Nat} (h : s.Inv) (hn : s.number r = c + 1) (hw : Window c s.seen.seqOrder)
    (hc : s.number r ≤ s.count → seenCap < s.count ∧ s.number r < s.seen.maxSeq) :
    s.Settles r := by
  have ht : s.seen.seenSeq (s.number r) =
      (⟨pushSeq s.seen.seqOrder (c + 1), max s.seen.maxSeq (c + 1), 0⟩, false) := by
    rw [hn]
    exact if_neg hw.fresh
  refine Inv.accepted ht (hn ▸ hw.push) (hn ▸ le_max_right _ _)
    (max_le h.le_u64 (hn ▸ number_le)) rfl (fun hle => (hc hle).2.ne) ?_
  rw [hn, lt_max_iff, or_iff_left (lt_irrefl _), ← hn]
  exact (and_iff_left fun hle => (hc hle).1).symm

theorem Inv.settles (h : s.Inv) (r : Report) : s.Settles r := by
  have hm := h.le_max
  obtain hn | ⟨hle, hn⟩ := s.number_cases r
  · exact h.fresh hn h.window (by omega)
  by_cases hx : s.number r < s.seen.maxSeq
  · -- Only a restart goes back below the highest number.
    have hn : s.number r = 1 := hn.resolve_right (hx.trans_le h.le_u64).ne
    by_cases hc : s.count ≤ seenCap
    · have h1 : 1 ∈ s.seen.seqOrder := h.window.mem (by omega) le_rfl (hn ▸ hle)
      rw [hn] at hx
      refine @Inv.accepted s r ⟨[1], 1, 0⟩ ?_ ?_ hn.le (by decide) rfl (fun _ => by omega) ?_
      · rw [hn]
        simp [seenSeq, h1, hx, resetSeqCeiling, pushSeq, seenCap]
      · rw [hn]
        exact ⟨3, 0, rfl, le_rfl, .inl rfl⟩
      · dsimp only
        omega
    · exact h.fresh hn (h.window.restart (by omega)) fun _ => ⟨by omega, hx⟩
  · -- The number is the highest and the last one: it is taken for a resend.
    have hcap : 0 < seenCap := by decide
    have hk : s.number r ∈ s.seen.seqOrder := h.window.mem (by omega) number_pos hle
    have hno : ¬ s.Careful r := fun hca => hca.1 hle (by omega)
    refine ⟨iff_of_false (fun hrec => ?_) hno, (absurd · hno)⟩
    have h0 := hrec 0 (Nat.zero_le _)
    simp [seenSeq, hk, hx] at h0

end Series

/-- Each report is accepted once and recognised when it is sent again, exactly when every one is
careful. -/
theorem fresh_reports_accepted_iff (reports : List Report) :
    Runs.Along Series.step Series.Recognised {} reports ↔
      Runs.Along Series.step Series.Careful {} reports :=
  Runs.along_congr Series.Inv (fun _ r h => (h.settles r).1) (fun _ r h => (h.settles r).2)
    ⟨⟨2, 0, rfl, le_rfl, .inl rfl⟩, le_rfl, Nat.zero_le _⟩

/-- The counter is lost after the first report. -/
theorem restart_after_first_lost :
    ¬ Runs.Along Series.step Series.Recognised {} [{}, { restarted := true }] :=
  fun h => absurd (h.2.1 0 le_rfl) (by decide)

end Cyclops.Reports
