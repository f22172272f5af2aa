import Mathlib.Data.List.Sort
import Mathlib.Data.List.Infix

/-!
# Cursor paging

A list in ascending order of a numeric key, read page by page while it grows. A page holds the
items after a cursor, up to a limit; a full page moves the cursor to its last item, the last page
moves it to the head of the list.
-/

namespace Paging

open List Option

variable {α β : Type}

structure Page (α : Type) where
  rows : List α
  through : Nat
  hasMore : Bool

/-- The page after a cursor of a list whose keys go up to `head`. -/
def page (key : α → Nat) (limit after head : Nat) (items : List α) : Page α :=
  let taken := (items.filter fun a => after < key a).take (limit + 1)
  let hasMore := limit < taken.length
  let rows := if hasMore then taken.dropLast else taken
  { rows
    through := if hasMore then (rows.getLast?.map key).getD after else head
    hasMore }

/-- What a page of these items holds. -/
structure Covers (key : α → Nat) (after head : Nat) (items : List α) (page : Page α) : Prop where
  mem : ∀ a, a ∈ page.rows ↔ a ∈ items ∧ after < key a ∧ key a ≤ page.through
  ascending : page.rows.Pairwise fun a b => key a < key b
  lower : after ≤ page.through
  upper : page.through ≤ head
  progress : page.hasMore = true → after < page.through
  last : page.hasMore = false → page.through = head

variable {key : α → Nat} {l after head : Nat} {items : List α}

theorem eq_of_ascending {i' : List α} (ha : items.Pairwise fun a b => key a < key b)
    (ha' : i'.Pairwise fun a b => key a < key b) (h : ∀ a, a ∈ items ↔ a ∈ i') :
    items = i' := by
  have hn {l : List α} (hl : l.Pairwise fun a b => key a < key b) : l.Nodup :=
    hl.imp fun hlt heq => (heq ▸ hlt).ne rfl
  have hp := (perm_ext_iff_of_nodup (hn ha) (hn ha')).mpr h
  exact hp.eq_of_pairwise (fun a b _ _ hab hba => absurd hab hba.asymm) ha ha'

theorem dropLast_take_succ (h : l < items.length) :
    (items.take (l + 1)).dropLast = items.take l := by
  rw [dropLast_eq_take, take_take, length_take]
  congr 1
  omega

theorem page_spec (has : items.Pairwise fun a b => key a < key b)
    (hb : ∀ a ∈ items, key a ≤ head) (haf : after ≤ head) (hli : 0 < l) :
    Covers key after head items (page key l after head items) := by
  let r := items.filter fun a => after < key a
  have hme : ∀ a, a ∈ r ↔ a ∈ items ∧ after < key a := by
    intro a
    rw [mem_filter, decide_eq_true_iff]
  have hso : r.Pairwise fun a b => key a < key b := has.filter _
  by_cases hm : l < r.length
  · -- The page is cut off after its last item, and the rest lies behind that.
    have ht : l < (r.take (l + 1)).length := by
      rw [length_take]
      omega
    have hne : r.take l ≠ [] := by
      rw [ne_eq, take_eq_nil_iff]
      rintro (h | h)
      · omega
      · rw [h] at hm
        exact absurd hm (Nat.not_lt_zero _)
    obtain ⟨f, z, hcu⟩ : ∃ f z, r.take l = f ++ [z] :=
      ⟨_, _, (dropLast_append_getLast hne).symm⟩
    have hp : page key l after head items = ⟨f ++ [z], key z, true⟩ := by
      simp only [page, show items.filter (fun a => after < key a) = r from rfl, ht,
        if_true, dropLast_take_succ hm, hcu, getLast?_concat, map_some,
        getD_some, decide_true]
    have hs : r = (f ++ [z]) ++ r.drop l := by
      rw [← hcu, take_append_drop]
    rw [hs, pairwise_append] at hso
    obtain ⟨hf, -, hc⟩ := hso
    have hl : ∀ a ∈ f ++ [z], key a ≤ key z := by
      intro a ha
      rcases mem_append.mp ha with ha | ha
      · exact ((pairwise_append.mp hf).2.2 a ha z (mem_singleton.mpr rfl)).le
      · rw [mem_singleton.mp ha]
    have hz : z ∈ items ∧ after < key z := by
      rw [← hme, hs]
      simp
    rw [hp]
    refine ⟨fun a => ?_, hf, hz.2.le, hb z hz.1, fun _ => hz.2, fun h => (nomatch h)⟩
    rw [← and_assoc, ← hme]
    constructor
    · intro ha
      exact ⟨hs ▸ mem_append_left _ ha, hl a ha⟩
    · rintro ⟨ha, hle⟩
      rw [hs] at ha
      rcases mem_append.mp ha with ha | ha
      · exact ha
      · exact absurd (hc z (by simp) a ha) (not_lt.mpr hle)
  · have ht : r.take (l + 1) = r := take_of_length_le (by omega)
    have hp : page key l after head items = ⟨r, head, false⟩ := by
      simp only [page, show items.filter (fun a => after < key a) = r from rfl, ht,
        hm, if_false, decide_false]
    rw [hp]
    refine ⟨fun a => ?_, hso, haf, le_rfl, fun h => (nomatch h), fun _ => rfl⟩
    rw [hme, and_assoc.symm]
    exact ⟨fun ha => ⟨ha, hb a ha.1⟩, .left⟩

theorem page_map (f : β → α) (items : List β) : page key l after head (items.map f) =
      { rows := (page (key ∘ f) l after head items).rows.map f
        through := (page (key ∘ f) l after head items).through
        hasMore := (page (key ∘ f) l after head items).hasMore } := by
  have ht : ((items.map f).filter fun a => after < key a).take (l + 1) =
      ((items.filter fun b => after < (key ∘ f) b).take (l + 1)).map f := by
    rw [List.filter_map, map_take]
    rfl
  simp only [page, ht]
  generalize (items.filter fun b => after < (key ∘ f) b).take (l + 1) = taken
  rw [length_map]
  split <;> simp [← map_dropLast]

/-! ## Walks -/

/-- The pages of a client that goes on from each page's cursor. -/
def walk (key : α → Nat) (limit : Nat) : Nat → List (List α × Nat) → List (Page α)
  | _, [] => []
  | after, (items, head) :: rest =>
    let page := page key limit after head items
    page :: walk key limit page.through rest

def through (after : Nat) (pages : List (Page α)) : Nat :=
  (pages.getLast?.map Page.through).getD after

theorem through_cons (after : Nat) (first : Page α) (rest : List (Page α)) :
    through after (first :: rest) = through first.through rest := by
  unfold through
  cases rest with
  | nil => rfl
  | cons => rw [getLast?_cons_cons, getLast?_cons, map_some, getD_some, getD_some]

/-- The list of a moment is the part of a later list up to its head. -/
structure PartOf (key : α → Nat) (final : List α) (source : List α × Nat) : Prop where
  ascending : source.1.Pairwise fun a b => key a < key b
  mem : ∀ a, a ∈ source.1 ↔ a ∈ final ∧ key a ≤ source.2

theorem walk_spec {f : List α} {sources : List (List α × Nat)} (hli : 0 < l)
    (hp : ∀ source ∈ sources, PartOf key f source)
    (heads : sources.Pairwise fun s t => s.2 ≤ t.2) (haf : ∀ source ∈ sources, after ≤ source.2) :
    let p := walk key l after sources
    let rows := p.flatMap Page.rows
    (rows.Pairwise fun a b => key a < key b) ∧
      (∀ a, a ∈ rows ↔ a ∈ f ∧ after < key a ∧ key a ≤ through after p) ∧
      after ≤ through after p ∧
      (∀ head, (∀ source ∈ sources, source.2 ≤ head) → after ≤ head → through after p ≤ head) := by
  induction sources generalizing after with
  | nil =>
    refine ⟨.nil, fun a => ⟨fun h => absurd h not_mem_nil, fun ⟨_, hlt, hle⟩ => ?_⟩, le_rfl,
      fun _ _ h => h⟩
    exact absurd hlt (not_lt.mpr hle)
  | cons source rest ih =>
    obtain ⟨hs, hr⟩ := forall_mem_cons.mp hp
    obtain ⟨hla, hh⟩ := pairwise_cons.mp heads
    have hc := page_spec hs.ascending (fun a ha => ((hs.mem a).mp ha).2)
      (haf source mem_cons_self) hli
    have hcu : ∀ next ∈ rest, (page key l after source.2 source.1).through ≤ next.2 :=
      fun next hn => hc.upper.trans (hla next hn)
    obtain ⟨has, hm, hl, hu⟩ := ih hr hh hcu
    simp only [walk, flatMap_cons, through_cons]
    refine ⟨pairwise_append.mpr ⟨hc.ascending, has, fun a ha b hb => ?_⟩,
      fun a => ?_, hc.lower.trans hl, fun head hle _ => ?_⟩
    · exact lt_of_le_of_lt ((hc.mem a).mp ha).2.2 ((hm b).mp hb).2.1
    · have hfi := hc.lower
      have hup := hc.upper
      rw [mem_append, hc.mem, hm, hs.mem]
      constructor
      · rintro (⟨⟨hf, -⟩, hlt, hle⟩ | ⟨hf, hlt, hle⟩)
        · exact ⟨hf, hlt, hle.trans hl⟩
        · exact ⟨hf, lt_of_le_of_lt hfi hlt, hle⟩
      · rintro ⟨hf, hlt, hle⟩
        rcases le_or_gt (key a) (page key l after source.2 source.1).through with hin | ho
        · exact .inl ⟨⟨hf, hin.trans hup⟩, hlt, hin⟩
        · exact .inr ⟨hf, ho, hle⟩
    · obtain ⟨hhe, hh'⟩ := forall_mem_cons.mp hle
      exact hu head hh' (hc.upper.trans hhe)

/-- A walk over a list that stays as it is comes to its last page. -/
theorem walk_ends {s : List (List α × Nat)} (hl : 0 < l) (hs : ∀ source ∈ s, source = (items, head))
    (has : items.Pairwise fun a b => key a < key b) (hb : ∀ a ∈ items, key a ≤ head)
    (ha : after ≤ head) (hlo : head - after < s.length) :
    ∃ page ∈ walk key l after s, page.hasMore = false := by
  induction s generalizing after with
  | nil => exact absurd hlo (Nat.not_lt_zero _)
  | cons source rest ih =>
    obtain ⟨rfl, hr⟩ := forall_mem_cons.mp hs
    have hc := page_spec has hb ha hl
    cases hm : (page key l after head items).hasMore with
    | false => exact ⟨_, mem_cons_self, hm⟩
    | true =>
      have hp := hc.progress hm
      have hu := hc.upper
      rw [length_cons] at hlo
      obtain ⟨last, hla, hdo⟩ := ih hr hc.upper (by omega)
      exact ⟨last, mem_cons_of_mem _ hla, hdo⟩

end Paging
