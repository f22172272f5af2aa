import Cyclops.Identity.Ancestry
import Cyclops.Lib.Trail

/-!
# Caller identity

What the answers of the walks say about the process table.

Result: `caller_origin`.
-/

namespace Cyclops.Identity

open Trails ProcessTable Observe List ProcId

variable {world : Nat → ProcessTable} {t t' : Nat}

/-! ## Reads -/

variable {α : Type} {m : Observe α} {a : α} {β : Type}

theorem Observe.bind_apply (m : Observe α) (f : α → Observe β) (world : Nat → ProcessTable)
    (t : Nat) :
    (m >>= f) world t = f (m world t).1 world (m world t).2 :=
  rfl

theorem Observe.bind_eq {f : α → Observe β} {b : β} (h : (m >>= f) world t = (b, t')) :
    ∃ a s, m world t = (a, s) ∧ f a world s = (b, t') :=
  ⟨_, _, rfl, h⟩

def Advances {α : Type} (m : Observe α) : Prop :=
  ∀ world t, t ≤ (m world t).2

theorem Advances.pure (a : α) : Advances (pure a : Observe α) :=
  fun _ _ => le_rfl

theorem Advances.read (f : ProcessTable → α) : Advances (read f) :=
  fun _ _ => Nat.le_succ _

theorem Advances.bind {f : α → Observe β} (hm : Advances m) (hf : ∀ a, Advances (f a)) :
    Advances (m >>= f) :=
  fun world t => (hm world t).trans (hf _ world _)

theorem Advances.le (hm : Advances m) {s : Nat} (h : m world t = (a, s)) : t ≤ s := by
  simpa [h] using hm world t

def ReadIn {α : Type} (world : Nat → ProcessTable) (t t' : Nat) (m : Observe α) (a : α) : Prop :=
  ∃ s s', t ≤ s ∧ s' ≤ t' ∧ m world s = (a, s')

theorem ReadIn.mono (h : ReadIn world t t' m a) {u u' : Nat} (hu : u ≤ t) (hu' : t' ≤ u') :
    ReadIn world u u' m a := by
  obtain ⟨s, s', hs, hs', heq⟩ := h
  exact ⟨s, s', hu.trans hs, hs'.trans hu', heq⟩

def ReadTwice {α : Type} (world : Nat → ProcessTable) (t t' : Nat) (m : Observe α) (a : α) : Prop :=
  ∃ between, ReadIn world t between m a ∧ ReadIn world between t' m a

/-! ## What an answer says -/

section Sound

variable {iv : ProcId → Observe Vendorship}
  {parent : ProcId → Observe (Option OriginParent)} {i : ProcId → Observe Bool}
  {path : List ProcId} (hparent : ∀ p, Advances (parent p))

include hparent

theorem linksAreCurrent_sound (h : linksAreCurrent parent path world t = (true, t')) :
    t ≤ t' ∧ path.IsChain fun a b => ReadIn world t t' (parent a) (some (.process b)) := by
  induction path generalizing t with
  | nil =>
    cases h
    exact ⟨le_rfl, .nil⟩
  | cons a path ih =>
    cases path with
    | nil =>
      cases h
      exact ⟨le_rfl, .singleton a⟩
    | cons =>
      obtain ⟨found, s, hr, h⟩ := bind_eq h
      split at h
      · next hf =>
        obtain ⟨ha, hl⟩ := ih h
        have hb := (hparent a).le hr
        rw [hf] at hr
        exact ⟨hb.trans ha, .cons_cons ⟨t, s, le_rfl, ha, hr⟩
          (hl.imp fun _ _ hli => hli.mono hb le_rfl)⟩
      · cases h

variable (hlive : ∀ p, Advances (i p))

include hlive

theorem pathIsCurrent_sound (h : pathIsCurrent parent i path world t = (true, t')) :
    t ≤ t' ∧ path.IsChain fun a b => ReadIn world t t' (parent a) (some (.process b)) := by
  cases path with
  | nil => cases h
  | cons first =>
    obtain ⟨live, s, hr, h⟩ := bind_eq h
    split at h
    · obtain ⟨ha, hl⟩ := linksAreCurrent_sound hparent h
      have hb := (hlive first).le hr
      exact ⟨hb.trans ha, hl.imp fun _ _ hli => hli.mono hb le_rfl⟩
    · cases h

theorem pathIsCurrentToTop_sound (h : pathIsCurrentToTop parent i path world t = (true, t')) :
    t ≤ t' ∧ (path.IsChain fun a b => ReadIn world t t' (parent a) (some (.process b))) ∧
      ∃ last, path.getLast? = some last ∧ ReadIn world t t' (parent last) (some .top) := by
  obtain ⟨c, s, hc, h⟩ := bind_eq h
  split at h
  · next ht =>
    rw [ht] at hc
    obtain ⟨hb, hli⟩ := pathIsCurrent_sound hparent hlive hc
    cases hl : path.getLast? with
    | none =>
      rw [hl] at h
      cases h
    | some last =>
      rw [hl] at h
      obtain ⟨found, s', hr, h⟩ := bind_eq h
      obtain ⟨hto, rfl⟩ := Prod.mk.inj h
      rw [beq_iff_eq.mp hto] at hr
      have ha := (hparent last).le hr
      exact ⟨hb.trans ha, hli.imp fun _ _ hlin => hlin.mono le_rfl ha, last,
        rfl, s, s', hb, le_rfl, hr⟩
  · cases h

omit hlive

variable (hvendor : ∀ p, Advances (iv p))

include hvendor

/-- The path behind the operator's answer: read once up to a moment, and then again. -/
theorem originWalk_admin {panes : List PaneRow} {hops : Nat} {c : ProcId}
    {seen : List ProcId} {vendorBelow : Bool}
    (h : originWalk iv parent i panes hops c seen vendorBelow world t = (.admin, t')) :
    vendorBelow = false ∧ ∃ path u, t ≤ u ∧ path.head? = some c ∧
      (path.IsChain fun a b => ReadIn world t u (parent a) (some (.process b))) ∧
      (∃ last, path.getLast? = some last ∧ ReadIn world t u (parent last) (some .top)) ∧
      (∀ p ∈ path, ReadIn world t u (iv p) .notVendor) ∧
      pathIsCurrentToTop parent i (seen ++ path) world u = (true, t') := by
  induction hops generalizing c seen vendorBelow t with
  | zero => cases h
  | succ hops ih =>
    rw [originWalk] at h
    split at h
    · cases h
    cases hf : panes.find? (·.root = c) with
    | some =>
      -- a pane is not the operator
      simp only [hf] at h
      obtain ⟨kind, t₁, -, h⟩ := bind_eq h
      split at h
      · cases h
      · obtain ⟨again, t₂, -, h⟩ := bind_eq h
        split at h <;> cases h
    | none =>
      simp only [hf] at h
      obtain ⟨kind, t₁, hkind, h⟩ := bind_eq h
      have ha := (hvendor c).le hkind
      split at h
      · cases h
      rename_i hreadable
      have hpl : (kind == .vendor || vendorBelow) = false → kind = .notVendor ∧
          vendorBelow = false := by
        cases kind with
        | vendor => exact nofun
        | notVendor => exact fun hb => ⟨rfl, hb⟩
        | unprovable => exact absurd rfl hreadable
      obtain ⟨found, t₂, hr, h⟩ := bind_eq h
      have hc := (hparent c).le hr
      split at h
      · obtain ⟨hb, path, u, hu, hh, hl, ⟨last, hla, hto⟩, hk, hag⟩ := ih h
        obtain ⟨hno, hn⟩ := hpl hb
        obtain ⟨rest, rfl⟩ := head?_eq_some_iff.mp hh
        have hs := ha.trans hc
        refine ⟨hn, c :: _ :: rest, u, hs.trans hu, rfl,
          .cons_cons ⟨t₁, t₂, ha, hu, hr⟩ (hl.imp fun _ _ hab => hab.mono hs le_rfl),
          ⟨last, hla, hto.mono hs le_rfl⟩, fun p hp => ?_, by simpa using hag⟩
        rcases mem_cons.mp hp with rfl | hp
        · exact ⟨t, t₁, le_rfl, hc.trans hu, hno ▸ hkind⟩
        · exact (hk p hp).mono hs le_rfl
      · split at h
        · cases h
        rename_i hb
        obtain ⟨hno, hn⟩ := hpl (by simpa using hb)
        obtain ⟨again, t₃, hag, h⟩ := bind_eq h
        split at h
        · next ht =>
          cases h
          rw [ht] at hag
          refine ⟨hn, [c], t₂, ha.trans hc, rfl, .singleton _,
            ⟨c, rfl, t₁, t₂, ha, le_rfl, hr⟩, fun p hp => ?_, hag⟩
          cases mem_singleton.mp hp
          exact ⟨t, t₁, le_rfl, hc, hno ▸ hkind⟩
        · cases h
      · cases h

end Sound


/-! ## Chains of a table -/

namespace ProcessTable

variable (table : ProcessTable) (daemonUid : Nat)

def procId (pid : Int) : Option ProcId :=
  if pid > 0 then (table.birthOf pid).map (⟨pid, ·⟩) else none

def Link (child parent : ProcId) : Prop :=
  table.procId child.pid = some child ∧
    ∃ ppid, table.parentOf child.pid = some ppid ∧ 1 < ppid ∧ table.procId ppid = some parent

/-- Its parent is process 1, the kernel, or an unidentified process of another user. -/
def AtTop (process : ProcId) : Prop :=
  table.procId process.pid = some process ∧
    ∃ ppid, table.parentOf process.pid = some ppid ∧
      (ppid ≤ 1 ∨ table.procId ppid = none ∧
        ∃ uid, table.foreignOwner ppid = some uid ∧ uid ≠ daemonUid)

/-- A chain of identified processes from a peer upwards. -/
structure Chain (pid : Int) (path : List ProcId) : Prop where
  peer : ∃ start, table.procId pid = some start ∧ path.head? = some start
  links : path.IsChain table.Link

def originParent (child : ProcId) : Option OriginParent :=
  if table.procId child.pid ≠ some child then none
  else
    match table.parentOf child.pid with
    | none => none
    | some ppid =>
      if ppid ≤ 1 then some .top
      else
        match table.procId ppid with
        | some parent => some (.process parent)
        | none =>
          match table.foreignOwner ppid with
          | some uid => if uid ≠ daemonUid then some .top else none
          | none => none

variable {table daemonUid}

theorem of_steady (pid : Int) (t : Nat) : (of pid (fun _ => table) t).1 = table.procId pid := by
  unfold of procId
  split
  · simp only [bind_apply, Observe.read]
    cases table.birthOf pid <;> rfl
  · rfl

theorem originParentIdent_steady (c : ProcId) (t : Nat) :
    (originParentIdent daemonUid c (fun _ => table) t).1 = table.originParent daemonUid c := by
  unfold originParentIdent originParent
  simp only [bind_apply, of_steady]
  split
  · rfl
  · next hc =>
    simp only [bind_apply, Observe.read]
    cases table.parentOf c.pid with
    | none => rfl
    | some ppid =>
      simp only [bind_apply, of_steady]
      rw [if_neg hc]
      split
      · rfl
      · simp only [bind_apply, of_steady]
        cases table.procId ppid with
        | some => rfl
        | none =>
          simp only [bind_apply, Observe.read]
          cases table.foreignOwner ppid with
          | none => rfl
          | some => rfl

theorem originParent_spec (c : ProcId) :
    (∀ parent, table.originParent daemonUid c = some (.process parent) ↔ table.Link c parent) ∧
    (table.originParent daemonUid c = some .top ↔ table.AtTop daemonUid c) := by
  unfold originParent Link AtTop
  by_cases hc : table.procId c.pid = some c
  · cases hp : table.parentOf c.pid with
    | none => simp
    | some ppid =>
      by_cases ht : ppid ≤ 1
      · simp [ht]
      · cases hparent : table.procId ppid with
        | some =>
          simp [ht, hparent]
          omega
        | none =>
          cases ho : table.foreignOwner ppid with
          | none => simp [hparent, ho]
          | some uid => by_cases hu : uid = daemonUid <;>
              simp [hparent, hu, ho]
  · simp [hc]

theorem originParent_eq_process {c parent : ProcId} :
    table.originParent daemonUid c = some (.process parent) ↔ table.Link c parent :=
  (originParent_spec c).1 parent

theorem procId_eq_some {pid : Int} {p : ProcId} (h : table.procId pid = some p) :
    p.pid = pid ∧ 0 < pid ∧ table.birthOf pid = some p.birth := by
  unfold procId at h
  split at h
  · next hp =>
    obtain ⟨b, hb, rfl⟩ := Option.map_eq_some_iff.mp h
    exact ⟨rfl, hp, hb⟩
  · cases h

theorem Link.pos {c parent : ProcId} (h : table.Link c parent) : 0 < parent.pid := by
  obtain ⟨-, ppid, -, -, hparent⟩ := h
  obtain ⟨hp, hpo, -⟩ := procId_eq_some hparent
  exact hp ▸ hpo

def climb (table : ProcessTable) (daemonUid : Nat) (panes : List PaneRow) (process : ProcId) :
    Option ProcId :=
  if ∃ pane ∈ panes, pane.root = process then none
  else
    match table.originParent daemonUid process with
    | some (.process parent) => some parent
    | _ => none

variable {ps : List PaneRow} {process s last : ProcId} {f : List ProcId}

theorem climb_eq_some {parent : ProcId} : table.climb daemonUid ps process = some parent ↔
    (¬ ∃ pane ∈ ps, pane.root = process) ∧ table.Link process parent := by
  rw [← @originParent_eq_process table daemonUid]
  unfold climb
  split
  · next hr => simp [hr]
  · next ho =>
    split
    · next hparent => simp [ho, hparent]
    · next hot => simpa [ho] using hot parent

theorem climb_of_root (hr : ∃ pane ∈ ps, pane.root = process) :
    table.climb daemonUid ps process = none :=
  if_pos hr

theorem climb_of_top (ht : table.AtTop daemonUid process) :
    table.climb daemonUid ps process = none := by
  unfold climb
  split
  · rfl
  · rw [(originParent_spec _).2.mpr ht]

/-- The trail of a process: linked, and outside the panes up to its last process. -/
theorem trail_climb_iff : Trail (table.climb daemonUid ps) s (f ++ [last]) ↔
    (f ++ [last]).head? = some s ∧ (f ++ [last]).IsChain table.Link ∧
      (∀ p ∈ f, ¬ ∃ pane ∈ ps, pane.root = p) ∧
      table.climb daemonUid ps last = none := by
  induction f generalizing s with
  | nil =>
    constructor
    · rintro (⟨hla⟩ | ⟨-, hr⟩)
      · exact ⟨rfl, .singleton _, nofun, hla⟩
      · cases hr
    · rintro ⟨hh, -, -, hla⟩
      cases hh
      exact .last hla
  | cons p f ih =>
    obtain ⟨next, rest, hr⟩ := exists_cons_of_ne_nil (concat_ne_nil last f)
    rw [cons_append]
    constructor
    · intro h
      rw [hr] at h
      cases h with
      | step hs h =>
        obtain ⟨ho, hli⟩ := climb_eq_some.mp hs
        obtain ⟨hh, hl, hf, hla⟩ := ih.mp (hr ▸ h)
        rw [hr] at hh hl ⊢
        cases hh
        exact ⟨rfl, .cons_cons hli hl, forall_mem_cons.mpr ⟨ho, hf⟩, hla⟩
    · rintro ⟨hh, hl, hf, hla⟩
      cases hh
      rw [hr] at hl
      obtain ⟨hli, hl⟩ := isChain_cons_cons.mp hl
      rw [← hr] at hl
      refine .step (climb_eq_some.mpr ⟨hf p mem_cons_self, hli⟩) (ih.mpr ?_)
      exact ⟨by rw [hr]; rfl, hl, fun q hq => hf q (mem_cons_of_mem _ hq), hla⟩

end ProcessTable

/-! ## A table that does not change -/

section Steady

variable {table : ProcessTable} {d : Nat} {ps : List PaneRow} {path seen : List ProcId}
  {process : ProcId} {hops : Nat} {v : Bool}

theorem linksAreCurrent_steady (hl : path.IsChain table.Link) (t : Nat) :
    (linksAreCurrent (originParentIdent d) path (fun _ => table) t).1 = true := by
  induction hl generalizing t with
  | nil => rfl
  | singleton => rfl
  | cons_cons hli _ ih =>
    simp only [linksAreCurrent, bind_apply, originParentIdent_steady]
    rw [if_pos (originParent_eq_process.mpr hli)]
    exact ih _

def Named (table : ProcessTable) (path : List ProcId) : Prop :=
  ∃ first, path.head? = some first ∧ table.procId first.pid = some first

theorem pathIsCurrent_steady (hn : Named table path) (hl : path.IsChain table.Link) (t : Nat) :
    (pathIsCurrent (originParentIdent d) stillLive path (fun _ => table) t).1 =
      true := by
  obtain ⟨first, hh, hf⟩ := hn
  obtain ⟨rest, rfl⟩ := head?_eq_some_iff.mp hh
  have hlive : (first.stillLive (fun _ => table) t).1 = true :=
    beq_iff_eq.mpr (procId_eq_some hf).2.2
  simp only [pathIsCurrent, bind_apply]
  rw [if_pos hlive]
  exact linksAreCurrent_steady hl _

theorem pathIsCurrentToTop_steady {last : ProcId} (hn : Named table path)
    (hl : path.IsChain table.Link) (hla : path.getLast? = some last)
    (ht : table.originParent d last = some .top) (t : Nat) :
    (pathIsCurrentToTop (originParentIdent d) stillLive path (fun _ => table) t).1 = true := by
  simp only [pathIsCurrentToTop, bind_apply]
  rw [if_pos (pathIsCurrent_steady hn hl t), hla]
  exact beq_iff_eq.mpr ((originParentIdent_steady last _).trans ht)

def ProcessTable.answer (table : ProcessTable) (daemonUid : Nat) (panes : List PaneRow)
    (path : List ProcId) (vendorBelow : Bool) : PeerOrigin :=
  let below := path.any (fun p => table.vendorship p.pid == .vendor) || vendorBelow
  if path.any fun p => table.vendorship p.pid == .unprovable then .unprovable
  else
    match path.getLast?, path.getLast?.bind fun last => panes.find? (·.root = last) with
    | some _, some pane => .pane pane.paneId pane.label pane.root below
    | some last, none =>
      if table.originParent daemonUid last = some .top ∧ below = false then .admin
      else .unprovable
    | none, _ => .unprovable

section

variable {kind : Vendorship} (hkind : table.vendorship process.pid = kind)

include hkind

theorem answer_unreadable (hu : kind = .unprovable) :
    table.answer d ps (process :: path) v = .unprovable := by
  simp [answer, hkind, hu]

variable (hreadable : kind ≠ .unprovable)

include hreadable

theorem answer_cons {next : ProcId} {rest : List ProcId} :
    table.answer d ps (next :: rest) (kind == .vendor || v) =
      table.answer d ps (process :: next :: rest) v := by
  simp only [answer, any_cons, hkind, beq_eq_false_iff_ne.mpr hreadable,
    Bool.false_or, getLast?_cons_cons, Bool.or_assoc, Bool.or_left_comm]

theorem answer_root {pane : PaneRow} (hf : ps.find? (·.root = process) = some pane) :
    table.answer d ps [process] v =
      .pane pane.paneId pane.label pane.root (kind == .vendor || v) := by
  simp [answer, hkind, hreadable, hf]

theorem answer_outside (hf : ps.find? (·.root = process) = none) : table.answer d ps [process] v =
      if table.originParent d process = some .top ∧ (kind == .vendor || v) = false
      then .admin
      else .unprovable := by
  simp [answer, hkind, hreadable, hf]

end

theorem find?_root_eq_none :
    ps.find? (·.root = process) = none ↔ ¬ ∃ pane ∈ ps, pane.root = process := by
  simp

theorem originWalk_steady (hpos : 0 < process.pid) (hnamed : Named table (seen ++ [process]))
    (hlinks : (seen ++ [process]).IsChain table.Link) (t : Nat) :
    (originWalk isVendorNow (originParentIdent d) stillLive ps hops process seen
        v (fun _ => table) t).1 =
      match walk (table.climb d ps) hops process seen with
      | none => .unprovable
      | some path => table.answer d ps path v := by
  induction hops generalizing process seen v t with
  | zero => rfl
  | succ hops ih =>
    rw [originWalk, walk]
    by_cases hseen : process ∈ seen
    · rw [if_pos (.inr hseen), if_pos hseen]
      rfl
    rw [if_neg (by simp [hseen, hpos]), if_neg hseen]
    cases hkind : table.vendorship process.pid with
    | unprovable =>
      -- neither side answers for a path that begins here
      trans .unprovable
      · cases ps.find? (·.root = process) <;>
          simp only [bind_apply, isVendorNow, Observe.read, hkind] <;> rfl
      · cases table.climb d ps process with
        | none => exact (answer_unreadable hkind rfl).symm
        | some next =>
          dsimp only
          cases walk (table.climb d ps) hops next (seen ++ [process]) with
          | none => rfl
          | some => exact (answer_unreadable hkind rfl).symm
    | vendor | notVendor =>
      cases hfind : ps.find? (·.root = process) with
      | some pane =>
        have hroot : ∃ pane ∈ ps, pane.root = process :=
          ⟨pane, mem_of_find?_eq_some hfind, by simpa using find?_some hfind⟩
        simp only [climb_of_root hroot, answer_root hkind (by simp) hfind, bind_apply,
          isVendorNow, Observe.read, hkind]
        rw [if_pos (pathIsCurrent_steady hnamed hlinks _)]
        rfl
      | none =>
        have houtside := find?_root_eq_none.mp hfind
        simp only [bind_apply, isVendorNow, Observe.read, hkind, originParentIdent_steady]
        cases hparent : table.originParent d process with
        | none =>
          have hclimb : table.climb d ps process = none := by
            simp [climb, hparent]
          simp only [hclimb, answer_outside hkind (by simp) hfind, hparent]
          rfl
        | some above =>
          cases above with
          | top =>
            have htop := pathIsCurrentToTop_steady hnamed hlinks getLast?_concat hparent
            simp only [climb_of_top ((originParent_spec _).2.mp hparent),
              answer_outside hkind (by simp) hfind, hparent]
            split
            · next hbelow =>
              rw [if_neg (by simp [hbelow])]
              rfl
            · next hbelow =>
              simp only [bind_apply]
              rw [if_pos (htop _), if_pos ⟨trivial, (Bool.not_eq_true _).mp hbelow⟩]
              rfl
          | process next =>
            have hlink := originParent_eq_process.mp hparent
            simp only [climb_eq_some.mpr ⟨houtside, hlink⟩]
            obtain ⟨first, hhead, hfirst⟩ := hnamed
            have hnamed' : Named table (seen ++ [process] ++ [next]) :=
              ⟨first, by rw [head?_append, hhead]; rfl, hfirst⟩
            have hlinks' : (seen ++ [process] ++ [next]).IsChain table.Link :=
              hlinks.append (.singleton _) fun p hp q hq => by simp_all
            trans
            · exact ih hlink.pos hnamed' hlinks' _
            cases hwalk : walk (table.climb d ps) hops next (seen ++ [process]) with
            | none => rfl
            | some path =>
              obtain ⟨rest, rfl⟩ := walk_head hwalk
              exact answer_cons hkind (by simp)

end Steady

/-! ## Who a peer is taken for -/

section Peer

variable {table : ProcessTable} {daemonUid : Nat} {pid : Int} {panes : List PaneRow}
  {f : List ProcId} {last process : ProcId}

theorem ProcId.of_advances (pid : Int) : Advances (of pid) := by
  unfold of
  split
  · refine .bind (.read _) fun b => ?_
    split <;> exact .pure _
  · exact .pure _

theorem ProcId.stillLive_advances (process : ProcId) : Advances process.stillLive :=
  .bind (.read _) fun _ => .pure _

theorem originParentIdent_advances (c : ProcId) : Advances (originParentIdent daemonUid c) := by
  unfold originParentIdent
  refine .bind (of_advances _) fun _ => ?_
  split
  · exact .pure _
  refine .bind (.read _) fun _ => ?_
  split
  · exact .pure _
  refine .bind (of_advances _) fun _ => ?_
  split
  · exact .pure _
  split
  · exact .pure _
  refine .bind (of_advances _) fun _ => ?_
  split
  · exact .pure _
  refine .bind (.read _) fun _ => ?_
  split <;> exact .pure _

theorem isVendorNow_advances (process : ProcId) : Advances (isVendorNow process) :=
  .read _

/-- The chain of the operator: to the top, read through, without a vendor, outside
every pane. -/
structure ProcessTable.OperatorChain (table : ProcessTable) (daemonUid : Nat)
    (panes : List PaneRow) (pid : Int) (path : List ProcId) : Prop where
  chain : table.Chain pid path
  short : path.length ≤ maxAncestryDepth
  top : ∃ last, path.getLast? = some last ∧ table.AtTop daemonUid last
  plain : ∀ p ∈ path, table.vendorship p.pid = .notVendor
  outside : ∀ p ∈ path, ¬ ∃ pane ∈ panes, pane.root = p

/-- The chain of a pane: read through up to its root, the first pane root on it. -/
structure ProcessTable.PaneChain (table : ProcessTable) (panes : List PaneRow) (pid : Int)
    (below : List ProcId) (pane : PaneRow) : Prop where
  chain : table.Chain pid (below ++ [pane.root])
  short : (below ++ [pane.root]).length ≤ maxAncestryDepth
  readable : ∀ p ∈ below ++ [pane.root], table.vendorship p.pid ≠ .unprovable
  outside : ∀ p ∈ below, ¬ ∃ other ∈ panes, other.root = p
  first : panes.find? (·.root = pane.root) = some pane

theorem origin_eq_iff {o : PeerOrigin} (hp : o ≠ .unprovable) (t : Nat) :
    (resolvePeerOriginObserved daemonUid pid panes (fun _ => table) t).1 = o ↔
      ∃ f last, table.Chain pid (f ++ [last]) ∧ (∀ p ∈ f, ¬ ∃ pane ∈ panes, pane.root = p) ∧
        table.climb daemonUid panes last = none ∧ (f ++ [last]).length ≤ maxAncestryDepth ∧
        table.answer daemonUid panes (f ++ [last]) false = o := by
  simp only [resolvePeerOriginObserved, bind_apply, of_steady]
  cases hs : table.procId pid with
  | none =>
    refine ⟨fun h => absurd h.symm hp, fun ⟨_, _, ⟨⟨_, hpe, _⟩, _⟩, _⟩ => ?_⟩
    cases hs.symm.trans hpe
  | some start =>
    obtain ⟨hpi, hpo, -⟩ := procId_eq_some hs
    dsimp only [resolvePeerOriginWith]
    rw [originWalk_steady (hpi ▸ hpo) ⟨start, rfl, hpi ▸ hs⟩ (.singleton _)]
    constructor
    · intro h
      cases hw : walk (table.climb daemonUid panes) maxAncestryDepth start [] with
      | none =>
        rw [hw] at h
        exact absurd h.symm hp
      | some path =>
        rw [hw] at h
        obtain ⟨ht, hsh, -⟩ := walk_eq_some.mp hw
        rcases eq_nil_or_concat' path with rfl | ⟨f, last, rfl⟩
        · cases ht
        · obtain ⟨hh, hl, ho, hla⟩ := trail_climb_iff.mp ht
          exact ⟨f, last, ⟨⟨start, hs, hh⟩, hl⟩, ho, hla, hsh, h⟩
    · rintro ⟨f, last, ⟨⟨s', hpe, hh⟩, hl⟩, ho, hla, hsh, h⟩
      cases hs.symm.trans hpe
      have ht := trail_climb_iff.mpr ⟨hh, hl, ho, hla⟩
      rw [walk_eq_some.mpr ⟨ht, hsh, fun _ _ => not_mem_nil⟩]
      exact h

theorem answer_concat : table.answer daemonUid panes (f ++ [last]) false =
    if ∃ p ∈ f ++ [last], table.vendorship p.pid = .unprovable then .unprovable
    else
      match panes.find? (·.root = last) with
      | some pane => .pane pane.paneId pane.label pane.root
          (decide (∃ p ∈ f ++ [last], table.vendorship p.pid = .vendor))
      | none =>
        if table.originParent daemonUid last = some .top ∧
          ¬ ∃ p ∈ f ++ [last], table.vendorship p.pid = .vendor
        then .admin
        else .unprovable := by
  simp only [answer, getLast?_concat, Option.bind_some, Bool.or_false, any_eq_true,
    beq_iff_eq, ← Bool.not_eq_true]
  cases panes.find? (·.root = last) with
  | none => rfl
  | some pane => simp only [any_eq, beq_iff_eq]

theorem answer_eq_admin : table.answer daemonUid panes (f ++ [last]) false = .admin ↔
    (∀ p ∈ f ++ [last], table.vendorship p.pid = .notVendor) ∧
      (¬ ∃ pane ∈ panes, pane.root = last) ∧ table.AtTop daemonUid last := by
  have hp : (∀ p ∈ f ++ [last], table.vendorship p.pid = .notVendor) ↔
      (¬ ∃ p ∈ f ++ [last], table.vendorship p.pid = .unprovable) ∧
        ¬ ∃ p ∈ f ++ [last], table.vendorship p.pid = .vendor := by
    push Not
    rw [← forall₂_and]
    refine forall₂_congr fun p _ => ?_
    cases table.vendorship p.pid <;> simp
  rw [answer_concat, hp, ← find?_root_eq_none, ← (originParent_spec last).2]
  split
  · next hu => exact iff_of_false nofun fun h => h.1.1 hu
  · next hreadable =>
    cases panes.find? (·.root = last) with
    | none =>
      dsimp only
      constructor
      · intro h
        split at h
        · next ha => exact ⟨⟨hreadable, ha.2⟩, rfl, ha.1⟩
        · cases h
      · rintro ⟨⟨-, hvendor⟩, -, ht⟩
        exact if_pos ⟨ht, hvendor⟩
    | some => exact iff_of_false nofun fun h => nomatch h.2.1

theorem answer_eq_pane {pane : PaneRow} {vb : Bool} :
    table.answer daemonUid panes (f ++ [last]) false = .pane pane.paneId pane.label pane.root vb ↔
      (∀ p ∈ f ++ [last], table.vendorship p.pid ≠ .unprovable) ∧
      last = pane.root ∧ panes.find? (·.root = pane.root) = some pane ∧
      (vb = true ↔ ∃ p ∈ f ++ [last], table.vendorship p.pid = .vendor) := by
  rw [answer_concat]
  split
  · next hu =>
    obtain ⟨p, hp, h⟩ := hu
    exact iff_of_false nofun fun ha => ha.1 p hp h
  · next hreadable =>
    cases hf : panes.find? (·.root = last) with
    | none =>
      refine iff_of_false (fun h => ?_) fun ⟨_, hla, hfi, _⟩ => ?_
      · dsimp only at h
        split at h <;> cases h
      · cases (hla ▸ hf).symm.trans hfi
    | some first =>
      have hr : first.root = last := by simpa using find?_some hf
      constructor
      · intro h
        obtain ⟨hid, hl, hs, rfl⟩ := PeerOrigin.pane.inj h
        obtain rfl : first = pane := by
          cases first
          cases pane
          exact PaneRow.mk.injEq .. ▸ ⟨hid, hl, hs⟩
        exact ⟨fun p hp hkind => hreadable ⟨p, hp, hkind⟩, hr.symm, hr ▸ hf, decide_eq_true_iff⟩
      · rintro ⟨-, rfl, hfi, hb⟩
        cases hf.symm.trans hfi
        rw [Bool.eq_iff_iff.mpr (hb.trans decide_eq_true_iff.symm)]

theorem answer_of_vendor (ho : ¬ ∃ pane ∈ panes, pane.root = last)
    (hvendor : ∃ p ∈ f ++ [last], table.vendorship p.pid = .vendor) :
    table.answer daemonUid panes (f ++ [last]) false = .unprovable := by
  rw [answer_concat, find?_root_eq_none.mpr ho]
  split
  · rfl
  · exact if_neg fun h => h.2 hvendor

theorem origin_admin_iff (t : Nat) :
    (resolvePeerOriginObserved daemonUid pid panes (fun _ => table) t).1 = .admin ↔
      ∃ path, table.OperatorChain daemonUid panes pid path := by
  rw [origin_eq_iff PeerOrigin.noConfusion]
  constructor
  · rintro ⟨f, last, hc, ho, -, hs, ha⟩
    obtain ⟨hp, hl, ht⟩ := answer_eq_admin.mp ha
    exact ⟨_, hc, hs, ⟨last, getLast?_concat, ht⟩, hp,
      forall_mem_append.mpr ⟨ho, forall_mem_singleton.mpr hl⟩⟩
  · rintro ⟨path, hc, hs, ⟨last, hl, ht⟩, hp, ho⟩
    obtain ⟨f, rfl⟩ := getLast?_eq_some_iff.mp hl
    obtain ⟨hf, hou⟩ := forall_mem_append.mp ho
    exact ⟨f, last, hc, hf, climb_of_top ht, hs,
      answer_eq_admin.mpr ⟨hp, hou last mem_cons_self, ht⟩⟩

theorem origin_pane_iff (t : Nat) (pane : PaneRow) (vb : Bool) :
    (resolvePeerOriginObserved daemonUid pid panes (fun _ => table) t).1 =
        .pane pane.paneId pane.label pane.root vb ↔
      ∃ b, table.PaneChain panes pid b pane ∧
        (vb = true ↔ ∃ p ∈ b ++ [pane.root], table.vendorship p.pid = .vendor) := by
  rw [origin_eq_iff PeerOrigin.noConfusion]
  constructor
  · rintro ⟨f, last, hc, ho, -, hs, ha⟩
    obtain ⟨hreadable, rfl, hf, hb⟩ := answer_eq_pane.mp ha
    exact ⟨f, ⟨hc, hs, hreadable, ho, hf⟩, hb⟩
  · rintro ⟨b, ⟨hc, hs, hreadable, ho, hf⟩, hb⟩
    have hr : ∃ o ∈ panes, o.root = pane.root := ⟨pane, mem_of_find?_eq_some hf, rfl⟩
    exact ⟨b, pane.root, hc, ho, climb_of_root hr, hs, answer_eq_pane.mpr ⟨hreadable, rfl, hf, hb⟩⟩

theorem headlessWalk_vendor {hops : Nat} {seen : List ProcId} {n : Option ProcId}
    {root : ProcId} {t : Nat}
    (h : (headlessWalk isVendorNow (originParentIdent daemonUid) stillLive
      (panes.map fun pane => (pane.paneId, pane.root)) hops process seen n
      (fun _ => table) t).1 = .vendor root) :
    ∃ f last, Trail (table.climb daemonUid panes) process (f ++ [last]) ∧
      (¬ ∃ pane ∈ panes, pane.root = last) ∧
      (n = none → ∃ p ∈ f ++ [last], table.vendorship p.pid = .vendor) := by
  induction hops generalizing process seen n t with
  | zero => cases h
  | succ hops ih =>
    rw [headlessWalk] at h
    split at h
    · cases h
    cases hf : (panes.map fun pane => (pane.paneId, pane.root)).find? (·.2 = process) with
    | some =>
      simp only [hf] at h
      cases h
    | none =>
      have ho : ¬ ∃ pane ∈ panes, pane.root = process := by simpa using hf
      simp only [hf, bind_apply, isVendorNow, Observe.read] at h
      cases hkind : table.vendorship process.pid with
      | unprovable =>
        simp only [hkind] at h
        cases h
      | vendor | notVendor =>
        simp only [hkind, bind_apply, originParentIdent_steady] at h
        cases hparent : table.originParent daemonUid process with
        | none =>
          simp only [hparent] at h
          cases h
        | some above =>
          cases above with
          | top =>
            refine ⟨[], process, .last (climb_of_top ((originParent_spec _).2.mp hparent)), ho, ?_⟩
            rintro rfl
            simp only [hparent, bind_apply] at h
            split at h
            · first | exact ⟨process, mem_singleton_self _, hkind⟩ | cases h
            · cases h
          | process next =>
            simp only [hparent] at h
            have hli := originParent_eq_process.mp hparent
            obtain ⟨f, last, ht, hl, hvendor⟩ := ih h
            refine ⟨process :: f, last, .step (climb_eq_some.mpr ⟨ho, hli⟩) ht, hl, ?_⟩
            rintro rfl
            first
              | exact ⟨process, mem_cons_self, hkind⟩
              | exact (hvendor rfl).imp fun p hp => ⟨mem_cons_of_mem _ hp.1, hp.2⟩

theorem headless_origin {root : ProcId} (t s : Nat)
    (h : (headlessRoot daemonUid pid (panes.map fun pane => (pane.paneId, pane.root))
      (fun _ => table) s).1 = .vendor root) :
    (resolvePeerOriginObserved daemonUid pid panes (fun _ => table) t).1 = .unprovable := by
  by_contra hp
  obtain ⟨f, last, ⟨⟨start, hs, hh⟩, hl⟩, ho, hla, -, ha⟩ :=
    (origin_eq_iff hp t).mp rfl
  have ht := trail_climb_iff.mpr ⟨hh, hl, ho, hla⟩
  simp only [headlessRoot, bind_apply, of_steady, hs] at h
  obtain ⟨f', last', ht', hou, hvendor⟩ := headlessWalk_vendor h
  obtain ⟨-, hsa⟩ := append_inj' (ht.unique ht') rfl
  cases hsa
  rw [ht.unique ht', answer_of_vendor hou (hvendor rfl)] at ha
  exact hp ha.symm

/-- On a steady table a peer is the operator or in a pane exactly by its chain; on any other the
operator is answered only for a path read twice with no vendor on it. -/
theorem caller_origin (daemonUid : Nat) (pid : Int) (panes : List PaneRow) :
    (∀ table t,
      let origin := (resolvePeerOriginObserved daemonUid pid panes (fun _ => table) t).1
      (origin = .admin ↔ ∃ path, table.OperatorChain daemonUid panes pid path) ∧
      (∀ pane vendorBelow, origin = .pane pane.paneId pane.label pane.root vendorBelow ↔
        ∃ below, table.PaneChain panes pid below pane ∧
          (vendorBelow = true ↔
            ∃ p ∈ below ++ [pane.root], table.vendorship p.pid = .vendor)) ∧
      ∀ s root, (headlessRoot daemonUid pid (panes.map fun pane => (pane.paneId, pane.root))
          (fun _ => table) s).1 = .vendor root →
        origin ≠ .admin ∧ ∀ paneId label paneRoot vendorBelow,
          origin ≠ .pane paneId label paneRoot vendorBelow) ∧
    ∀ world t t', resolvePeerOriginObserved daemonUid pid panes world t = (.admin, t') →
      ∃ (start : ProcId) (path : List ProcId),
        ReadIn world t t' (ProcId.of pid) (some start) ∧ path.head? = some start ∧
        (path.IsChain fun a b =>
          ReadTwice world t t' (originParentIdent daemonUid a) (some (.process b))) ∧
        (∃ last, path.getLast? = some last ∧
          ReadTwice world t t' (originParentIdent daemonUid last) (some .top)) ∧
        ∀ p ∈ path, ReadIn world t t' (isVendorNow p) .notVendor := by
  refine ⟨fun table t => ⟨origin_admin_iff t, origin_pane_iff t, fun s root h => ?_⟩,
    fun world t t' h => ?_⟩
  · rw [headless_origin t s h]
    exact ⟨nofun, nofun⟩
  · obtain ⟨found, u, hs, h⟩ := bind_eq h
    cases found with
    | none => cases h
    | some start =>
      obtain ⟨-, path, between, hu, hh, hli, ⟨last, hl, ht⟩, hk, ha⟩ :=
        originWalk_admin originParentIdent_advances isVendorNow_advances h
      obtain ⟨hbe, hl', last', hla', ht'⟩ :=
        pathIsCurrentToTop_sound originParentIdent_advances stillLive_advances ha
      have hb : t ≤ u := (of_advances pid).le hs
      cases hl.symm.trans hla'
      refine ⟨start, path, ⟨t, u, le_rfl, hu.trans hbe, hs⟩, hh,
        (isChain_and hli hl').imp fun a b hab =>
          ⟨between, hab.1.mono hb le_rfl, hab.2⟩,
        ⟨last, hl, between, ht.mono hb le_rfl, ht'⟩,
        fun p hp => (hk p hp).mono hb hbe⟩

def sampleTable : ProcessTable where
  birthOf := fun pid => if pid = 10 ∨ pid = 20 ∨ pid = 30 ∨ pid = 31 then some 7 else none
  parentOf := fun pid => if pid = 20 then some 10 else if pid = 31 then some 30 else some 1
  foreignOwner := fun _ => none
  vendorship := fun pid => if pid = 30 then .vendor else .notVendor

example : (resolvePeerOriginObserved 0 31 [⟨"%1", none, ⟨30, 7⟩⟩] (fun _ => sampleTable) 0).1 =
    .pane "%1" none ⟨30, 7⟩ true := by
  decide

example : (headlessRoot 0 31 [] (fun _ => sampleTable) 0).1 = .vendor ⟨30, 7⟩ := by
  decide

end Peer

end Cyclops.Identity
