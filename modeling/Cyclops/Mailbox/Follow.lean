import Cyclops.Daemon.Emission
import Cyclops.Lib.Paging
import Cyclops.Mailbox.Reads

/-!
# Following a mailbox

A client that asks for the messages after a cursor, page by page, while the daemon goes on.

Result: `follow_lossless`.
-/

namespace Cyclops

open Checked FiniteMap Daemon MailboxProjection List Paging MessagesFollowResult MessageSnapshotRow

variable {p q : MailboxProjection} {caller : RecipientKey}
  {v : List (LedgerLine × MessageMetadata)}
  {routes : Map RecipientKey MessageRecipientRoute}

/-! ## What a client sees of a message -/

def MessageSnapshotRow.ident (row : MessageSnapshotRow) : String × Nat :=
  (row.messageId.text, row.seq)

def messageIdent (message : LedgerLine × MessageMetadata) : String × Nat :=
  (message.1.id, message.1.seq)

theorem RowsOf.map_ident {rows : List MessageSnapshotRow} (h : RowsOf p caller routes rows)
    (hme : ∀ msg, msg ∈ v ↔ Visible p caller msg)
    (ha : v.Pairwise fun a b => a.1.seq < b.1.seq) :
    rows.map ident = v.map messageIdent := by
  have hro : (rows.map ident).Pairwise fun a b => a.2 < b.2 :=
    pairwise_map.mpr h.ascending
  have hv : (v.map messageIdent).Pairwise fun a b => a.2 < b.2 :=
    pairwise_map.mpr ha
  have hs : ∀ i, i ∈ rows.map ident ↔ i ∈ v.map messageIdent := by
    intro i
    simp only [mem_map]
    constructor
    · rintro ⟨row, hr, rfl⟩
      obtain ⟨line, metadata, hl, hof⟩ := h.each row hr
      exact ⟨(line, metadata), (hme _).mpr hl, Prod.ext hof.id.symm hof.seq.symm⟩
    · rintro ⟨msg, hm, rfl⟩
      obtain ⟨row, hr, hof⟩ := h.every msg.1 msg.2 ((hme _).mp hm)
      exact ⟨row, hr, Prod.ext hof.id hof.seq⟩
  exact eq_of_ascending hro hv hs

/-! ## One page -/

def MessagesFollowResult.page (result : MessagesFollowResult) : Paging.Page (String × Nat) where
  rows := result.rows.map ident
  through := result.throughSeq
  hasMore := result.hasMore

def cursorAfter (after : Nat) (pages : List MessagesFollowResult) : Nat :=
  (pages.getLast?.map throughSeq).getD after

theorem cursorAfter_eq (a : Nat) (pages : List MessagesFollowResult) :
    cursorAfter a pages = through a (pages.map page) := by
  rw [cursorAfter, through, getLast?_map, Option.map_map]
  rfl

theorem rows_eq (pages : List MessagesFollowResult) :
    (pages.flatMap rows).map ident = (pages.map MessagesFollowResult.page).flatMap Page.rows := by
  rw [flatMap_map, map_flatMap]
  rfl

variable [DigestScheme] {workspaceId : WorkspaceId}

theorem messagesFollow_page (hp : Reachable workspaceId p) (hc : caller.workspaceId = workspaceId)
    {a : Nat} (haf : a ≤ p.head) (l : Nat)
    (hv : p.visibleMessages caller = .ok v) :
    ∃ r, p.messagesFollow caller a l routes = .ok r ∧ r.afterSeq = a ∧
      r.page = page Prod.snd l a p.head (v.map messageIdent) := by
  obtain ⟨v', hv', hm, ha⟩ := hp.coherent.visibleMessages caller
  cases hv.symm.trans hv'
  obtain ⟨rows, hr, hre⟩ :=
    hp.coherent.messagesSnapshot (hc.trans hp.workspaceId_eq.symm) routes
  obtain ⟨s, hs, hseq, -, hse, ht, -⟩ := hre untrimmed
  have hu : s.rows = rows := by
    rw [ht, hse]
    exact hr.trimSettled_untrimmed hp
  refine ⟨_, bind_eq_ok.mpr ⟨s, hs, bind_eq_ok.mpr ⟨(), ?_, rfl⟩⟩, rfl, ?_⟩
  · rw [refuseIf_eq_ok, hseq, not_lt]
    exact haf
  · rw [← hr.map_ident hm ha, page_map, ← hseq]
    simp only [hu]
    rfl

theorem Advances.partOf (hp : Reachable workspaceId p) (h : Advances p q)
    {v v' : List (LedgerLine × MessageMetadata)}
    (hvi : p.visibleMessages caller = .ok v)
    (hv' : q.visibleMessages caller = .ok v') :
    PartOf Prod.snd (v'.map messageIdent) (v.map messageIdent, p.head) := by
  obtain ⟨_, hr, hmem, ha⟩ := hp.coherent.visibleMessages caller
  cases hvi.symm.trans hr
  obtain ⟨_, hr', hm', -⟩ := (h.reachable hp).coherent.visibleMessages caller
  cases hv'.symm.trans hr'
  refine ⟨pairwise_map.mpr ha, fun i => ?_⟩
  simp only [mem_map]
  constructor
  · rintro ⟨msg, hme, rfl⟩
    obtain ⟨⟨m, hm⟩, hda, hv⟩ := (hmem msg).mp hme
    exact ⟨⟨msg, (hm' msg).mpr ⟨⟨m, h.message hp hm⟩, hda, hv⟩, rfl⟩, (hp.coherent.numbered hm).2⟩
  · rintro ⟨⟨msg, hme, rfl⟩, hle⟩
    obtain ⟨⟨m, hm⟩, hda, hv⟩ := (hm' msg).mp hme
    refine ⟨msg, (hmem msg).mpr ⟨⟨m, ?_⟩, hda, hv⟩, rfl⟩
    rcases h.message_cases hp hm with hold | hn
    · exact hold
    · exact absurd hle (not_le.mpr hn)

/-! ## A walk -/

/-- What happens before a client asks for its next page: operations of the daemon,
and the routes of the moment. -/
structure Turn where
  ops : List Operation
  routes : Map RecipientKey MessageRecipientRoute

namespace Daemon

/-- The pages of a client that asks again with each page's `throughSeq`. -/
def follow (d : Daemon) (caller : RecipientKey) (limit : Nat) :
    Nat → List Turn → Except MailboxError (List MessagesFollowResult)
  | _, [] => .ok []
  | after, turn :: rest => do
    let page ← (d.run turn.ops).store.projection.messagesFollow caller after limit turn.routes
    let pages ← (d.run turn.ops).follow caller limit page.throughSeq rest
    return page :: pages

def moments (d : Daemon) : List Turn → List Daemon
  | [] => []
  | turn :: rest => d.run turn.ops :: (d.run turn.ops).moments rest

def afterTurns (d : Daemon) (turns : List Turn) : Daemon :=
  d.run (turns.flatMap Turn.ops)

def source (caller : RecipientKey) (d : Daemon) : List (String × Nat) × Nat :=
  (match d.store.projection.visibleMessages caller with
    | .ok visible => visible.map messageIdent
    | .error _ => [], d.store.projection.head)

variable {d : Daemon}

omit [DigestScheme] in
theorem source_eq (hv : d.store.projection.visibleMessages caller = .ok v) :
    d.source caller = (v.map messageIdent, d.store.projection.head) := by
  rw [source, hv]

theorem afterTurns_cons (turn : Turn) (rest : List Turn) :
    d.afterTurns (turn :: rest) = (d.run turn.ops).afterTurns rest := by
  simp [afterTurns, run]

theorem moments_spec (h : d.store.Sound Emits workspaceId) (t : List Turn) :
    (∀ m ∈ d.moments t, m.store.Sound Emits workspaceId ∧
      Advances d.store.projection m.store.projection ∧
      Advances m.store.projection (d.afterTurns t).store.projection) ∧
    (d.moments t).Pairwise fun a b => Advances a.store.projection b.store.projection := by
  induction t generalizing d with
  | nil => exact ⟨fun _ h => absurd h not_mem_nil, .nil⟩
  | cons turn rest ih =>
    obtain ⟨hs, ha⟩ := run_advances h turn.ops
    obtain ⟨hmo, hp⟩ := ih hs
    have hl := (run_advances hs (rest.flatMap Turn.ops)).2
    rw [afterTurns_cons]
    refine ⟨forall_mem_cons.mpr ⟨⟨hs, ha, hl⟩, fun m hm => ?_⟩,
      pairwise_cons.mpr ⟨fun m hm => (hmo m hm).2.1, hp⟩⟩
    obtain ⟨hm, hf, he⟩ := hmo m hm
    exact ⟨hm, ha.trans hf, he⟩

theorem moments_quiet {t : List Turn} (h : ∀ turn ∈ t, turn.ops = []) :
    d.moments t = replicate t.length d := by
  induction t with
  | nil => rfl
  | cons turn rest ih =>
    obtain ⟨ht, hr⟩ := forall_mem_cons.mp h
    rw [moments, ht, length_cons, replicate_succ]
    exact congrArg (d :: ·) (ih hr)

/-- A page that announces no more has come to the head of this moment. -/
def ReachesHead (page : MessagesFollowResult) (moment : Daemon) : Prop :=
  page.hasMore = false → page.throughSeq = moment.store.projection.head

theorem follow_eq_walk (h : d.store.Sound Emits workspaceId)
    (hca : caller.workspaceId = workspaceId) {l aft : Nat} (hl : 0 < l)
    (haf : aft ≤ d.store.projection.head) (t : List Turn) :
    ∃ pages, d.follow caller l aft t = .ok pages ∧ pages.map MessagesFollowResult.page =
        walk Prod.snd l aft ((d.moments t).map (source caller)) ∧
      (∀ page ∈ pages, page.hasMore = true → page.afterSeq < page.throughSeq) ∧
      Forall₂ ReachesHead pages (d.moments t) := by
  induction t generalizing d aft with
  | nil => exact ⟨[], rfl, rfl, fun _ h => absurd h not_mem_nil, .nil⟩
  | cons turn rest ih =>
    obtain ⟨hs, had⟩ := run_advances h turn.ops
    have hr := hs.reachable
    have hcu := haf.trans (had.head_le h.reachable)
    obtain ⟨v, hv, -⟩ := hr.coherent.visibleMessages caller
    obtain ⟨page, hpage, hf, hsa⟩ :=
      @messagesFollow_page _ caller _ turn.routes _ _ hr hca aft hcu l hv
    have hpa := (Advances.refl _).partOf hr hv hv
    have hc := page_spec hpa.ascending (fun a ha => ((hpa.mem a).mp ha).2) hcu hl
    rw [← hsa] at hc
    obtain ⟨pages, hpag, hw, hp, hlast⟩ := ih hs hc.upper
    refine ⟨page :: pages, ?_, ?_, forall_mem_cons.mpr ⟨fun hm => ?_, hp⟩, .cons hc.last hlast⟩
    · exact bind_eq_ok.mpr ⟨page, hpage, bind_eq_ok.mpr ⟨pages, hpag, rfl⟩⟩
    · rw [map_cons, hw, moments, map_cons, source_eq hv, walk, ← hsa]
    · rw [hf]
      exact hc.progress hm

theorem cursorAfter_of_last {pages : List MessagesFollowResult} {t : List Turn}
    (h : Forall₂ ReachesHead pages (d.moments t)) (a : Nat) {page : MessagesFollowResult}
    (hlast : pages.getLast? = some page) (hm : page.hasMore = false) :
    cursorAfter a pages = (d.afterTurns t).store.projection.head := by
  rw [cursorAfter, hlast]
  change page.throughSeq = _
  induction t generalizing d pages with
  | nil =>
    cases h
    cases hlast
  | cons turn rest ih =>
    rw [moments] at h
    rw [afterTurns_cons]
    cases h with
    | @cons _ _ pages _ first later =>
      cases pages with
      | nil =>
        cases hlast
        cases rest with
        | nil => exact first hm
        | cons => cases later
      | cons => exact ih later (getLast?_cons_cons ▸ hlast)

theorem follow_foreign (h : d.store.Sound Emits workspaceId)
    (hc : caller.workspaceId ≠ workspaceId) (l a : Nat) (turn : Turn)
    (rest : List Turn) :
    d.follow caller l a (turn :: rest) =
      .error (.workspaceMismatch workspaceId caller.workspaceId) := by
  have hw := (run_advances h turn.ops).1.reachable.workspaceId_eq
  have hr : (d.run turn.ops).store.projection.checkWorkspace caller.workspaceId =
      .error (.workspaceMismatch workspaceId caller.workspaceId) := by
    rw [checkWorkspace, hw, refuseIf, if_pos hc]
  rw [follow, messagesFollow, messagesSnapshot, hr]
  rfl

end Daemon

/-- A client that follows its mailbox page by page gets the visible messages between its cursors
once and in order, and comes to a page that announces no more. -/
theorem follow_lossless (workspaceId : WorkspaceId) (bootId : String) (ops : List Operation)
    (caller : RecipientKey) (limit after : Nat) (turns : List Turn) :
    let d := (Daemon.start workspaceId bootId).run ops
    1 ≤ limit → limit ≤ 256 → after ≤ d.store.projection.head →
    (caller.workspaceId ≠ workspaceId → turns ≠ [] → d.follow caller limit after turns =
      .error (.workspaceMismatch workspaceId caller.workspaceId)) ∧
    (caller.workspaceId = workspaceId → ∃ pages visible,
      d.follow caller limit after turns = .ok pages ∧
      (d.afterTurns turns).store.projection.visibleMessages caller = .ok visible ∧
      (pages.flatMap rows).map ident = (visible.filter fun message => after < message.1.seq ∧
          message.1.seq ≤ cursorAfter after pages).map messageIdent ∧
      ((pages.flatMap rows).Pairwise fun a b => a.seq < b.seq) ∧
      cursorAfter after pages ≤ (d.afterTurns turns).store.projection.head ∧
      (∀ page ∈ pages, page.hasMore = true → page.afterSeq < page.throughSeq) ∧
      Forall₂ (fun page moment => page.hasMore = false →
        page.throughSeq = moment.store.projection.head) pages (d.moments turns) ∧
      (∀ page, pages.getLast? = some page → page.hasMore = false →
        (pages.flatMap rows).map ident =
          (visible.filter fun message => after < message.1.seq).map messageIdent) ∧
      ((∀ turn ∈ turns, turn.ops = []) → d.store.projection.head - after < turns.length →
        ∃ page ∈ pages, page.hasMore = false)) := by
  intro d hl _ haf
  have hso : d.store.Sound Emits workspaceId := sound_run workspaceId bootId ops
  refine ⟨fun hc ht => ?_, fun hc => ?_⟩
  · obtain ⟨turn, rest, rfl⟩ := exists_cons_of_ne_nil ht
    exact follow_foreign hso hc limit after turn rest
  obtain ⟨pages, hpag, hw, hpr, hreach⟩ := follow_eq_walk hso hc hl haf turns
  obtain ⟨hmo, hp⟩ := moments_spec hso turns
  obtain ⟨hla, he⟩ := run_advances hso (turns.flatMap Turn.ops)
  obtain ⟨visible, hv, hvis, has⟩ := hla.reachable.coherent.visibleMessages caller
  have hparts : ∀ source ∈ (d.moments turns).map (Daemon.source caller),
      PartOf Prod.snd (visible.map messageIdent) source := by
    intro source hs
    obtain ⟨m, hm, rfl⟩ := mem_map.mp hs
    obtain ⟨hm, -, hf⟩ := hmo m hm
    obtain ⟨v', hv', -⟩ := hm.reachable.coherent.visibleMessages caller
    rw [source_eq hv']
    exact hf.partOf hm.reachable hv' hv
  have hh : ((d.moments turns).map (source caller)).Pairwise fun s t => s.2 ≤ t.2 :=
    pairwise_map.mpr (hp.imp_of_mem fun hmem _ had =>
      had.head_le (hmo _ hmem).1.reachable)
  have hcu : ∀ source ∈ (d.moments turns).map (Daemon.source caller), after ≤ source.2 := by
    intro source hs
    obtain ⟨m, hm, rfl⟩ := mem_map.mp hs
    exact haf.trans ((hmo m hm).2.1.head_le hso.reachable)
  obtain ⟨hr, hmem, -, hu⟩ := walk_spec hl hparts hh hcu
  rw [← hw, ← rows_eq] at hr
  simp only [← hw, ← rows_eq, ← cursorAfter_eq] at hmem hu
  have hrows : (pages.flatMap rows).map ident =
      (visible.filter fun message => after < message.1.seq ∧
        message.1.seq ≤ cursorAfter after pages).map messageIdent := by
    refine eq_of_ascending hr (pairwise_map.mpr (has.filter _)) fun i => ?_
    rw [hmem]
    simp only [mem_map, mem_filter, decide_eq_true_iff]
    constructor
    · rintro ⟨⟨message, hme, rfl⟩, hb⟩
      exact ⟨message, ⟨hme, hb⟩, rfl⟩
    · rintro ⟨message, ⟨hme, hb⟩, rfl⟩
      exact ⟨⟨message, hme, rfl⟩, hb⟩
  refine ⟨pages, visible, hpag, hv, hrows, ?_, ?_, hpr, hreach, fun page hlast hm => ?_, ?_⟩
  · rw [pairwise_map] at hr
    exact hr
  · refine hu _ (fun source hs => ?_) (haf.trans (he.head_le hso.reachable))
    obtain ⟨m, hm, rfl⟩ := mem_map.mp hs
    obtain ⟨hm, -, hf⟩ := hmo m hm
    exact hf.head_le hm.reachable
  · -- The cursor is at the head, which bounds every sequence number.
    rw [hrows, cursorAfter_of_last hreach after hlast hm]
    refine congrArg _ (filter_congr fun message hme => ?_)
    obtain ⟨⟨m, hnum⟩, -⟩ := (hvis message).mp hme
    rw [decide_eq_decide]
    exact and_iff_left (hla.reachable.coherent.numbered hnum).2
  · intro hq hlo
    obtain ⟨v', hv', -⟩ := hso.reachable.coherent.visibleMessages caller
    have hpar := (Advances.refl _).partOf hso.reachable hv' hv'
    have hsou : (d.moments turns).map (source caller) =
        replicate turns.length (v'.map messageIdent, d.store.projection.head) := by
      rw [moments_quiet hq, map_replicate, source_eq hv']
    rw [hsou] at hw
    obtain ⟨page, hpa, hdo⟩ := walk_ends hl (fun source hs => eq_of_mem_replicate hs) hpar.ascending
      (fun a ha => ((hpar.mem a).mp ha).2) haf (by rwa [length_replicate])
    rw [← hw] at hpa
    obtain ⟨r, hre, rfl⟩ := mem_map.mp hpa
    exact ⟨r, hre, hdo⟩

/-- Two pages of one message each, with a claim between them. -/
def sampleTurns : List Turn :=
  [⟨[], ∅⟩, ⟨[.claim sampleWorker.key sampleMessage ⟨6, .written⟩], ∅⟩]

def MessagesFollowResult.summary (page : MessagesFollowResult) : List Nat × Nat × Bool :=
  (page.rows.map seq, page.throughSeq, page.hasMore)

omit [DigestScheme] in
theorem sample_follow :
    letI := constantDigests
    let d := (start sampleWorkspace "boot").run sampleOps
    ∃ pages visible, d.follow sampleWorker.key 1 0 sampleTurns = .ok pages ∧
      pages.map summary = [([1], 1, true), ([2], 6, false)] ∧
      (d.afterTurns sampleTurns).store.projection.visibleMessages sampleWorker.key = .ok visible ∧
      (pages.flatMap rows).map ident =
        (visible.filter fun message => 0 < message.1.seq).map messageIdent := by
  obtain ⟨-, hw⟩ := @follow_lossless constantDigests sampleWorkspace "boot" sampleOps
    sampleWorker.key 1 0 sampleTurns le_rfl (by decide) (Nat.zero_le _)
  obtain ⟨pages, visible, hpages, hvisible, -, -, -, -, -, hlast, -⟩ := hw rfl
  refine ⟨pages, visible, hpages, ?_⟩
  have hrun : some [([1], 1, true), ([2], 6, false)] = some (pages.map summary) :=
    Eq.trans (by decide +kernel) (congrArg (fun run => run.toOption.map (List.map summary)) hpages)
  have hsummary := (Option.some.inj hrun).symm
  obtain ⟨last, hl, hmore⟩ : ∃ last, pages.getLast? = some last ∧ last.hasMore = false := by
    have := congrArg List.getLast? hsummary
    rw [getLast?_map] at this
    obtain ⟨last, hl, hs⟩ := Option.map_eq_some_iff.mp this
    exact ⟨last, hl, congrArg (·.2.2) hs⟩
  exact ⟨hsummary, hvisible, hlast last hl hmore⟩

end Cyclops
