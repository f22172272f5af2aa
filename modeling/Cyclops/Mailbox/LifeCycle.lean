import Cyclops.Daemon.Idempotency
import Cyclops.Mailbox.Recovery

/-!
# The life of an entry and of a thread

An entry appears pending and is settled once: claimed by its recipient, delivered directly, or
superseded.

Results: `entry_life_cycle`, `threads_flat`.
-/

namespace Cyclops

open Checked FiniteMap MailboxProjection PreparedMutation Function Board MessageStore

variable {p q : MailboxProjection} {line : LedgerLine} {key : EntryKey}

/-! ## One mutation -/

def PreparedMutation.claimedKey : PreparedMutation → Option EntryKey
  | .claim messageId recipient _ _ => some (recipient, messageId)
  | _ => none

theorem PreparedMutation.lookup_sequenced {m : PreparedMutation} {c : Map EntryKey Nat} :
    (m.sequenced line c).lookup key =
      if m.claimedKey = some key then some line.seq else c.lookup key := by
  cases m <;> simp [sequenced, claimedKey, eq_comm]

/-- How one row changes the state of an entry. -/
inductive EntryStep (m : PreparedMutation) (key : EntryKey) :
    Option MailboxEntryState → Option MailboxEntryState → Prop
  | kept {state : Option MailboxEntryState} : EntryStep m key state state
  | filed : EntryStep m key none (some .pending)
  | claimed {at_ : Nat} (row : m.claimedKey = some key) :
      EntryStep m key (some .pending) (some (.claimed key.1 at_))
  | deliveredDirect {attemptId : NotificationAttemptId} {at_ : Nat} :
      EntryStep m key (some .pending) (some (.deliveredDirect attemptId at_))
  | superseded {by_ : MessageId} {at_ : Nat} :
      EntryStep m key (some .pending) (some (.superseded by_ at_))

theorem entryStep_settle {m : PreparedMutation} {r : RecipientKey} {id : MessageId}
    {s : MailboxEntryState} (hp : p.entryIsPending r id = true)
    (hs : EntryStep m (r, id) (some .pending) (some s)) :
    EntryStep m key (p.board.entry key) (update p.board.entry (r, id) (some s) key) := by
  by_cases hk : key = (r, id)
  · subst hk
    rw [update_self, board_entry_pending.mpr hp]
    exact hs
  · rw [update_of_ne hk]
    exact .kept

theorem entry_claim {m : MessageId} {k c : RecipientKey}
    {u : Option NotificationProjectionUpdate} {b : Board} :
    (((claim m k c u).actions line).foldl act b).entry =
      Function.update b.entry (k, m) (some (.claimed c line.ts)) := by
  cases u <;> simp [actions, act, hold]

/-! ## What stays -/

variable {r : RecipientKey} {m mid : MessageId} {metadata : MessageMetadata}

structure Keeps (p q : MailboxProjection) : Prop where
  message : ∀ m row, p.messages.lookup m = some row → q.messages.lookup m = some row
  settled : ∀ key state, p.board.entry key = some state → state ≠ .pending →
    q.board.entry key = some state

structure Taken (p : MailboxProjection) (r : RecipientKey) (m : MessageId)
    (message : InboxMessage) : Prop where
  claimed : p.board.Claimed (r, m)
  reads : ∃ row, p.messages.lookup m = some row ∧ inboxMessage row r = .ok message

theorem Keeps.taken (h : Keeps p q) {msg : InboxMessage}
    (ht : Taken p r m msg) : Taken q r m msg := by
  obtain ⟨⟨at_, he⟩, row, hr, hm⟩ := ht
  exact ⟨⟨at_, h.settled _ _ he nofun⟩, row, h.message m row hr, hm⟩

theorem Taken.claimAt {st : MessageStore}
    {message : InboxMessage} (h : Taken st.projection r m message) (ts now : Nat) :
    ∃ e c, st.claimAt r m ts now = .ok (.answer (.alreadyClaimed e message none c)) := by
  obtain ⟨⟨at_, he⟩, row, hr, hm⟩ := h
  obtain ⟨e, he, hs⟩ := Option.map_eq_some_iff.mp he
  refine ⟨e, st.consumedDoorbellAttempt e.recipient m, ?_⟩
  have hl : st.projection.getMessage m = some row := hr
  simp only [MessageStore.claimAt, bind_eq_ok, liftMailbox_eq_ok, orRefuse_eq_ok]
  refine ⟨e, he, row, hl, message, hm, ?_⟩
  simp [hs]

def Stores (p : MailboxProjection) (m : MessageId) (row : LedgerLine)
    (metadata : MessageMetadata) : Prop :=
  p.messages.lookup m = some row ∧ row.data = some (.metadata metadata)

def InThread (p : MailboxProjection) (m root : MessageId) : Prop :=
  ∃ row metadata, Stores p m row metadata ∧ metadata.threadRoot = root

structure Threaded (p : MailboxProjection) (m : MessageId) (row : LedgerLine)
    (metadata : MessageMetadata) : Prop where
  /-- The root is no later, and the root of its own thread. -/
  root : ∃ first root, Stores p metadata.threadRoot first root ∧ first.seq ≤ row.seq ∧
    root.threadRoot = metadata.threadRoot
  reply : ∀ parent, optionalMessageId row.replyTo = .ok (some parent) →
    InThread p parent metadata.threadRoot
  replaced : ∀ target, metadata.supersedes = some target → ∃ earlier replaced r,
    Stores p target earlier replaced ∧ replaced.threadRoot = metadata.threadRoot ∧
      earlier.seq < row.seq ∧ replaced.recipients = [r] ∧
      ∃ at_, p.board.entry (r, target) = some (.superseded m at_)

theorem Keeps.stores (h : Keeps p q) {row : LedgerLine}
    (hs : Stores p m row metadata) : Stores q m row metadata :=
  ⟨h.message m row hs.1, hs.2⟩

theorem Keeps.inThread (h : Keeps p q) {m root : MessageId} :
    InThread p m root → InThread q m root :=
  fun ⟨row, metadata, stores, hr⟩ => ⟨row, metadata, h.stores stores, hr⟩

theorem Keeps.threaded (h : Keeps p q) {row : LedgerLine}
    (ht : Threaded p m row metadata) : Threaded q m row metadata where
  root := by
    obtain ⟨first, root, hs, hre⟩ := ht.root
    exact ⟨first, root, h.stores hs, hre⟩
  reply parent hreply := h.inThread (ht.reply parent hreply)
  replaced target htarget := by
    obtain ⟨e, replaced, r, hs, hro, hse, hr, at_, he⟩ :=
      ht.replaced target htarget
    exact ⟨e, replaced, r, h.stores hs, hro, hse, hr, at_, h.settled _ _ he nofun⟩

/-! ## One row -/

variable [DigestScheme] {workspaceId : WorkspaceId} {rt : Option MessageId} {replaying : Bool}

theorem entry_message (hc : MessageAccepted p line mid metadata rt)
    {u : Option NotificationProjectionUpdate} {b : Board} :
    (((message mid metadata u).actions line).foldl act b).entry key =
      if key.1 ∈ metadata.recipients ∧ key.2 = mid then some .pending
      else if key.1 ∈ metadata.recipients ∧ metadata.supersedes = some key.2 then
        some (.superseded mid line.ts)
      else b.entry key := by
  cases hs : metadata.supersedes with
  | none => simp [actions, hs, act]
  | some t =>
    obtain ⟨r, hr, -⟩ := hc.superseding hs
    have hk : key = (r, t) ↔ key.1 = r ∧ t = key.2 := by
      rw [Prod.ext_iff, eq_comm (a := t)]
    simp [actions, hs, hr, act, update_apply, hk]

/-- A row changes an entry at most once. -/
theorem Applies.entry_step (h : Applies replaying p line q) (hp : Coherent p) (key : EntryKey) :
    ∃ m, Accepted p line replaying m ∧ p.commitLine line m = some q ∧
      line.seq = p.head + 1 ∧ q.board = (m.actions line).foldl act p.board ∧
      EntryStep m key (p.board.entry key) (q.board.entry key) := by
  obtain ⟨m, -, hq, hse, ha, hb⟩ := h.accepted hp
  refine ⟨m, ha, hq, hse, hb, ?_⟩
  rw [hb]
  cases ha with
  | message hc =>
    obtain ⟨r, m⟩ := key
    rw [entry_message hc]
    split
    · next hn =>
      obtain ⟨-, rfl⟩ := hn
      rw [entry_of_fresh hp hc.fresh r]
      exact .filed
    · split
      · next hs =>
        obtain ⟨hm, ht⟩ := hs
        obtain ⟨r', hr, hpe, -⟩ := hc.superseding ht
        obtain rfl : r = r' := by simpa [hr] using hm
        rw [board_entry_pending.mpr hpe]
        exact .superseded
      · exact .kept
  | claim hd hpen =>
    rw [entry_claim]
    exact entryStep_settle hpen (.claimed rfl)
  | deliveredDirect hd hpen => exact entryStep_settle hpen .deliveredDirect
  | moved | reminded =>
    rw [show (List.foldl act p.board _).entry key = p.board.entry key by
      simp [actions, act, hold]]
    exact .kept
  | requeuedAll =>
    rw [show (List.foldl act p.board _).entry key = p.board.entry key from ?_]
    · exact .kept
    · rw [actions, List.foldl_map]
      exact Runs.foldl_invariant (fun b : Board => b.entry key = p.board.entry key)
        (fun _ _ h => h) rfl
  | _ => exact .kept

/-! ## Claim sequences -/

structure Sequenced (p : MailboxProjection) : Prop where
  claimed : ∀ r m, (p.claimSequences.lookup (r, m)).isSome ↔ p.entryIsClaimed r m = true
  later : ∀ r m seq row, p.claimSequences.lookup (r, m) = some seq →
    p.messages.lookup m = some row → row.seq < seq

theorem Sequenced.apply (h : Sequenced p) (hp : Coherent p) (hap : Applies replaying p line q) :
    Sequenced q where
  claimed r m := by
    obtain ⟨mutation, ha, hq, -, hb, hst⟩ := hap.entry_step hp (r, m)
    obtain ⟨-, -, -, hs, -⟩ := commitLine_frame hq
    rw [← board_entry_claimed, hs, lookup_sequenced]
    by_cases hc : mutation.claimedKey = some (r, m)
    · cases ha <;> cases hc
      simp [hb, entry_claim, claimedKey]
    · rw [if_neg hc, h.claimed r m, ← board_entry_claimed]
      generalize p.board.entry (r, m) = b at hst
      generalize q.board.entry (r, m) = a at hst
      cases hst with
      | claimed row => exact absurd row hc
      | kept => rfl
      | _ => simp
  later r m seq row hse hrow := by
    obtain ⟨mutation, -, hq, hn, -⟩ := hap.accepted hp
    obtain ⟨-, -, hf, hs, -⟩ := commitLine_frame hq
    rw [hs, lookup_sequenced] at hse
    split at hse
    · next hc =>
      cases mutation <;> cases hc
      cases hse
      have hh := (hp.numbered (hf ▸ hrow)).2
      omega
    · -- a message with a claim sequence has an entry, so it is not the one just stored
      have hcl := (h.claimed r m).mp (by simp [hse])
      rcases hap.messages with heq | ⟨m', _, _, checked, heq⟩
      · exact h.later r m seq row hse (heq ▸ hrow)
      · have hne : m ≠ m' := by
          rintro rfl
          obtain ⟨c, at_, he⟩ := board_entry_claimed.mpr hcl
          cases (entry_of_fresh hp checked.fresh r).symm.trans he
        rw [heq, AList.lookup_insert_ne hne] at hrow
        exact h.later r m seq row hse hrow

theorem Reachable.sequenced (h : Reachable workspaceId p) : Sequenced p := by
  induction h with
  | new =>
    refine ⟨fun _ _ => ?_, fun _ _ _ _ hs => (nomatch hs)⟩
    simp [MailboxProjection.new, entryIsClaimed, getEntry]
  | apply hb ha ih => exact ih.apply hb.coherent ha

/-! ## Any number of rows -/

def Extends (p q : MailboxProjection) : Prop :=
  Relation.ReflTransGen (fun p q => ∃ replaying line, Applies replaying p line q) p q

theorem Extends.keeps (h : Extends p q) (hp : Reachable workspaceId p) :
    Reachable workspaceId q ∧ Keeps p q := by
  induction h with
  | refl => exact ⟨hp, fun _ _ h => h, fun _ _ h _ => h⟩
  | tail _ row ih =>
    obtain ⟨_, line, ha⟩ := row
    obtain ⟨hr, hk⟩ := ih
    refine ⟨hr.apply ha, fun m row hm => ha.message (hk.message m row hm), ?_⟩
    intro key s he hs
    exact ha.settled hr.coherent (hk.settled key s he hs) hs

/-! ## Repeated claims -/

def ClaimOutcome.message : ClaimOutcome → InboxMessage
  | .claimed _ message _ _ _ => message
  | .alreadyClaimed _ message _ _ => message

theorem taken_of_perform {st : MessageStore} {ts now : Nat}
    {env : Env} {o : ClaimOutcome} (h : st.Aligned)
    (hok : (st.perform (st.claimAt r m ts now) env).2 = .ok o) :
    Taken (st.perform (st.claimAt r m ts now) env).1.projection r m o.message := by
  obtain ⟨hp, hst⟩ | ⟨line, result, hp, applies, hre⟩ :=
    (h.performed stampedPlan_claimAt).eq_ok hok
  · rw [hst]
    simp only [claimAt, bind_eq_ok, liftMailbox_eq_ok, orRefuse_eq_ok] at hp
    obtain ⟨e, he, row, hr, message, hm, hp⟩ := hp
    split at hp
    · next existing at_ hs =>
      split at hp
      · next hsa =>
        cases hp
        exact ⟨⟨at_, by simp [board, he, hs, hsa]⟩, row, hr, hm⟩
      · cases hp
    all_goals cases hp
  · obtain ⟨e, message, he, ⟨row, hr, hm⟩, -, hl, rfl⟩ :=
      claimAt_append hp
    obtain ⟨u, hu, rfl⟩ := Option.map_eq_some_iff.mp hre
    refine ⟨⟨line.ts, ?_⟩, row, applies.message hr, hm⟩
    obtain ⟨mutation, -, -, -, ha, hb⟩ := applies.accepted h.coherent
    rw [hb]
    have hda : line.data = some (.mailbox (.messageClaimed canonicalRecordVersion m
      e.recipient r)) := congrArg LedgerLine.data hl
    cases ha with
    | message hc => cases hda.symm.trans hc.data
    | claim hd =>
      cases hda.symm.trans hd
      rw [entry_claim, update_self]
    | _ hd => cases hda.symm.trans hd

/-- An entry appears pending, is settled once and stays so; a repeated claim reads the same message
and appends nothing. -/
theorem entry_life_cycle (h : Reachable workspaceId p) :
    (∀ replaying line q key, Applies replaying p line q →
      ∃ m, EntryStep m key (p.board.entry key) (q.board.entry key)) ∧
    (∀ q key state, Extends p q → p.board.entry key = some state → state ≠ .pending →
      q.board.entry key = some state) ∧
    (∀ key claimant at_, p.board.entry key = some (.claimed claimant at_) → claimant = key.1) ∧
    (∀ r m, (p.claimSequences.lookup (r, m)).isSome ↔ p.entryIsClaimed r m = true) ∧
    (∀ r m seq row, p.claimSequences.lookup (r, m) = some seq →
      p.messages.lookup m = some row → row.seq < seq) ∧
    ∀ (store : MessageStore) r m ts now env outcome, store.projection = p → store.Aligned →
      (store.perform (store.claimAt r m ts now) env).2 = .ok outcome →
      ∀ (store' : MessageStore) ts' now' env',
        Extends (store.perform (store.claimAt r m ts now) env).1.projection store'.projection →
        ∃ entry consumed, store'.perform (store'.claimAt r m ts' now') env' =
          (store', .ok (.alreadyClaimed entry outcome.message none consumed)) := by
  refine ⟨fun replaying line q key applies => ?_, fun q key state he => ?_,
    h.personal.claimant, h.sequenced.claimed, h.sequenced.later, ?_⟩
  · obtain ⟨m, -, -, -, -, hst⟩ := applies.entry_step h.coherent key
    exact ⟨m, hst⟩
  · exact (he.keeps h).2.settled key state
  · rintro store r m ts now env outcome rfl ha hok store' ts' now' env' he
    have hr : Reachable workspaceId
        (store.perform (store.claimAt r m ts now) env).1.projection := by
      obtain ⟨-, hs⟩ | ⟨line, _, -, applies, -⟩ :=
        (ha.performed stampedPlan_claimAt).eq_ok hok
      · rwa [hs]
      · exact h.apply applies
    obtain ⟨entry, consumed, hp⟩ :=
      ((he.keeps hr).2.taken (taken_of_perform ha hok)).claimAt ts' now'
    refine ⟨entry, consumed, ?_⟩
    rw [hp]
    rfl

omit [DigestScheme] in
theorem reachable_sampleDaemon (more : List Operation) :
    @Reachable constantDigests sampleWorkspace (sampleDaemon more).store.projection :=
  let := constantDigests
  (Daemon.sound_run sampleWorkspace "boot" (sampleOps ++ more)).reachable

omit [DigestScheme] in
theorem sample_claim_sequence :
    ((sampleDaemon [.claim sampleWorker.key sampleMessage
      ⟨6, .written⟩]).store.projection.claimSequences.lookup
        (sampleWorker.key, sampleMessage)).isSome := by
  obtain ⟨-, -, -, hs, -⟩ := @entry_life_cycle _ constantDigests _
    (reachable_sampleDaemon [.claim sampleWorker.key sampleMessage ⟨6, .written⟩])
  rw [hs]
  decide +kernel

/-! ## Threads -/

theorem MessageAccepted.thread (h : MessageAccepted p line mid metadata rt) :
    match rt, metadata.supersedes with
    | some parent, _ => InThread p parent metadata.threadRoot
    | none, some t => ∃ row replaced r, Stores p t row replaced ∧
        replaced.threadRoot = metadata.threadRoot ∧ replaced.recipients = [r] ∧
        metadata.recipients = [r]
    | none, none => metadata.threadRoot = mid := by
  have hro := h.threadRoot
  cases rt with
  | some =>
    simp only [expectedThreadRoot, deriveReply, bind_eq_ok, orRefuse_eq_ok,
      extractMessageMetadata_eq_ok, pure_eq_ok] at hro
    obtain ⟨-, -, derived, ⟨row, hrow, metadata', hda, -, -, rfl⟩, -, -, -, -, hsa⟩ := hro
    exact ⟨row, metadata', ⟨hrow, hda⟩, hsa⟩
  | none =>
    rw [expectedThreadRoot, bind_eq_ok] at hro
    obtain ⟨root, hro, hsa⟩ := hro
    cases hs : metadata.supersedes with
    | none =>
      rw [hs] at hro
      cases hro
      exact (Except.ok.inj hsa).symm
    | some =>
      rw [hs] at hro
      obtain ⟨r, row, replaced, hr, hrow, hda, -, hre, -, -, rfl⟩ :=
        supersessionThreadRoot_eq_ok.mp hro
      exact ⟨row, replaced, r, ⟨hrow, hda⟩, Except.ok.inj hsa, hre, hr⟩

def Threads (p : MailboxProjection) : Prop :=
  ∀ m row metadata, Stores p m row metadata → Threaded p m row metadata

theorem Threads.accepted (h : Threads p) (hp : Coherent p)
    (hc : MessageAccepted p line mid metadata rt) (hse : line.seq = p.head + 1)
    (hk : Keeps p q) (hsto : Stores q mid line metadata)
    (hsu : ∀ r t, metadata.recipients = [r] → metadata.supersedes = some t → t ∈ p.messages →
      ∃ at_, q.board.entry (r, t) = some (.superseded mid at_)) :
    Threaded q mid line metadata := by
  have ht := hc.thread
  have earlier : ∀ {m row metadata}, Stores p m row metadata → row.seq < line.seq := by
    intro m row _ hst
    have := (hp.numbered hst.1).2
    omega
  have hj : ∀ {m root}, InThread p m root →
      ∃ first metadata, Stores q root first metadata ∧ first.seq ≤ line.seq ∧
        metadata.threadRoot = root := by
    rintro m _ ⟨row, metadata, hst, rfl⟩
    obtain ⟨first, root, hro, hle, hsa⟩ := (h m row metadata hst).root
    have := earlier hst
    exact ⟨first, root, hk.stores hro, by omega, hsa⟩
  cases rt with
  | some parent =>
    refine ⟨hj ht, fun p' hpa => ?_, fun t hta => ?_⟩
    · cases hc.reply.symm.trans hpa
      exact hk.inThread ht
    · exact absurd ⟨rfl, by simp [hta]⟩ hc.exclusive
  | none =>
    have noReply : ∀ parent, optionalMessageId line.replyTo = .ok (some parent) →
        InThread q parent metadata.threadRoot :=
      fun parent hpa => nomatch hc.reply.symm.trans hpa
    cases hs : metadata.supersedes with
    | none =>
      simp only [hs] at ht
      refine ⟨⟨line, metadata, ht.symm ▸ hsto, le_rfl, rfl⟩, noReply, fun t hta => ?_⟩
      cases hs.symm.trans hta
    | some t =>
      simp only [hs] at ht
      obtain ⟨row, replaced, r, hst, hro, hre, hr⟩ := ht
      refine ⟨hj ⟨row, replaced, hst, hro⟩, noReply, fun t' hta => ?_⟩
      cases hs.symm.trans hta
      exact ⟨row, replaced, r, hk.stores hst, hro, earlier hst,
        hre, hsu r t hr hs (mem_iff_lookup.mpr ⟨row, hst.1⟩)⟩

theorem Reachable.threads (h : Reachable workspaceId p) : Threads p := by
  induction h with
  | new => exact fun _ _ _ hst => (nomatch hst.1)
  | @apply _ p q line hbe hap ih =>
    have hk : Keeps p q := (Extends.keeps (.single ⟨_, line, hap⟩) hbe).2
    intro m row metadata hsto
    obtain ⟨mutation, -, hq, hse, ha, hb⟩ := hap.accepted hbe.coherent
    obtain ⟨-, -, hf, -⟩ := commitLine_frame hq
    cases ha with
    | @message mid md' rt hc =>
      by_cases hn : m = mid
      · subst hn
        have hro : line = row := by simpa [hf, filed] using hsto.1
        subst hro
        cases hc.data.symm.trans hsto.2
        refine ih.accepted hbe.coherent hc hse hk hsto fun r t hr hs hkn => ?_
        have hne : t ≠ m := fun hsa => hc.fresh (hsa ▸ hkn)
        exact ⟨line.ts, by rw [hb, entry_message hc]; simp [hr, hs, hne]⟩
      · refine hk.threaded (ih m row metadata ⟨?_, hsto.2⟩)
        simpa [hf, filed, hn] using hsto.1
    | _ =>
      have hro := (congrArg (AList.lookup m) hf).symm.trans hsto.1
      exact hk.threaded (ih m row metadata ⟨hro, hsto.2⟩)

def Supersedes (p : MailboxProjection) (m target : MessageId) : Prop :=
  ∃ row metadata, Stores p m row metadata ∧ metadata.supersedes = some target

def seqOf (p : MailboxProjection) (m : MessageId) : Nat :=
  ((p.messages.lookup m).map LedgerLine.seq).getD 0

theorem Reachable.supersedes_later (h : Reachable workspaceId p) {m t : MessageId}
    (hsu : Supersedes p m t) :
    seqOf p t < seqOf p m ∧ seqOf p m ≤ p.head := by
  obtain ⟨row, metadata, stores, ht⟩ := hsu
  obtain ⟨e, _, _, replaced, -, hs, -⟩ := (h.threads m row metadata stores).replaced _ ht
  simpa [seqOf, stores.1, replaced.1] using And.intro hs (h.coherent.numbered stores.1).2

/-- Threads are flat, a message is replaced at most once, and chains of replacements end
in both directions. -/
theorem threads_flat (h : Reachable workspaceId p) :
    (∀ m row metadata, Stores p m row metadata → ∃ first root,
      Stores p metadata.threadRoot first root ∧ first.seq ≤ row.seq ∧
        root.threadRoot = metadata.threadRoot) ∧
    (∀ m row metadata parent, Stores p m row metadata →
      optionalMessageId row.replyTo = .ok (some parent) →
        InThread p parent metadata.threadRoot) ∧
    (∀ m row metadata target, Stores p m row metadata → metadata.supersedes = some target →
      InThread p target metadata.threadRoot) ∧
    (∀ m m' target, Supersedes p m target → Supersedes p m' target → m = m') ∧
    WellFounded (fun target m => Supersedes p m target) ∧ WellFounded (Supersedes p) := by
  refine ⟨fun m row metadata stores => (h.threads m row metadata stores).root,
    fun m row metadata parent stores => (h.threads m row metadata stores).reply parent,
    fun m row metadata target stores ht => ?_, ?_, ?_, ?_⟩
  · obtain ⟨e, replaced, _, hs, hro, -⟩ :=
      (h.threads m row metadata stores).replaced target ht
    exact ⟨e, replaced, hs, hro⟩
  · rintro m m' target ⟨row, metadata, stores, ht⟩ ⟨row', metadata', stores', ht'⟩
    obtain ⟨_, _, r, hre, -, -, hr, at_, he⟩ :=
      (h.threads m row metadata stores).replaced target ht
    obtain ⟨_, _, r', hre', -, -, hr', at_', he'⟩ :=
      (h.threads m' row' metadata' stores').replaced target ht'
    -- both have settled the one entry of the message they replace
    cases hre.1.symm.trans hre'.1
    cases hre.2.symm.trans hre'.2
    cases hr.symm.trans hr'
    cases he.symm.trans he'
    rfl
  · exact Subrelation.wf (fun hst => (h.supersedes_later hst).1) (measure (seqOf p)).wf
  · refine Subrelation.wf (fun hst => ?_) (measure fun m => p.head - seqOf p m).wf
    obtain ⟨hlt, hle⟩ := h.supersedes_later hst
    exact Nat.sub_lt_sub_left (hlt.trans_le hle) hlt

omit [DigestScheme] in
theorem sample_replacements_end :
    let p := (sampleDaemon [.send sampleAdmin (keyedTask (some sampleMessage')) [3]
      ⟨6, .written⟩]).store.projection
    p.entryIsPending sampleWorker.key sampleMessage' = false ∧ WellFounded (Supersedes p) := by
  refine ⟨by decide +kernel, ?_⟩
  exact (@threads_flat _ constantDigests _ (reachable_sampleDaemon _)).2.2.2.2.2

end Cyclops
