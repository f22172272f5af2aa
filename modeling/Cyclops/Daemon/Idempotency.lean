import Cyclops.Daemon.Emission
import Cyclops.Mailbox.Labels

/-!
# Retries

A request with a client key is answered once more with the message it was stored as.

Result: `retry_answers_first_iff`.
-/

namespace Cyclops

open Checked FiniteMap MailboxService MessageStore List Option MailboxProjection MailboxDirectory
  MailboxIdentity

/-! ## Acceptance of a retry -/

variable [DigestScheme] {p q : MailboxProjection} {st : MessageStore}
  {workspaceId : WorkspaceId} {dr : CanonicalDraft}

/-- What acceptance checks of a draft before it looks the client key up. -/
structure CanonicalDraft.Admissible (workspaceId : WorkspaceId) (draft : CanonicalDraft) : Prop where
  kind : ¬ (draft.kind ≠ .msg ∧ draft.kind ≠ .fyi)
  sender : draft.sender.workspaceId = workspaceId
  nonempty : draft.recipients ≠ []
  recipients : checkRecipients workspaceId .draftDuplicateRecipient [] draft.recipients = .ok ()
  clientKey : draft.clientKey ≠ some ""
  labels : ∃ labels, presentationLabels draft.recipients draft.presentation = .ok labels
  summary : checkSummary draft.summary = .ok ()

theorem checkAcceptance_new {digest : RequestDigest}
    (h : p.checkAcceptance dr = .ok (.new digest)) :
    dr.Admissible p.workspaceId ∧ digest = dr.digest := by
  simp only [checkAcceptance, bind_eq_ok, refuseIf_eq_ok, exists_const, checkWorkspace_eq_ok] at h
  obtain ⟨hk, hse, hn, _, hr, hke, labels, hl, _, hs, h⟩ := h
  refine ⟨⟨hk, hse, hn, hr, hke, ⟨labels, hl⟩, hs⟩, ?_⟩
  split at h
  · obtain ⟨-, h⟩ := refuseIf_bind_eq_ok.mp h
    cases h
  · obtain ⟨-, -, h⟩ := bind_eq_ok.mp h
    cases h
    rfl

def Filed (p : MailboxProjection) (draft : CanonicalDraft) (result : AcceptResult) : Prop :=
  ∃ row metadata, p.messages.lookup result.messageId = some row ∧
    row.data = some (.metadata metadata) ∧ metadata.sender = draft.sender ∧
    metadata.clientKey = draft.clientKey ∧ metadata.requestDigest = draft.digest ∧
    metadata.threadRoot = result.threadRoot

variable {result : AcceptResult}

theorem Filed.advances (hp : Reachable workspaceId p) (h : Filed p dr result) (hq : Advances p q) :
    Filed q dr result := by
  obtain ⟨row, metadata, hr, hm⟩ := h
  exact ⟨row, metadata, hq.message hp hr, hm⟩

theorem checkAcceptance_retry (hp : Coherent p) (hdr : dr.Admissible p.workspaceId)
    (hf : Filed p dr result) (hk : dr.clientKey ≠ none) :
    p.checkAcceptance dr = .ok (.existing result.messageId) := by
  obtain ⟨key, hk⟩ := ne_none_iff_exists'.mp hk
  obtain ⟨row, metadata, hr, hda, hs, hc, hdi, -⟩ := hf
  obtain ⟨labels, hl⟩ := hdr.labels
  have hi : p.idempotencyIndex.lookup (dr.sender, key) = some (result.messageId, dr.digest) :=
    hp.keyed.mpr ⟨row, metadata, hr, hda, hs, hc.trans hk, hdi⟩
  simp only [checkAcceptance, bind_eq_ok, refuseIf_eq_ok, exists_const, checkWorkspace_eq_ok]
  refine ⟨hdr.kind, hdr.sender, hdr.nonempty, (), hdr.recipients, hdr.clientKey,
    labels, hl, (), hdr.summary, ?_⟩
  simp only [hk, bind_some, hi]
  exact refuseIf_bind_eq_ok.mpr ⟨not_not.mpr rfl, rfl⟩

def AcceptResult.Repeats (again first : AcceptResult) : Prop :=
  again.messageId = first.messageId ∧ again.threadRoot = first.threadRoot ∧ again.inserted = false

theorem acceptCanonicalAt_retry (hp : Coherent st.projection)
    (hdr : dr.Admissible st.projection.workspaceId)
    (hf : Filed st.projection dr result) (hk : dr.clientKey ≠ none)
    (messageId : MessageId) (ts now : Nat) :
    ∃ a, st.acceptCanonicalAt messageId dr ts now = .ok (.answer a) ∧ a.Repeats result := by
  have he := checkAcceptance_retry hp hdr hf hk
  obtain ⟨row, metadata, hro, hda, -, -, -, hr⟩ := hf
  refine ⟨⟨result.messageId, metadata.threadRoot, false, row.seq, row.sentTo,
    metadata.recipients⟩, ?_, rfl, hr, rfl⟩
  simp only [acceptCanonicalAt, bind_eq_ok, liftMailbox_eq_ok]
  refine ⟨_, he, ?_⟩
  simp only [existingResult, bind_eq_ok, orRefuse_eq_ok, liftMailbox_eq_ok,
    extractMessageMetadata_eq_ok]
  exact ⟨_, ⟨row, hro, metadata, hda, rfl⟩, rfl⟩

/-! ## The first submission -/

variable {ok : MailboxProjection → LedgerLine → Prop} {env : Env}

theorem Applies.stores (hp : Coherent p) {line : LedgerLine} (h : Applies false p line q)
    {md : MessageMetadata} (hda : line.data = some (.metadata md)) :
    ∃ messageId, line.id = messageId.text ∧ q.messages.lookup messageId = some line ∧
      ∀ t r, md.supersedes = some t → md.recipients = [r] →
        ∃ s, q.board.entry (r, t) = some s ∧ s ≠ .pending := by
  obtain ⟨m, -, hq, -, ha, hb⟩ := h.accepted hp
  obtain ⟨-, -, hfi, -⟩ := commitLine_frame hq
  cases ha with
  | @message messageId _ _ hc =>
    cases hda.symm.trans hc.data
    refine ⟨messageId, hc.id_text, ?_, fun t r ht hr => ?_⟩
    · rw [hfi, PreparedMutation.filed, AList.lookup_insert]
    · -- The superseded message has an entry, the new one had none.
      obtain ⟨r', hr', hpe, -⟩ := hc.superseding ht
      cases hr.symm.trans hr'
      have hf := entry_of_fresh hp hc.fresh r
      refine ⟨.superseded messageId line.ts, ?_, fun hs => by cases hs⟩
      rw [hb]
      have hne : t ≠ messageId := by
        rintro rfl
        rw [board_entry_pending.mpr hpe] at hf
        cases hf
      simp [PreparedMutation.actions, ht, hr, Board.act, hne]
  | _ => simp_all

/-- What the first submission of a draft leaves behind. -/
structure Submitted (workspaceId : WorkspaceId) (draft : CanonicalDraft) (result : AcceptResult)
    (q : MailboxProjection) : Prop where
  admissible : draft.Admissible workspaceId
  filed : Filed q draft result
  recipients : result.recipientKeys = draft.recipients
  superseded : ∀ target r, draft.supersedes = some target → draft.recipients = [r] →
    ∃ state, q.board.entry (r, target) = some state ∧ state ≠ .pending

theorem submitted_of_inserted (h : st.Sound ok workspaceId) {messageId : MessageId} {ts now : Nat}
    (hok : (st.perform (st.acceptCanonicalAt messageId dr ts now) env).2 = .ok result)
    (hinserted : result.inserted = true) :
    Submitted workspaceId dr result
        (st.perform (st.acceptCanonicalAt messageId dr ts now) env).1.projection ∧
      st.draftThreadRoot messageId dr = .ok result.threadRoot := by
  rcases (h.aligned.performed stampedPlan_acceptCanonicalAt).eq_ok hok with
    ⟨hp, -⟩ | ⟨line, answer, hp, applies, han⟩
  · -- A retry answers without a row, and says so.
    simp only [acceptCanonicalAt, bind_eq_ok] at hp
    obtain ⟨o, -, hp⟩ := hp
    cases o with
    | new =>
      simp only [bind_eq_ok, pure_eq_ok, reduceCtorEq, and_false, exists_false] at hp
    | existing =>
      simp only [existingResult, bind_eq_ok, pure_eq_ok, Plan.answer.injEq] at hp
      obtain ⟨_, ⟨_, -, _, -, rfl⟩, rfl⟩ := hp
      cases hinserted
  · obtain ⟨digest, root, labels, hn, hr, -, hl, rfl⟩ :=
      acceptCanonicalAt_append hp
    obtain ⟨ha, rfl⟩ := checkAcceptance_new hn
    cases han
    have hda : line.data = some (.metadata (st.draftMetadata dr root dr.digest)) := by
      rw [hl]
      rfl
    obtain ⟨s, hid, hst, hs⟩ := applies.stores h.reachable.coherent hda
    have hsa : s = messageId := by
      rw [hl] at hid
      cases s
      cases messageId
      cases hid
      rfl
    refine ⟨⟨h.reachable.workspaceId_eq ▸ ha, ?_, rfl, hs⟩, hr⟩
    exact ⟨line, _, hsa ▸ hst, hda, rfl, rfl, rfl, rfl⟩

theorem Submitted.advances (hp : Reachable workspaceId p) (h : Submitted workspaceId dr result p)
    (hq : Advances p q) :
    Submitted workspaceId dr result q where
  __ := h
  filed := h.filed.advances hp hq
  superseded := by
    intro t r ht hr
    obtain ⟨s, hst, hs⟩ := h.superseded t r ht hr
    exact ⟨s, hq.settled hp hst hs, hs⟩

theorem Submitted.retry (h : Submitted workspaceId dr result st.projection)
    (hp : Reachable workspaceId st.projection) (hk : dr.clientKey ≠ none)
    {presentation : MessagePresentation}
    (hl : ∃ labels, presentationLabels dr.recipients presentation = .ok labels)
    (messageId : MessageId) (ts now : Nat) :
    ∃ a, st.acceptCanonicalAt messageId { dr with presentation } ts now =
      .ok (.answer a) ∧ a.Repeats result := by
  have ha : CanonicalDraft.Admissible workspaceId { dr with presentation } :=
    { h.admissible with labels := hl }
  have hf : Filed st.projection { dr with presentation } result := h.filed
  exact acceptCanonicalAt_retry hp.coherent (hp.workspaceId_eq.symm ▸ ha) hf hk messageId ts now

/-! ## Retries of a daemon -/

namespace Daemon

variable {d : Daemon}

def sendResult (d : Daemon) (sender : MailboxIdentity) (request : MailboxSend)
    (draws : List Uuid) (env : Env) : MessageStore × Except Failure AcceptResult :=
  d.store.perform (send d.directory d.store sender request draws env.now) env

def replyResult (d : Daemon) (sender : MailboxIdentity) (request : MailboxReply)
    (draws : List Uuid) (env : Env) : MessageStore × Except Failure AcceptResult :=
  d.store.perform (replyWithSummary d.directory d.store sender request draws env.now) env

theorem step_send (d : Daemon) (s : MailboxIdentity) (request : MailboxSend)
    (draws : List Uuid) (env : Env) :
    (d.step (.send s request draws env)).store = (d.sendResult s request draws env).1 :=
  d.store.perform_discardAnswer _ env

theorem step_reply (d : Daemon) (s : MailboxIdentity) (request : MailboxReply)
    (draws : List Uuid) (env : Env) :
    (d.step (.reply s request draws env)).store = (d.replyResult s request draws env).1 :=
  d.store.perform_discardAnswer _ env

def Repeated (d : Daemon) (outcome : MessageStore × Except Failure AcceptResult)
    (first : AcceptResult) : Prop :=
  ∃ again, outcome = (d.store, .ok again) ∧ again.Repeats first

theorem not_repeated_of_error {plan : Except Failure (Plan AcceptResult)} {env : Env}
    {first : AcceptResult} (h : ∀ plan', plan ≠ .ok plan') :
    ¬ d.Repeated (d.store.perform plan env) first := by
  rintro ⟨a, heq, -⟩
  cases plan with
  | error => cases congrArg Prod.snd heq
  | ok plan => exact h plan rfl

structure Succeeds (workspaceId : WorkspaceId) (later : Daemon) (store : MessageStore) : Prop where
  reached : Reachable workspaceId store.projection
  advances : Advances store.projection later.store.projection
  labelled : later.directory.Labelled

theorem Succeeds.reachable {later : Daemon} (h : later.Succeeds workspaceId st) :
    Reachable workspaceId later.store.projection :=
  h.advances.reachable h.reached

variable {l : Daemon} {sn : MailboxIdentity} {draws d' : List Uuid} {env env' : Env}
  {res : AcceptResult} {recipients : List MailboxIdentity} {attemptId : NotificationAttemptId}
  {r : NotificationRecord} {messageId : MessageId}

theorem submitted_send (h : d.store.Sound Emits workspaceId) {request : MailboxSend}
    (hok : (d.sendResult sn request draws env).2 = .ok res)
    (hinserted : res.inserted = true)
    (hr : d.directory.resolveSend request = .ok recipients) :
    Submitted workspaceId (request.draft sn recipients).canonical res
      (d.sendResult sn request draws env).1.projection := by
  unfold sendResult at hok ⊢
  cases hp : send d.directory d.store sn request draws env.now with
  | error =>
    rw [hp] at hok
    cases hok
  | ok =>
    have ha := hp
    simp only [send, bind_eq_ok, liftDirectory_eq_ok] at ha
    obtain ⟨ks', hr', _, -, messageId, -, ha⟩ := ha
    cases hr.symm.trans hr'
    rw [hp, ← ha] at hok
    rw [← ha]
    exact (submitted_of_inserted h hok hinserted).1

theorem send_retry_iff (h : d.store.Sound Emits workspaceId) {request : MailboxSend}
    (hok : (d.sendResult sn request draws env).2 = .ok res)
    (hinserted : res.inserted = true) (hk : request.clientKey ≠ none)
    (hl : l.Succeeds workspaceId (d.sendResult sn request draws env).1)
    {ks' : List MailboxIdentity}
    (hres : d.directory.resolveSend request = .ok recipients)
    (hr' : l.directory.resolveSend request = .ok ks')
    (hsa : ks'.map key = recipients.map key)
    (hm : (l.store.mintMessageId none d').isSome) :
    l.Repeated (l.sendResult sn request d' env') res ↔ request.supersedes = none := by
  have hs := (submitted_send h hok hinserted hres).advances hl.reached hl.advances
  constructor
  · -- The superseded entry is no longer pending, and the send looks at it first.
    intro hre
    by_contra hsu
    obtain ⟨t, ht⟩ := ne_none_iff_exists'.mp hsu
    refine not_repeated_of_error (fun plan hp => ?_) hre
    simp only [send, bind_eq_ok, liftDirectory_eq_ok, liftMailbox_eq_ok] at hp
    obtain ⟨ks'', hr'', root, hro, -⟩ := hp
    cases hr'.symm.trans hr''
    rw [show (request.draft sn ks').supersedes = some t from ht] at hro
    obtain ⟨r, _, _, hr, -, -, -, -, hpe, -⟩ := supersessionThreadRoot_eq_ok.mp hro
    obtain ⟨s, hst, hse⟩ := hs.superseded t r ht (hsa.symm.trans hr)
    rw [board_entry_pending.mpr hpe, some.injEq] at hst
    exact hse hst.symm
  · intro hn
    obtain ⟨messageId, hm⟩ := isSome_iff_exists.mp hm
    obtain ⟨ls, hla⟩ := hs.admissible.labels
    have hl' : ∃ ls, presentationLabels (recipients.map key)
        (request.draft sn ks').presentation = .ok ls := by
      rw [← hsa]
      have hd := presentationLabels_sender hla
      exact presentationLabels_identities hd (hl.labelled.resolveSend hr')
    obtain ⟨a, ha, hrep⟩ :=
      hs.retry hl.reachable hk hl' messageId env'.now env'.now
    refine ⟨a, ?_, hrep⟩
    have hp : send l.directory l.store sn request d' env'.now = .ok (.answer a) := by
      simp only [send, bind_eq_ok, liftDirectory_eq_ok, orRefuse_eq_ok]
      refine ⟨ks', hr', none, ?_, messageId, hm, ?_⟩
      · rw [show (request.draft sn ks').supersedes = none from hn]
        rfl
      · rw [← ha, acceptAt]
        congr 1
        simp [MessageDraft.canonical, MailboxSend.draft, hsa]
    rw [sendResult, hp]
    rfl

/-! ## Replies -/

omit [DigestScheme] in
theorem notificationByAttempt_eq_some (h : p.notificationByAttempt attemptId = some r) :
    r.attemptId = attemptId ∧ ∃ key, p.notifications.lookup key = some r :=
  ⟨by simpa using find?_some h, mem_values.mp (mem_of_find?_eq_some h)⟩

theorem notificationByAttempt_messageId (hp : Reachable workspaceId p) (hq : Advances p q)
    {r' : NotificationRecord} (h : p.notificationByAttempt attemptId = some r)
    (h' : q.notificationByAttempt attemptId = some r') :
    r'.messageId = r.messageId := by
  obtain ⟨ha, key, hk⟩ := notificationByAttempt_eq_some h
  obtain ⟨ha', key', hk'⟩ := notificationByAttempt_eq_some h'
  obtain ⟨-, hm, -, hi⟩ := hp.coherent.noted hk
  obtain ⟨c, hc, hl⟩ := (hq.follows hp).later key' r' hk' (ha'.trans ha.symm ▸ hi)
  have hs : key' = key :=
    hp.coherent.single hc hk (hl.same.symm.trans (ha'.trans ha.symm))
  have hm' := ((hq.reachable hp).coherent.noted hk').2.1
  rw [hm, hm', hs]

variable {rf : MessageId} {req : MailboxReply}

theorem deriveReply_advances (hp : Reachable workspaceId p) (hq : Advances p q)
    {sn : RecipientKey} {derived : ReplyDerivation}
    (h : p.deriveReply sn rf = .ok derived) :
    q.deriveReply sn rf = .ok derived := by
  obtain ⟨parent, hpa, h⟩ := bind_eq_ok.mp h
  exact bind_eq_ok.mpr ⟨parent, orRefuse_eq_ok.mpr (hq.message hp (orRefuse_eq_ok.mp hpa)), h⟩

def ReferenceCurrent (p : MailboxProjection) (reference : MessageId) : Prop :=
  ∀ attemptId, parseNotificationAttemptClaimLocator reference = some attemptId →
    (p.notificationByAttempt attemptId).isSome

omit [DigestScheme] in
theorem referenceCurrent_of_resolveReference (h : resolveReference st rf = .ok messageId) :
    ReferenceCurrent st.projection rf := by
  intro attemptId hp
  simp only [resolveReference, hp, bind_eq_ok, orRefuse_eq_ok] at h
  obtain ⟨r, hr, -⟩ := h
  exact isSome_iff_exists.mpr ⟨r, hr⟩

theorem resolveReference_advances {st' : MessageStore}
    (hp : Reachable workspaceId st.projection) (hq : Advances st.projection st'.projection)
    (h : resolveReference st rf = .ok messageId)
    (hc : ReferenceCurrent st'.projection rf) :
    resolveReference st' rf = .ok messageId := by
  unfold resolveReference at h ⊢
  split at h
  · next attemptId hpa =>
    simp only [bind_eq_ok, orRefuse_eq_ok, pure_eq_ok] at h ⊢
    obtain ⟨r, hr, rfl⟩ := h
    obtain ⟨r', hr'⟩ := isSome_iff_exists.mp (hc attemptId hpa)
    exact ⟨r', hr', notificationByAttempt_messageId hp hq hr hr'⟩
  · exact h

def replyCanonical (sender : MailboxIdentity) (request : MailboxReply)
    (reference : MessageId) (derived : MailboxProjection.ReplyDerivation) (label : String) :
    CanonicalDraft where
  kind := .msg
  sender := sender.key
  recipients := [derived.recipient]
  presentation := ⟨sender.label, [⟨derived.recipient, label⟩]⟩
  subject := derived.subject
  summary := request.summary
  body := nonEmptyBody request.body
  replyTo := some reference
  clientKey := request.clientKey
  supersedes := none
  raw := request.raw
  broadcast := false

theorem replyWithSummary_eq_ok {directory : MailboxDirectory} {now : Nat}
    {plan : Plan AcceptResult} :
    replyWithSummary directory st sn req draws now = .ok plan ↔ ∃ rf derived destination messageId,
        resolveReference st req.reference = .ok rf ∧
        st.projection.deriveReply sn.key rf = .ok derived ∧
        directory.identityForRecipient derived.recipient = some destination ∧
        st.mintMessageId (some derived.threadRoot) draws = some messageId ∧
        st.acceptCanonicalAt messageId
          (replyCanonical sn req rf derived destination.label) now now = .ok plan := by
  simp only [replyWithSummary, replyAt, bind_eq_ok, liftMailbox_eq_ok,
    liftDirectory_eq_ok, orRefuse_eq_ok]
  constructor
  · rintro ⟨rf, hr, derived, hde, destination, hdes, messageId, hm, derived', hd', h⟩
    cases hde.symm.trans hd'
    exact ⟨rf, derived, destination, messageId, hr, hde, hdes, hm, h⟩
  · rintro ⟨rf, derived, destination, messageId, hr, hde, hdes, hm, h⟩
    exact ⟨rf, hr, derived, hde, destination, hdes, messageId, hm, derived, hde, h⟩

section

variable (h : d.store.Sound Emits workspaceId)
    (hok : (d.replyResult sn req draws env).2 = .ok res)
    (hinserted : res.inserted = true)

include h hok hinserted

theorem submitted_reply : ∃ rf derived l, resolveReference d.store req.reference = .ok rf ∧
      d.store.projection.deriveReply sn.key rf = .ok derived ∧
      derived.threadRoot = res.threadRoot ∧
      Submitted workspaceId (replyCanonical sn req rf derived l) res
        (d.replyResult sn req draws env).1.projection := by
  unfold replyResult at hok ⊢
  cases hp : replyWithSummary d.directory d.store sn req draws env.now with
  | error e =>
    rw [hp] at hok
    cases hok
  | ok plan =>
    obtain ⟨rf, derived, destination, messageId, hre, hde, -, -, ha⟩ :=
      replyWithSummary_eq_ok.mp hp
    rw [hp, ← ha] at hok
    obtain ⟨hs, hr⟩ := submitted_of_inserted h hok hinserted
    refine ⟨rf, derived, destination.label, hre, hde, ?_, ha ▸ hs⟩
    obtain ⟨d', hd', hr⟩ := bind_eq_ok.mp hr
    cases hde.symm.trans hd'
    exact pure_eq_ok.mp hr

theorem reply_retry_iff (hk : req.clientKey ≠ none)
    (hl : l.Succeeds workspaceId (d.replyResult sn req draws env).1)
    (hro : ∀ r ∈ res.recipientKeys, (l.directory.identityForRecipient r).isSome)
    (hm : (l.store.mintMessageId (some res.threadRoot) d').isSome) :
    l.Repeated (l.replyResult sn req d' env') res ↔
      ReferenceCurrent l.store.projection req.reference := by
  obtain ⟨rf, derived, label, href, hder, hroo, hf⟩ :=
    submitted_reply h hok hinserted
  have hs := hf.advances hl.reached hl.advances
  have ha : Advances d.store.projection l.store.projection := by
    have hst := step_advances h (.reply sn req draws env)
    rw [step_reply] at hst
    exact hst.trans hl.advances
  constructor
  · intro hr
    by_contra hsta
    refine not_repeated_of_error (fun plan hp => hsta ?_) hr
    obtain ⟨_, _, _, _, hr', -⟩ := replyWithSummary_eq_ok.mp hp
    exact referenceCurrent_of_resolveReference hr'
  · intro hc
    rw [← hroo] at hm
    obtain ⟨messageId, hm⟩ := isSome_iff_exists.mp hm
    have hme : derived.recipient ∈ res.recipientKeys := by
      rw [hs.recipients]
      exact mem_singleton.mpr rfl
    obtain ⟨destination, hde⟩ := isSome_iff_exists.mp (hro _ hme)
    obtain ⟨ls, hla⟩ := hs.admissible.labels
    have hl' : ∃ ls, presentationLabels [derived.recipient]
        ⟨sn.label, [⟨derived.recipient, destination.label⟩]⟩ = .ok ls := by
      have hv := hl.labelled.identityForRecipient hde
      have hd := presentationLabels_sender hla
      exact @presentationLabels_identities sn.label [⟨derived.recipient, destination.label⟩] hd
        (forall_mem_singleton.mpr hv)
    obtain ⟨a, hag, hre⟩ :=
      hs.retry hl.reachable hk hl' messageId env'.now env'.now
    refine ⟨a, ?_, hre⟩
    have hp : replyWithSummary l.directory l.store sn req d' env'.now = .ok (.answer a) :=
      replyWithSummary_eq_ok.mpr ⟨rf, derived, destination, messageId,
        resolveReference_advances h.reachable ha href hc,
        deriveReply_advances h.reachable ha hder, hde, hm, hag⟩
    rw [replyResult, hp]
    rfl

end

theorem labelled_run (workspaceId : WorkspaceId) (b : String)
    (ops : List Operation) : ((start workspaceId b).run ops).directory.Labelled := by
  refine Runs.foldl_invariant (fun d : Daemon => d.directory.Labelled) ?_
    (labelled_empty workspaceId)
  intro d op h
  unfold step
  split
  · exact h
  · split
    · exact h
    · next directory hn => exact labelled_new hn
  · exact h
  · unfold restart
    dsimp only
    split
    · exact h
    · exact labelled_empty _
  · split <;> exact h

theorem succeeds_run (workspaceId : WorkspaceId) (b : String) (ops more : List Operation)
    (op : Operation) :
    ((((start workspaceId b).run ops).step op).run more).Succeeds workspaceId
      (((start workspaceId b).run ops).step op).store := by
  have ho (ops : List Operation) (op : Operation) :
      ((start workspaceId b).run ops).step op = (start workspaceId b).run (ops ++ [op]) := by
    simp [run]
  have hm (ops more : List Operation) : ((start workspaceId b).run ops).run more =
      (start workspaceId b).run (ops ++ more) := by
    simp [run]
  rw [ho]
  have hs := sound_run workspaceId b (ops ++ [op])
  exact ⟨hs.reachable, (run_advances hs more).2, hm _ more ▸ labelled_run _ _ _⟩

end Daemon

open Daemon in
/-- A retry is answered with the first message exactly when it supersedes nothing (a send), or when
the attempt it refers to is still current (a reply). -/
theorem retry_answers_first_iff (workspaceId : WorkspaceId) (bootId : String)
    (ops : List Operation) (sender : MailboxIdentity) (draws draws' : List Uuid) (env env' : Env)
    (more : List Operation) (result : AcceptResult) (inserted : result.inserted = true) :
    let d := (Daemon.start workspaceId bootId).run ops
    (∀ (request : MailboxSend) (recipients recipients' : List MailboxIdentity),
      let later := (d.step (.send sender request draws env)).run more
      (d.sendResult sender request draws env).2 = .ok result →
      request.clientKey ≠ none →
      d.directory.resolveSend request = .ok recipients →
      later.directory.resolveSend request = .ok recipients' →
      recipients'.map MailboxIdentity.key = recipients.map MailboxIdentity.key →
      (later.store.mintMessageId none draws').isSome →
      (later.Repeated (later.sendResult sender request draws' env') result ↔
        request.supersedes = none)) ∧
    (∀ request : MailboxReply,
      let later := (d.step (.reply sender request draws env)).run more
      (d.replyResult sender request draws env).2 = .ok result →
      request.clientKey ≠ none →
      (∀ r ∈ result.recipientKeys, (later.directory.identityForRecipient r).isSome) →
      (later.store.mintMessageId (some result.threadRoot) draws').isSome →
      (later.Repeated (later.replyResult sender request draws' env') result ↔
        ReferenceCurrent later.store.projection request.reference)) := by
  have hs := sound_run workspaceId bootId ops
  refine ⟨fun request recipients recipients' => ?_, fun request => ?_⟩
  · intro later hok hk hr hr' hsa hm
    refine send_retry_iff hs hok inserted hk ?_ hr hr' hsa hm
    rw [← step_send]
    exact succeeds_run workspaceId bootId ops more _
  · intro later hok hk hro hm
    refine reply_retry_iff hs hok inserted hk ?_ hro hm
    rw [← step_reply]
    exact succeeds_run workspaceId bootId ops more _

def taskOps : List Operation := [ .replaceDirectory [sampleWorker], sampleTask "one" sampleDraw 1]

def keyedTask (supersedes : Option MessageId) : MailboxSend :=
  ⟨["worker"], none, "task", none, "two", false, some "key", supersedes, false⟩

def taskDaemon : Daemon :=
  letI := constantDigests
  (Daemon.start sampleWorkspace "boot").run taskOps

def retryDaemon (request : MailboxSend) : Daemon :=
  letI := constantDigests
  (taskDaemon.step (.send sampleAdmin request [sampleDraw'] ⟨2, .written⟩)).run
    [.claim sampleWorker.key sampleMessage ⟨3, .written⟩]

omit [DigestScheme] in
theorem keyed_task_repeated :
    letI := constantDigests
    let d := retryDaemon (keyedTask none)
    ∃ result, (taskDaemon.sendResult sampleAdmin (keyedTask none) [sampleDraw']
        ⟨2, .written⟩).2 = .ok result ∧ result.inserted = true ∧
      d.Repeated (d.sendResult sampleAdmin (keyedTask none) [3] ⟨4, .written⟩) result := by
  let := constantDigests
  obtain ⟨result, hok, hinserted⟩ :
      ∃ result, (taskDaemon.sendResult sampleAdmin (keyedTask none) [sampleDraw']
        ⟨2, .written⟩).2 = .ok result ∧ result.inserted = true :=
    exists_ok_of_toOption (by decide)
  have hr : taskDaemon.directory.resolveSend (keyedTask none) = .ok [sampleWorker] ∧
      (retryDaemon (keyedTask none)).directory.resolveSend (keyedTask none) = .ok [sampleWorker] :=
    ⟨rfl, rfl⟩
  have hm : ((retryDaemon (keyedTask none)).store.mintMessageId none [3]).isSome := by
    decide
  have hi := (retry_answers_first_iff sampleWorkspace "boot" taskOps sampleAdmin [sampleDraw'] [3]
    ⟨2, .written⟩ ⟨4, .written⟩ [.claim sampleWorker.key sampleMessage ⟨3, .written⟩] result
    hinserted).1 (keyedTask none) [sampleWorker] [sampleWorker]
  exact ⟨result, hok, hinserted, (hi hok (fun h => (nomatch h)) hr.1 hr.2 rfl hm).mpr rfl⟩

omit [DigestScheme] in
/-- A replacement settles the entry it replaces, and its own retry looks at that
entry before its client key. -/
theorem superseding_task_not_repeated :
    letI := constantDigests
    let request := keyedTask (some sampleMessage)
    let d := taskDaemon.step (.send sampleAdmin request [sampleDraw'] ⟨2, .written⟩)
    d.directory = taskDaemon.directory ∧
    ∃ result, (taskDaemon.sendResult sampleAdmin request [sampleDraw'] ⟨2, .written⟩).2 =
        .ok result ∧ result.inserted = true ∧
      ¬ d.Repeated (d.sendResult sampleAdmin request [3] ⟨3, .written⟩) result := by
  let := constantDigests
  obtain ⟨result, hok, hinserted⟩ :
      ∃ result, (taskDaemon.sendResult sampleAdmin (keyedTask (some sampleMessage)) [sampleDraw']
        ⟨2, .written⟩).2 = .ok result ∧ result.inserted = true :=
    exists_ok_of_toOption (by decide)
  refine ⟨rfl, result, hok, hinserted, ?_⟩
  rintro ⟨a, ha, -⟩
  have hr : ((taskDaemon.step (.send sampleAdmin (keyedTask (some sampleMessage))
      [sampleDraw'] ⟨2, .written⟩)).sendResult sampleAdmin (keyedTask (some sampleMessage)) [3]
        ⟨3, .written⟩).2.toOption = none := by
    decide
  rw [ha] at hr
  cases hr

end Cyclops
