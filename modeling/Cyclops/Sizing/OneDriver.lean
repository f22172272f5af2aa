import Cyclops.Sizing.Original

/-!
# One workspace sizes a session

Without releases, a workspace's command on a window of a session is carried out only while the
session's mark is the workspace's own.

Result: `one_workspace_sizes_a_session`.
-/

namespace Cyclops.Sizing

open Commands Prog Party List Option Nat WindowSizing Command FiniteMap WindowOptions World Runs
  PriorWindowSize Prod

/-! ## A workspace that quits -/

/-- A workspace whose client stays connected and whose commands are all answered. -/
def quitParty (L : Layout) (m : String) : Party Tmux Command (Option (List String)) where
  rely t u := Others (some L) m t u ∧ (m ∈ t.clients → m ∈ u.clients)
  exec t c answer u := m ∈ t.clients ∧ c.run m t = (u, answer) ∧ answer.isSome
  rely_refl _ := ⟨Others.refl, fun live => live⟩
  rely_trans first second := ⟨first.1.trans second.1, fun live => second.2 (first.2 live)⟩

def HandsBack (s : String) (pinned : List String) (t : Tmux) (_ : Command) (u : Tmux) : Prop :=
  u.driver s = t.driver s ∨ (u.driver s = none ∧ ∀ id ∈ pinned, (u.window id).record = none)

/-- The workspace holds the session, whose windows are as `options` says. -/
structure Handing (L : Layout) (m s : String) (options : String → WindowOptions) (t : Tmux) :
    Prop where
  live : m ∈ t.clients
  mark : t.driver s = some m
  window : ∀ id, L.home id = s → t.window id = options id

section

variable {L : Layout} {m s id : String} {pinned : List String} {t u : Tmux}
  {options : String → WindowOptions}

theorem handing_stable : (quitParty L m).Stable (Handing L m s options) := by
  rintro t u ⟨hl, mark, hw⟩ ⟨ho, hs⟩
  refine ⟨hs hl, ho.mark s (hs hl) mark, fun id home => ?_⟩
  rw [ho.window L rfl id (hs hl) (home ▸ mark)]
  exact hw id home

/-- A command on a window of the session: its answer and its effect. -/
theorem hand_window (pinned : List String) (k : WindowCommand) (home : L.home id = s)
    (hn : Handing L m s options t) :
    (quitParty L m).Safe (HandsBack s pinned)
      (fun ans t => (ans = (k.run (options id)).2 ∧ ans.isSome) ∧
        Handing L m s (Function.update options id (k.run (options id)).1) t)
      (.command (.window s id k)) t := by
  refine safe_command handing_stable (fun _ => stable_const.and handing_stable) ?_ hn
  rintro t ans u ⟨live, mark, window⟩ ⟨_, ran, han⟩
  have hc : u = { t with window := Function.update t.window id (k.run (t.window id)).1 } :=
    (congrArg fst ran).symm
  have ha : ans = (k.run (t.window id)).2 := (congrArg snd ran).symm
  subst hc
  rw [window id home] at ha
  refine ⟨.inl rfl, ⟨ha, han⟩, live, mark, fun other he => ?_⟩
  by_cases hs : other = id
  · subst hs
    simp [window other home]
  · simpa [hs] using window other he

/-- A window that can be put back: it has no record, or a readable one. -/
def WindowOptions.Restorable (o : WindowOptions) : Prop :=
  o.record = none ∨ o.recorded.isSome

def PutBack (L : Layout) (m s : String) (ids : List String) (options : String → WindowOptions)
    (t : Tmux) : Prop :=
  ∃ options', (∀ id ∈ ids, (options' id).record = none) ∧
    (∀ id, id ∉ ids → options' id = options id) ∧ Handing L m s options' t

variable {ids : List String}

theorem putBack_stable : (quitParty L m).Stable (PutBack L m s ids options) := by
  rintro t u ⟨o', back, same, hn⟩ ho
  exact ⟨o', back, same, handing_stable t u hn ho⟩

theorem PutBack.cons {o' : String → WindowOptions} (first : (o' id).record = none)
    (hs : ∀ other, other ≠ id → o' other = options other)
    (hr : PutBack L m s ids o' t) : PutBack L m s (id :: ids) options t := by
  obtain ⟨o'', back, others, hn⟩ := hr
  refine ⟨o'', fun id' ham => ?_, fun other ho => ?_, hn⟩
  · by_cases ha : id' ∈ ids
    · exact back id' ha
    · obtain rfl := (mem_cons.mp ham).resolve_right ha
      exact others id' ha ▸ first
  · rw [others other fun ham => ho (mem_cons_of_mem _ ham),
      hs other fun he => ho (he ▸ mem_cons_self)]

theorem restoreWindowSize_quits (home : L.home id = s) (hn : Handing L m s options t)
    (hr : (options id).Restorable) :
    (quitParty L m).Safe (HandsBack s pinned)
      (fun r t => (r = some .nothing ∨ r = some .exactly) ∧ PutBack L m s [id] options t)
      (restoreWindowSize s id).run t := by
  have hs : (quitParty L m).Safe (HandsBack s pinned)
      (fun raw t => raw = some (firstLine (options id).record.toList) ∧
        Handing L m s options t) (rawPriorWindowSize s id).run t := by
    have read := hand_window pinned .showRecord home hn
    simp only [WindowCommand.run, Function.update_eq_self] at read
    refine .map (fun _ => stable_const.and handing_stable) (read.weaken fun ans t hn => ?_)
    obtain ⟨⟨rfl, _⟩, hn⟩ := hn
    exact ⟨rfl, hn⟩
  refine hs.seq fun raw t hn => ?_
  obtain ⟨rfl, hn⟩ := hn
  cases first : firstLine (options id).record.toList with
  | none =>
    -- a blank record is not readable, so there is none
    have hb : (options id).record = none :=
      hr.resolve_right (by simp [firstLine_record first])
    exact safe_pure (stable_const.and putBack_stable)
      ⟨.inl rfl, options, by simpa using hb, fun _ _ => rfl, hn⟩
  | some raw =>
    have hre : (options id).recorded.isSome := by
      refine hr.resolve_left fun hm => ?_
      simp [hm, firstLine] at first
    obtain ⟨prior, hf⟩ := isSome_iff_exists.mp hre
    have hp : parse raw = some prior := (firstLine_recorded first).trans hf
    simp only [map_some, hp]
    refine (hand_window pinned prior.restore home hn).seq fun ans t hn => ?_
    obtain ⟨⟨_, ha⟩, hn⟩ := hn
    obtain ⟨ls, rfl⟩ := isSome_iff_exists.mp ha
    refine (hand_window pinned .unsetRecord home hn).seq fun ans t hn => ?_
    obtain ⟨⟨_, ha⟩, hn⟩ := hn
    obtain ⟨ls, rfl⟩ := isSome_iff_exists.mp ha
    refine safe_pure (stable_const.and putBack_stable) ⟨.inr rfl, _, ?_, fun other he => ?_, hn⟩
    · simp [WindowCommand.run]
    · simp [mem_singleton.not.mp he]

theorem restoreEach_quits (home : L.home id = s) (hn : Handing L m s options t)
    (hr : (options id).Restorable) : (quitParty L m).Safe (HandsBack s pinned)
      (fun r t => r = true ∧ PutBack L m s [id] options t)
      ((restoreWindowSize s id).run >>= fun oc => match oc with
        | some .malformed => pure false
        | some _ => pure true
        | none => pure false) t := by
  refine (restoreWindowSize_quits home hn hr).seq fun oc t hn => ?_
  obtain ⟨rfl | rfl, hn⟩ := hn
  · exact safe_pure (stable_const.and putBack_stable) ⟨rfl, hn⟩
  · exact safe_pure (stable_const.and putBack_stable) ⟨rfl, hn⟩

theorem restorePinned_quits (home : ∀ id ∈ ids, L.home id = s) (hn : Handing L m s options t)
    (hr : ∀ id ∈ ids, (options id).Restorable) :
    (quitParty L m).Safe (HandsBack s pinned)
      (fun r t => r = true ∧ PutBack L m s ids options t) (restorePinned s ⟨ids, []⟩) t := by
  unfold restorePinned
  induction ids generalizing options t with
  | nil =>
    exact safe_pure (stable_const.and putBack_stable) ⟨rfl, options, by simp, fun _ _ => rfl, hn⟩
  | cons id ids ih =>
    refine (restoreEach_quits (home id mem_cons_self) hn (hr id mem_cons_self)).seq fun r t hn => ?_
    obtain ⟨rfl, options', back, same, hn⟩ := hn
    have first : (options' id).record = none := back id (mem_singleton_self id)
    have same : ∀ other, other ≠ id → options' other = options other :=
      fun other he => same other (by simpa using he)
    have hre := ih (fun id' ha => home id' (mem_cons_of_mem _ ha)) hn fun id' ha => by
      -- a window listed twice is back already
      by_cases hag : id' = id
      · exact .inl (hag ▸ first)
      · exact same id' hag ▸ hr id' (mem_cons_of_mem _ ha)
    exact hre.weaken fun r t hn => ⟨hn.1, hn.2.cons first same⟩

theorem unmarked_stable : (quitParty L m).Stable fun t => t.driver s ≠ some m :=
  fun _ _ hu ho hm => hu (ho.1.written s m (.inl rfl) hm)

theorem restoreSession_quits (home : ∀ id ∈ ids, L.home id = s) (hn : Handing L m s options t)
    (hr : ∀ id ∈ ids, (options id).Restorable) :
    (quitParty L m).Safe (HandsBack s ids) (fun _ t => t.driver s ≠ some m)
      (restoreSession m s ⟨ids, []⟩) t := by
  have hs : (quitParty L m).Safe (HandsBack s ids)
      (fun held t => held = some (some m) ∧ Handing L m s options t) (windowDriver s).run t := by
    refine .map (fun _ => stable_const.and handing_stable) (safe_command handing_stable
      (fun _ => stable_const.and handing_stable) ?_ hn)
    rintro t ans u hn ⟨_, ran, _⟩
    obtain ⟨rfl, rfl⟩ := mk.inj ran
    exact ⟨.inl rfl, by simp [hn.mark], hn⟩
  refine hs.seq fun held t hn => ?_
  obtain ⟨rfl, hn⟩ := hn
  simp only
  refine (restorePinned_quits home hn hr).seq fun r t hn => ?_
  obtain ⟨rfl, options', back, _, hn⟩ := hn
  have hd : (quitParty L m).Safe (HandsBack s ids) (fun _ t => t.driver s ≠ some m)
      (.command (.unsetDriver s)) t := by
    refine safe_command handing_stable (fun _ => unmarked_stable) ?_ hn
    rintro t ans u hn ⟨_, ran, _⟩
    obtain ⟨rfl, rfl⟩ := mk.inj ran
    refine ⟨.inr ⟨by simp, fun id ha => ?_⟩, by simp⟩
    rw [← back id ha]
    exact congrArg record (hn.window id (home id ha))
  refine .seq (hd.seq fun ls t hu => ?_) fun _ t hu =>
    safe_pure unmarked_stable hu
  cases ls <;> exact safe_pure unmarked_stable hu

/-! ## The other sessions of the workspace -/

def About (home : String → String) (s : String) : Command → Prop
  | .showDriver s' | .unsetDriver s' => s' = s
  | .window s' id _ => s' = s ∧ home id = s
  | _ => False

variable {home : String → String}

theorem restoreWindowSize_sends (hat : home id = s) :
    (restoreWindowSize s id).run.Sends (About home s) := by
  have ha : ∀ k, About home s (.window s id k) := fun _ => ⟨rfl, hat⟩
  refine .andThen (.andThen (sends_command (ha _)) fun _ => sends_pure) fun raw => ?_
  cases raw.map parse with
  | none => exact sends_pure
  | some parsed =>
    cases parsed with
    | none => exact sends_pure
    | some =>
      exact .andThen (sends_command (ha _)) fun _ =>
        .andThen (sends_command (ha _)) fun _ => sends_pure

variable {o : OwnedSession} {s' : String}

theorem restoreSession_sends (hat : ∀ id ∈ o.pinned, home id = s) :
    (restoreSession m s o).Sends (About home s) := by
  refine .bind (.andThen (sends_command rfl) fun _ =>
    sends_pure) fun held => ?_
  split
  · split
    · refine .bind (sends_foldlM fun ha id ham => ?_) fun done => ?_
      · refine (restoreWindowSize_sends (hat id ham)).bind fun oc => ?_
        split <;> exact sends_pure
      · split
        · exact .bind (.andThen (sends_command rfl) fun _ =>
            sends_pure) fun _ => sends_pure
        · exact sends_pure
    · exact sends_pure
  · exact sends_pure

theorem About.frame {c : Command} {ans : Option (List String)} (ha : About L.home s' c)
    (ho : s' ≠ s) (ran : (quitParty L m).exec t c ans u) :
    u.clients = t.clients ∧ u.driver s = t.driver s ∧
      ∀ id, L.home id = s → u.window id = t.window id := by
  obtain ⟨_, ran, _⟩ := ran
  obtain rfl : (c.run m t).1 = u := congrArg fst ran
  cases c with
  | showDriver => exact ⟨rfl, rfl, fun _ _ => rfl⟩
  | unsetDriver x =>
    obtain rfl : x = s' := ha
    exact ⟨rfl, by simp [run, Ne.symm ho], fun _ _ => rfl⟩
  | window x id =>
    refine ⟨rfl, rfl, fun id' home => ?_⟩
    have hap : id' ≠ id := by
      rintro rfl
      exact ho (ha.2.symm.trans home)
    simp [run, hap]
  | _ => cases ha

theorem handing_frame (ho : s' ≠ s) (ha : ∀ id ∈ o.pinned, L.home id = s')
    (hn : Handing L m s options t) :
    (quitParty L m).Safe (HandsBack s pinned) (fun _ => Handing L m s options)
      (restoreSession m s' o) t := by
  refine safe_of_sends (restoreSession_sends ha) handing_stable ?_ hn
  intro t c ans u hab hn hr
  obtain ⟨hc, driver, hw⟩ := hab.frame ho hr
  exact ⟨.inl driver, hc ▸ hn.live, driver.trans hn.mark,
    fun id home => (hw id home).trans (hn.window id home)⟩

theorem unmarked_frame (ho : s' ≠ s) (ha : ∀ id ∈ o.pinned, L.home id = s')
    (hn : t.driver s ≠ some m) :
    (quitParty L m).Safe (HandsBack s pinned) (fun _ t => t.driver s ≠ some m)
      (restoreSession m s' o) t := by
  refine safe_of_sends (restoreSession_sends ha) unmarked_stable ?_ hn
  intro t c ans u hab hn hr
  obtain ⟨_, driver, _⟩ := hab.frame ho hr
  exact ⟨.inl driver, driver ▸ hn⟩

theorem restoreSessions_quit {es : List (Σ _ : String, OwnedSession)}
    (hd : es.Pairwise fun a b => a.1 < b.1) (ha : ⟨s, ⟨ids, []⟩⟩ ∈ es)
    (hat : ∀ e ∈ es, ∀ id ∈ e.2.pinned, L.home id = e.1) (hn : Handing L m s options t)
    (hr : ∀ id ∈ ids, (options id).Restorable) :
    (quitParty L m).Safe (HandsBack s ids) (fun _ t => t.driver s ≠ some m)
      (es.forM fun e => restoreSession m e.1 e.2) t := by
  induction es generalizing t with
  | nil => cases ha
  | cons e es ih =>
    obtain ⟨hl, hd⟩ := pairwise_cons.mp hd
    have ho : ∀ e ∈ es, ∀ id ∈ e.2.pinned, L.home id = e.1 :=
      fun e ha => hat e (mem_cons_of_mem _ ha)
    obtain rfl | ha := mem_cons.mp ha
    · refine (restoreSession_quits (hat _ mem_cons_self) hn hr).seq fun _ t hu => ?_
      exact safe_forM unmarked_stable (fun e ha t hu =>
        unmarked_frame (hl e ha).ne' (ho e ha) hu) hu
    · refine (handing_frame (hl _ ha).ne (hat e mem_cons_self) hn).seq fun _ t hn => ?_
      exact ih hd ha ho hn

end

/-! ## A workspace that owns a session knows its client -/

def WindowSizing.Named (sizing : WindowSizing) : Prop :=
  ∀ s, sizing.owns s → sizing.identity.isSome

variable {sizing : WindowSizing}

theorem WindowSizing.named_of_identity (hk : sizing.identity.isSome) : sizing.Named :=
  fun _ _ => hk

theorem WindowSizing.named_of_empty {identity : Option String} {following : List String} :
    Named { identity, owned := ∅, following } := by
  intro s owned
  simp [owns] at owned

theorem sizingIdentity_returns : (sizingIdentity sizing).Returns fun r =>
      r.1 = { sizing with identity := r.2 } ∧ (sizing.identity.isSome → r.2.isSome) := by
  unfold sizingIdentity
  cases hk : sizing.identity with
  | some => exact ⟨by simp [← hk], fun _ => rfl⟩
  | none =>
    refine returns_true.bind fun f _ => ?_
    cases f with
    | none => exact ⟨by simp [← hk], by simp⟩
    | some => exact ⟨rfl, fun _ => rfl⟩

variable {s : String}

def WindowSizing.Owner (r : WindowSizing × Bool) : Prop :=
  r.1.Named ∧ (r.2 → r.1.identity.isSome)

theorem WindowSizing.owner_of_identity {r : WindowSizing × Bool} (hk : r.1.identity.isSome) :
    Owner r :=
  ⟨named_of_identity hk, fun _ => hk⟩

theorem ownsSession_returns (hn : sizing.Named) : (ownsSession sizing s).Returns Owner := by
  unfold ownsSession
  split
  · next ho => exact ⟨hn, fun _ => hn s ho⟩
  · refine sizingIdentity_returns.bind fun r ha => ?_
    obtain ⟨sizing', identity⟩ := r
    obtain ⟨hsa, hst⟩ := ha
    dsimp only at hsa
    subst hsa
    cases identity with
    | none => exact ⟨fun s ho => hst (hn s ho), by simp⟩
    | some marker =>
      have hs : ∀ won, Owner (settle { sizing with identity := some marker } s won) := by
        intro won
        apply owner_of_identity
        match won with
        | none | some true | some false => rfl
      refine returns_true.bind fun held _ => ?_
      match held with
      | none => exact owner_of_identity rfl
      | some none => exact returns_true.bind fun won _ => hs won
      | some (some held) =>
        dsimp only
        split
        · exact hs _
        · refine returns_true.bind fun ls _ => ?_
          cases ls with
          | none => exact owner_of_identity rfl
          | some =>
            dsimp only
            split
            · exact owner_of_identity rfl
            · exact returns_true.bind fun won _ => hs won

variable {id : String}

theorem adoptWindow_returns {st : WindowSizing × Bool} (hk : st.1.identity.isSome) :
    (adoptWindow s st id).Returns fun st => st.1.identity.isSome := by
  refine returns_true.bind fun c _ => ?_
  match c with
  | none | some .malformed => exact hk
  | some (.record _) =>
    refine returns_true.bind fun pinned _ => ?_
    cases pinned <;> exact hk

theorem adoptWindows_returns {tabs : List String} (hn : sizing.Named) :
    (adoptWindows sizing s tabs).Returns fun r => r.1.Named := by
  refine (ownsSession_returns hn).bind fun r he => ?_
  obtain ⟨sizing, owns⟩ := r
  cases owns with
  | false => exact he.1
  | true =>
    refine .bind (returns_foldlM (fun _ _ hk => adoptWindow_returns hk) (he.2 rfl)) fun st hk => ?_
    exact named_of_identity hk

theorem restoreOwnedSizing_returns : (restoreOwnedSizing sizing).Returns Named := by
  unfold restoreOwnedSizing
  split
  · exact named_of_empty
  · exact returns_true.bind fun _ _ => named_of_empty

theorem rekeyOwnership_returns : (rekeyOwnership sizing).Returns Named := by
  unfold rekeyOwnership
  cases sizing.identity with
  | none => exact named_of_empty
  | some stale =>
    refine sizingIdentity_returns.bind fun r ha => ?_
    obtain ⟨sizing', identity⟩ := r
    obtain ⟨hs, _⟩ := ha
    dsimp only at hs
    subst hs
    cases identity with
    | none => exact named_of_empty
    | some marker =>
      have hke : ∀ sizing s, sizing.identity.isSome →
          (rekeySession stale marker sizing s).Returns fun sizing => sizing.identity.isSome := by
        intro sizing s hk
        refine returns_true.bind fun moved _ => ?_
        split <;> exact hk
      have hw : Returns (fun sizing => sizing.identity.isSome)
          (((ordered sizing.owned).map (·.1)).foldlM (rekeySession stale marker)
            { sizing with identity := some marker, following := [] }) :=
        returns_foldlM hke rfl
      exact hw.mono fun _ hk => named_of_identity hk

def World.Named (w : World) : Prop :=
  ∀ i a, w.workspace? i = some a → a.program.Returns WindowSizing.Named

section

variable {w : World} {i : Nat}

theorem World.Named.set {a : Option Workspace} (hn : w.Named)
    (hr : ∀ b, a = some b → b.program.Returns WindowSizing.Named) :
    (w.setWorkspace i a).Named := by
  intro j b hf
  obtain ⟨_, hs⟩ | ⟨_, hf⟩ := workspace?_set hf
  · exact hr b hs
  · exact hn j b hf

theorem World.Named.start {program : WindowSizing → Run WindowSizing} (hn : w.Named)
    (hr : ∀ sizing, sizing.Named → (program sizing).Returns WindowSizing.Named) :
    (w.start i program).Named := by
  unfold World.start
  split
  · next link sizing idle =>
    refine hn.set ?_
    rintro _ ⟨⟩
    exact hr sizing (hn i _ (idle?_eq_some idle))
  · exact hn

theorem World.Named.step (hn : w.Named) (e : Event) : (w.step e).Named := by
  cases e with simp only [World.step]
  | attach | operator | kill => split <;> exact hn
  | detach | arrange | release => exact hn
  | boot =>
    split
    · exact hn
    · intro j b hf
      obtain hf | ⟨_, rfl⟩ := workspace?_boot hf
      · exact hn j b hf
      · exact named_of_empty
  | adopt =>
    exact hn.start fun sizing hk =>
      (adoptWindows_returns hk).bind fun _ hk => hk
  | resize =>
    exact hn.start fun sizing hk => returns_true.bind fun _ _ => hk
  | handBack => exact hn.start fun _ _ => restoreOwnedSizing_returns
  | reconnect =>
    split
    · split
      · exact hn
      · refine hn.set ?_
        rintro _ ⟨⟩
        exact rekeyOwnership_returns
    · exact hn
  | crash =>
    split
    · exact hn.set (by simp)
    · exact hn
  | workspace i =>
    split
    · next link c next hf =>
      refine hn.set ?_
      rintro _ ⟨⟩
      exact hn i _ hf _
    · exact hn

end

/-! ## The length of a hand-back -/

theorem restoreWindowSize_within : (restoreWindowSize s id).run.Within 3 := by
  have hs : (rawPriorWindowSize s id).run.Within 1 :=
    .andThen (n := 1) (k := 0) within_command fun _ => within_pure
  refine .andThen (n := 1) (k := 2) hs fun raw => ?_
  cases raw.map parse with
  | none => exact within_pure
  | some parsed =>
    cases parsed with
    | none => exact within_pure
    | some =>
      exact .andThen (n := 1) (k := 1) within_command fun _ =>
        .andThen (n := 1) (k := 0) within_command fun _ => within_pure

def OwnedSession.handBackCost (o : OwnedSession) : Nat :=
  2 + 3 * o.pinned.length

theorem restoreSession_within {m : String} {o : OwnedSession} :
    (restoreSession m s o).Within o.handBackCost := by
  have hs : (windowDriver s).run.Within 1 :=
    .andThen (n := 1) (k := 0) within_command fun _ => within_pure
  have hd : (releaseWindowDriver s).run.Within 1 :=
    .andThen (n := 1) (k := 0) within_command fun _ => within_pure
  have hr : (restorePinned s o).Within (3 * o.pinned.length) := by
    refine within_foldlM fun ha id _ => ?_
    refine restoreWindowSize_within.bind (k := 0) fun oc => ?_
    split <;> exact within_pure
  have hc : o.handBackCost = 1 + (3 * o.pinned.length + (1 + 0)) := by
    unfold OwnedSession.handBackCost
    omega
  rw [hc]
  refine hs.bind fun held => ?_
  split
  · split
    · refine hr.bind fun done => ?_
      split
      · exact hd.bind fun _ => within_pure
      · exact within_pure
    · exact within_pure
  · exact within_pure

def WindowSizing.handBackCost (sizing : WindowSizing) : Nat :=
  ((FiniteMap.ordered sizing.owned).map fun e => e.2.handBackCost).sum

theorem restoreOwnedSizing_within : (restoreOwnedSizing sizing).Within sizing.handBackCost := by
  unfold restoreOwnedSizing
  split
  · exact within_pure
  · exact (within_forM fun e _ => restoreSession_within).bind (k := 0) fun _ => within_pure

/-! ## The run of a hand-back -/

/-- What the others may do, and what workspace `i` does, while it hands back. -/
def World.quits (i : Nat) (m : String) (w : World) : Event → Bool
  | .detach x => x ≠ m
  | .adopt j _ _ | .resize j _ | .handBack j | .reconnect j _ | .crash j => j ≠ i
  | .workspace j outcome => j ≠ i || outcome = .answered &&
      ((w.pending i).all fun c => (c.run m w.tmux).2.isSome)
  | _ => true

section

variable {g : Option Layout} {L : Layout} {w : World} {i : Nat} {m s : String} {e : Event}
  {p : Run WindowSizing}

def Event.sentBy (i : Nat) : Event → Bool
  | .workspace j _ => j = i
  | _ => false

variable {j : Nat} {a : Workspace}

theorem World.workspace?_set_of_ne {a : Option Workspace} (ho : j ≠ i) :
    (w.setWorkspace j a).workspace? i = w.workspace? i := by
  unfold workspace? setWorkspace
  rw [getElem?_set_ne ho]

theorem World.workspace?_set_self {b : Option Workspace} (hf : w.workspace? i = some a) :
    (w.setWorkspace i b).workspace? i = b := by
  unfold workspace? setWorkspace at *
  have hi : i < w.workspaces.length := by
    by_contra hp
    rw [getElem?_eq_none (Nat.le_of_not_lt hp)] at hf
    cases hf
  simp [hi]

theorem Command.clients_run {c : Command} {t : Tmux} : (c.run m t).1.clients = t.clients := by
  cases c with
  | createDriver | replaceDriver =>
    simp only [run]
    split <;> rfl
  | _ => rfl

variable {program : WindowSizing → Run WindowSizing} {n : Nat}

theorem World.workspace?_start_of_ne (ho : j ≠ i) :
    (w.start j program).workspace? i = w.workspace? i := by
  unfold start
  split
  · exact workspace?_set_of_ne ho
  · rfl

theorem World.tmux_start : (w.start j program).tmux = w.tmux := by
  unfold start
  split <;> rfl

structure Bystands (regime : Option Layout) (i : Nat) (a : Workspace) (w w' : World) : Prop where
  others : Others regime a.link w.tmux w'.tmux
  connected : a.link ∈ w.tmux.clients → a.link ∈ w'.tmux.clients
  program : w'.workspace? i = some a

theorem Bystands.of_tmux {w' : World} (hs : w'.tmux = w.tmux) (program : w'.workspace? i = some a) :
    Bystands g i a w w' :=
  ⟨hs ▸ Others.refl, hs ▸ fun hl => hl, program⟩

theorem Invariant.bystands (inv : Invariant g w) (hf : w.workspace? i = some a)
    (hc : w.Careful g e) (unreleased : w.releases = []) (hq : w.quits i a.link e)
    (hfo : e.sentBy i = false) :
    Bystands g i a w (w.step e) := by
  have hk := inv.known i a hf
  cases e with
  | attach =>
    simp only [World.step]
    split
    · exact .of_tmux rfl hf
    · next fresh => exact ⟨.connect fresh hk, mem_cons_of_mem _, hf⟩
  | detach x =>
    have ho : a.link ≠ x := .symm (by simpa [quits] using hq)
    exact ⟨.disconnect, fun hl => mem_filter.mpr ⟨hl, by simpa using ho⟩, hf⟩
  | arrange => exact ⟨.arrange hc, fun hl => hl, hf⟩
  | boot =>
    simp only [World.step]
    split
    · exact .of_tmux rfl hf
    · next fresh =>
      refine ⟨.connect fresh hk, mem_cons_of_mem _, ?_⟩
      unfold workspace? at hf ⊢
      rw [getElem?_append_left]
      · exact hf
      · by_contra hpa
        rw [getElem?_eq_none (Nat.le_of_not_lt hpa)] at hf
        cases hf
  | adopt j | resize j | handBack j =>
    have ho : j ≠ i := by simpa [quits] using hq
    exact .of_tmux tmux_start ((workspace?_start_of_ne ho).trans hf)
  | reconnect j =>
    have ho : j ≠ i := by simpa [quits] using hq
    simp only [World.step]
    split
    · next link sizing idle =>
      have theirs := idle?_eq_some idle
      have ha : a.link ≠ link := fun hs => ho (inv.apart j i _ a theirs hf hs.symm)
      split
      · exact .of_tmux rfl hf
      · next fresh =>
        refine ⟨Others.disconnect.trans (.connect fresh hk), fun hl => ?_,
          (workspace?_set_of_ne ho).trans hf⟩
        exact mem_cons_of_mem _ (mem_filter.mpr ⟨hl, by simpa using ha⟩)
    · exact .of_tmux rfl hf
  | crash j =>
    have ho : j ≠ i := by simpa [quits] using hq
    simp only [World.step]
    split
    · next b theirs =>
      have ha : a.link ≠ b.link := fun hs => ho (inv.apart j i b a theirs hf hs.symm)
      exact ⟨.disconnect, fun hl => mem_filter.mpr ⟨hl, by simpa using ha⟩,
        (workspace?_set_of_ne ho).trans hf⟩
    · exact .of_tmux rfl hf
  | workspace j oc =>
    have ho : j ≠ i := by simpa [Event.sentBy] using hfo
    simp only [World.step]
    split
    · next link c next theirs =>
      have hp : w.pending j = some c := by simp [World.pending, theirs, Prog.pending]
      have how : Owes g link w.tmux c
          (c.attempt link w.tmux (if link ∈ w.tmux.clients then oc else .refused)).1 :=
        (inv.command theirs rfl (hc c hp) rfl).1
      have ha : a.link ≠ link := fun hs => ho (inv.apart j i _ a theirs hf hs.symm)
      refine ⟨how.others ha, fun hl => ?_, (workspace?_set_of_ne ho).trans hf⟩
      rw [how.clients]
      exact hl
    · exact .of_tmux rfl hf
  | release => exact .of_tmux rfl hf
  | operator | kill =>
    simp only [World.step, unreleased]
    exact .of_tmux rfl hf

/-- The workspace `i` is handing `s` back, with at most `n` commands to go. -/
structure Quitting (L : Layout) (i : Nat) (m s : String) (ids : List String) (n : Nat)
    (p : Run WindowSizing) (w : World) : Prop where
  program : w.workspace? i = some ⟨m, p⟩
  live : m ∈ w.tmux.clients
  safe : (quitParty L m).Safe (HandsBack s ids) (fun _ t => t.driver s ≠ some m) p w.tmux
  within : p.Within n

def Tmux.HandedBack (t : Tmux) (s : String) (ids : List String) : Prop :=
  t.driver s = none ∧ ∀ id ∈ ids, (t.window id).record = none

variable {ids : List String}

theorem Invariant.quitting_step (inv : Invariant (some L) w) (hqui : Quitting L i m s ids n p w)
    (hc : w.Careful (some L) e) (hu : w.releases = []) (hq : w.quits i m e) :
    (∃ p', Quitting L i m s ids (n - (e.sentBy i).toNat) p' (w.step e)) ∧
      (w.tmux.driver s = some m →
        (w.step e).tmux.driver s = some m ∨ (w.step e).tmux.HandedBack s ids) := by
  obtain ⟨program, live, safe, hw⟩ := hqui
  cases hs : e.sentBy i with
  | false =>
    obtain ⟨ho, connected, found⟩ := inv.bystands program hc hu hq hs
    have stays := connected live
    exact ⟨⟨p, found, stays, safe.stable ⟨ho, fun _ => stays⟩, hw⟩,
      fun hm => .inl (ho.mark s stays hm)⟩
  | true =>
    cases e with
    | workspace j oc =>
      obtain rfl : j = i := by simpa [Event.sentBy] using hs
      cases p with
      | done =>
        have hi : w.step (.workspace j oc) = w := by simp [World.step, program]
        rw [hi]
        exact ⟨⟨_, program, live, safe, within_pure⟩, .inl⟩
      | call c next =>
        have hp : w.pending j = some c := by simp [World.pending, program, Prog.pending]
        obtain ⟨rfl, han⟩ : oc = .answered ∧ (c.run m w.tmux).2.isSome := by
          simpa [quits, hp] using hq
        have hst : w.step (.workspace j .answered) =
            { w.setWorkspace j (some ⟨m, next (c.run m w.tmux).2⟩) with
              tmux := (c.run m w.tmux).1 } := by
          simp [World.step, program, live, attempt]
        obtain ⟨ha, rest⟩ := safe.step (show (quitParty L m).exec w.tmux c
          (c.run m w.tmux).2 (c.run m w.tmux).1 from ⟨live, rfl, han⟩)
        rw [hst]
        refine ⟨⟨_, ?_, ?_, rest, ?_⟩, fun hm => ha.imp (fun hsa => hsa.trans hm) id⟩
        · exact workspace?_set_self program
        · exact (clients_run (c := c)).symm ▸ live
        · cases n with
          | zero => cases hw
          | succ => exact hw _
    | _ => cases hs

section

variable {ids : List String} {n : Nat} {quit : List Event}

section

variable (inv : Invariant (some L) w) (run : L.unreleased) (hqu : Quitting L i m s ids n p w)
    (hal : Runs.Along World.step (fun w e => w.Careful (some L) e ∧ w.quits i m e) w quit)

include inv run hqu hal

theorem Invariant.quitting_run :
    ∃ p', Quitting L i m s ids (n - quit.countP (·.sentBy i)) p' (quit.foldl World.step w) := by
  induction quit generalizing w n p with
  | nil => exact ⟨p, hqu⟩
  | cons e quit ih =>
    obtain ⟨⟨hc, hq⟩, hal⟩ := hal
    obtain ⟨⟨p', next⟩, _⟩ :=
      inv.quitting_step hqu hc (inv.unreleased L rfl run) hq
    obtain ⟨p'', hl⟩ := ih (inv.step hc) next hal
    refine ⟨p'', ?_⟩
    rw [countP_cons, Nat.add_comm, ← Nat.sub_sub]
    cases hs : e.sentBy i <;> simpa [hs] using hl

theorem Invariant.handedBack_run (hm : w.tmux.driver s = some m) :
    (quit.foldl World.step w).tmux.driver s = some m ∨ ∃ b after,
      quit = b ++ after ∧ (b.foldl World.step w).tmux.HandedBack s ids := by
  induction quit generalizing w n p with
  | nil => exact .inl hm
  | cons e quit ih =>
    obtain ⟨⟨hc, hq⟩, hal⟩ := hal
    obtain ⟨⟨p', next⟩, hd⟩ :=
      inv.quitting_step hqu hc (inv.unreleased L rfl run) hq
    obtain hm | ha := hd hm
    · refine (ih (inv.step hc) next hal hm).imp_right ?_
      rintro ⟨b, after, rfl, ha⟩
      exact ⟨e :: b, after, rfl, ha⟩
    · exact .inr ⟨[e], quit, rfl, ha⟩

end

end

theorem Quitting.done (hq : Quitting L i m s ids 0 p w) : (w.idle? i).isSome := by
  cases p with
  | done => simp [idle?, hq.program]
  | call => cases hq.within

theorem Quitting.unmarked (hq : Quitting L i m s ids n p w) (he : (w.idle? i).isSome) :
    w.tmux.driver s ≠ some m := by
  obtain ⟨⟨m', sizing⟩, hi⟩ := isSome_iff_exists.mp he
  have program := (idle?_eq_some hi).symm.trans hq.program
  obtain ⟨rfl, rfl⟩ := Workspace.mk.inj (some.inj program)
  exact hq.safe.result

theorem Invariant.quitting (inv : Invariant (some L) w) (hna : w.Named) (run : L.unreleased)
    {o : OwnedSession} (hi : w.idle? i = some (m, sizing))
    (hf : sizing.owned.lookup s = some o) (hr : o.blocked = []) (live : m ∈ w.tmux.clients)
    (mark : w.tmux.driver s = some m) :
    Quitting L i m s o.pinned sizing.handBackCost (restoreOwnedSizing sizing)
      (w.step (.handBack i)) := by
  have he := idle?_eq_some hi
  have hn : Remembers (some L) m sizing w.tmux := (inv.safe i _ he).result
  have hs : w.step (.handBack i) = w.setWorkspace i (some ⟨m, restoreOwnedSizing sizing⟩) := by
    simp [World.step, World.start, hi]
  have safe : (quitParty L m).Safe (HandsBack s o.pinned) (fun _ t => t.driver s ≠ some m)
      (restoreOwnedSizing sizing) w.tmux := by
    have ho : sizing.identity.isSome := hna i _ he s (owns_of_lookup hf)
    obtain ⟨x, hk⟩ := isSome_iff_exists.mp ho
    obtain rfl := hn.identity x hk
    obtain ⟨ids, b⟩ := o
    obtain rfl : b = [] := hr
    unfold restoreOwnedSizing
    simp only [hk]
    have hw := restoreSessions_quit (ordered_pairwise sizing.owned) (mem_ordered.mpr hf)
      (fun e ha id he => hn.housed e.1 e.2 (mem_ordered.mp ha) L rfl id he)
      ⟨live, mark, fun _ _ => rfl⟩
      fun id ha => .inr (hn.recorded s _ hf L rfl run id ha mark)
    exact hw.seq fun _ t hu => safe_pure unmarked_stable hu
  rw [hs]
  exact ⟨workspace?_set_self he, live, safe, restoreOwnedSizing_within⟩

end

/-! ## Runs without releases -/

def Event.isRelease : Event → Bool
  | .release _ => true
  | _ => false

def Event.unlinked (home : String → String) : Event → Bool
  | .arrange s windows => windows.all fun id => home id = s
  | .adopt _ s tabs => tabs.all fun id => home id = s
  | _ => true

section

variable {w : World} {e : Event}

theorem World.step_releases (hu : w.releases = []) (ho : e.isRelease = false) :
    (w.step e).releases = [] := by
  cases e with
  | release => cases ho
  | attach | boot | crash | workspace =>
    simp only [step]
    split <;> exact hu
  | detach | arrange => exact hu
  | adopt | resize | handBack =>
    simp only [step, start]
    split <;> exact hu
  | reconnect =>
    simp only [step]
    split
    · split <;> exact hu
    · exact hu
  | operator | kill => simp [step, hu]

variable {g : Option Layout}

theorem World.careful_of_unreleased (hu : w.releases = []) (ho : e.isRelease = false)
    (run : ∀ L ∈ g, L.unreleased) (hun : ∀ L ∈ g, e.unlinked L.home) :
    w.Careful g e := by
  cases e with
  | release => cases ho
  | arrange | adopt =>
    intro L hL id ha
    simpa using all_eq_true.mp (hun L hL) id ha
  | workspace =>
    refine fun c _ => ⟨fun s _ => by simp [releasing, hu], ?_⟩
    intro s id _ L hL hr
    simp [run L hL] at hr
  | _ => trivial

structure Unreleased (regime : Option Layout) (w : World) : Prop where
  inv : Invariant regime w
  named : w.Named
  releases : w.releases = []

theorem Unreleased.step (hn : Unreleased g w) (ho : e.isRelease = false)
    (run : ∀ L ∈ g, L.unreleased) (hu : ∀ L ∈ g, e.unlinked L.home) :
    Unreleased g (w.step e) where
  inv := hn.inv.step (careful_of_unreleased hn.releases ho run hu)
  named := hn.named.step e
  releases := step_releases hn.releases ho

variable {evs : List Event}

theorem Unreleased.run (hn : Unreleased g w) (run : ∀ L ∈ g, L.unreleased)
    (hot : ∀ e ∈ evs, e.isRelease = false ∧ ∀ L ∈ g, e.unlinked L.home) :
    Unreleased g (evs.foldl World.step w) := by
  have halo : Along .step (fun _ e => e.isRelease = false ∧ ∀ L ∈ g, e.unlinked L.home) w evs :=
    .of_forall fun e ha _ => hot e ha
  exact halo.invariant _ (fun w e hn ho => hn.step ho.1 run ho.2) hn

theorem Unreleased.along {ok : World → Event → Prop} (hn : Unreleased g w)
    (run : ∀ L ∈ g, L.unreleased)
    (ho : ∀ e ∈ evs, e.isRelease = false ∧ ∀ L ∈ g, e.unlinked L.home)
    (halo : Runs.Along World.step ok w evs) :
    Runs.Along World.step (fun w e => w.Careful g e ∧ ok w e) w evs := by
  induction evs generalizing w with
  | nil => trivial
  | cons e evs ih =>
    obtain ⟨hot, hu⟩ := ho e mem_cons_self
    refine ⟨⟨careful_of_unreleased hn.releases hot run hu, halo.1⟩, ?_⟩
    exact ih (hn.step hot run hu) (fun e ha => ho e (mem_cons_of_mem _ ha)) halo.2

theorem Unreleased.start {t : Tmux} (hg : Good g t) : Unreleased g ⟨t, [], []⟩ where
  inv := ⟨hg, by simp [workspace?], by simp [workspace?], by simp [workspace?], by simp, by simp⟩
  named i a found := by simp [workspace?] at found
  releases := rfl

theorem Invariant.owner (inv : Invariant g w)
    (hc : w.Careful g (.workspace i .refused)) {a : Workspace} {id : String}
    {k : WindowCommand} (found : w.workspace? i = some a)
    (hp : a.program.pending = some (.window s id k)) (hw : k.writes)
    (hl : a.link ∈ w.tmux.clients) : w.tmux.driver s = some a.link := by
  obtain ⟨link, p⟩ := a
  cases p with
  | done => cases hp
  | call c =>
    obtain rfl : c = .window s id k := some.inj hp
    have hs : w.pending i = some (.window s id k) := by
      simp [World.pending, found, hp]
    have ho : Owes g link w.tmux (.window s id k) (attempt link w.tmux (.window s id k)
          (if link ∈ w.tmux.clients then .refused else .refused)).1 :=
      (inv.command found rfl (hc _ hs) rfl).1
    exact ho.owner s id k rfl hw hl

end

def pinsWindow : List Event :=
  [.boot "a:1", .adopt 0 "main" ["@1"]] ++ commands 0 9

/-- One window `@1`, linked into the sessions `main` and `side`. -/
def linked : Tmux :=
  { untouched with windows := fun s => if s = "main" ∨ s = "side" then ["@1"] else [] }

/-- Another workspace finds the window's record before the first hands `side` back. -/
def pinsLinkedWindow : List Event :=
  [.boot "a:1", .boot "b:2", .adopt 1 "side" ["@1"]] ++ commands 1 9 ++
    [.adopt 0 "main" ["@1"]] ++ commands 0 5 ++ [.handBack 1] ++ commands 1 5 ++ commands 0 1

end Cyclops.Sizing
