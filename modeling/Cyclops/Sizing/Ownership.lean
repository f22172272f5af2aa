import Cyclops.Lib.Runs
import Cyclops.Sizing.Protocol

/-!
# What workspaces and releases owe each other

A workspace writes to the windows of a session only while the session's mark names its own live
client.

Results: `safe_window`, `safe_read`.
-/

namespace Cyclops.Sizing

open Commands PriorWindowSize WindowOptions List Option Function WindowCommand WindowSize Party Texts
  Captured

/-! ## Windows -/

def WindowOptions.policy (o : WindowOptions) : PriorWindowSize :=
  match o.size with
  | none => .inherited
  | some size => .explicit size.text

def WindowOptions.recorded (o : WindowOptions) : Option PriorWindowSize :=
  o.record.bind parse

/-- A readable record names the original policy; a window without one follows it. -/
def WindowOptions.Kept (original : PriorWindowSize) (o : WindowOptions) : Prop :=
  match o.recorded with
  | some prior => prior = original
  | none => o.policy = original

variable {o : WindowOptions} {original : PriorWindowSize}

theorem WindowOptions.Kept.of_recorded (hs : o.recorded = some original) : o.Kept original := by
  simp only [Kept, hs]

theorem WindowOptions.Kept.of_policy (none : o.recorded = none) (hs : o.policy = original) :
    o.Kept original := by
  simp only [Kept, none, hs]

theorem WindowOptions.Kept.recorded_eq {p : PriorWindowSize} (hk : o.Kept original)
    (hf : o.recorded = some p) : p = original := by
  simpa only [Kept, hf] using hk

theorem WindowOptions.Kept.policy_eq (hk : o.Kept original) (none : o.recorded = none) :
    o.policy = original := by
  simpa only [Kept, none] using hk

theorem WindowSize.text_of_ofText {value : String} {size : WindowSize}
    (hf : ofText value = some size) : size.text = value := by
  simpa using find?_some hf

theorem WindowOptions.parse_encode_policy (o : WindowOptions) :
    parse o.policy.encode = some o.policy := by
  unfold policy
  cases o.size with
  | none => decide
  | some size => cases size <;> decide

theorem WindowOptions.ofLines_size (o : WindowOptions) :
    ofLines (o.size.map text).toList = o.policy := by
  unfold policy
  cases o.size with
  | none => decide
  | some size => cases size <;> decide

theorem PriorWindowSize.restore_policy {p : PriorWindowSize} {ls : List String}
    (ha : (p.restore.run o).2 = some ls) :
    (p.restore.run o).1.policy = p := by
  cases p with
  | inherited => rfl
  | explicit value =>
    simp only [restore, run] at ha ⊢
    cases hf : ofText value with
    | none => simp [hf] at ha
    | some => simp [policy, text_of_ofText hf]

theorem PriorWindowSize.restore_record (p : PriorWindowSize) (o : WindowOptions) :
    (p.restore.run o).1.record = o.record := by
  cases p with
  | inherited => rfl
  | explicit value =>
    simp only [restore, run]
    cases ofText value <;> rfl

theorem PriorWindowSize.parse_trimText (raw : String) : parse (trimText raw) = parse raw := by
  simp only [parse, trimText, String.toList_ofList, trim_trim]

theorem firstLine_recorded {raw : String} (hf : firstLine o.record.toList = some raw) :
    parse raw = o.recorded := by
  unfold recorded
  cases ht : o.record with
  | none => simp [ht, firstLine] at hf
  | some =>
    simp only [ht, firstLine, toList, head?, map_some, filter_eq_some_iff, some.injEq] at hf
    rw [← hf.1, parse_trimText, bind_some]

theorem firstLine_record (hb : firstLine o.record.toList = none) : o.recorded = none := by
  unfold recorded
  cases hr : o.record with
  | none => rfl
  | some =>
    simp only [hr, firstLine, toList, head?, map_some,
      filter_eq_none_iff, decide_not, Bool.not_eq_true', decide_eq_false_iff_not,
      not_not] at hb
    simp only [bind_some, parse, hb]
    decide

/-! ## What is always true of the server -/

/-- Where each window is shown, and the policy it had originally. -/
structure Layout where
  home : String → String
  original : String → PriorWindowSize
  /-- No release is run. -/
  unreleased : Bool

structure Good (regime : Option Layout) (t : Tmux) : Prop where
  marked : ∀ s x, t.driver s = some x → x ∈ t.known
  connected : ∀ x ∈ t.clients, x ∈ t.known
  kept : ∀ L ∈ regime, ∀ id, (t.window id).Kept (L.original id)
  housed : ∀ L ∈ regime, ∀ s, ∀ id ∈ t.windows s, L.home id = s

def Free (t : Tmux) (s : String) : Prop :=
  ∀ x, t.driver s = some x → x ∉ t.clients

structure Calm (regime : Option Layout) (t u : Tmux) : Prop where
  good : Good regime t → Good regime u
  known : ∀ x ∈ t.known, x ∈ u.known
  dead : ∀ x ∈ t.known, x ∈ u.clients → x ∈ t.clients

def Settled (m : String) (t : Tmux) (x : String) : Prop :=
  x = m ∨ (x ∈ t.known ∧ x ∉ t.clients)

/-- Nobody takes the workspace's mark while it lives, nor touches the windows it has marked. -/
structure Others (regime : Option Layout) (m : String) (t u : Tmux) : Prop
    extends Calm regime t u where
  live : m ∈ u.clients → m ∈ t.clients
  mark : ∀ s, m ∈ u.clients → t.driver s = some m → u.driver s = some m
  window : ∀ L ∈ regime, ∀ id, m ∈ u.clients → t.driver (L.home id) = some m →
    u.window id = t.window id
  written : ∀ s x, Settled m t x → u.driver s = some x → t.driver s = some x
  left : ∀ L ∈ regime, L.unreleased → ∀ id x, Settled m t x → u.driver (L.home id) = some x →
    u.window id = t.window id

/-- What a release of `s` relies on: nobody gains the mark of `s`, and a window of `s` that is
back stays so. -/
structure Releasing (regime : Option Layout) (s : String) (t u : Tmux) : Prop
    extends Calm regime t u where
  mark : u.driver s = t.driver s ∨ u.driver s = none
  window : Good regime t → Free t s → ∀ L ∈ regime, ∀ id, L.home id = s →
    (t.window id).policy = L.original id → (u.window id).policy = L.original id

section

variable {g : Option Layout} {m s : String} {t u v : Tmux}

theorem Calm.refl : Calm g t t :=
  ⟨fun h => h, fun _ h => h, fun _ _ h => h⟩

theorem Calm.trans (first : Calm g t u) (hs : Calm g u v) : Calm g t v where
  good h := hs.good (first.good h)
  known x h := hs.known x (first.known x h)
  dead x h live := first.dead x h (hs.dead x (first.known x h) live)

theorem Others.refl : Others g m t t where
  toCalm := .refl
  live h := h
  mark _ _ h := h
  window _ _ _ _ _ := rfl
  written _ _ _ h := h
  left _ _ _ _ _ _ _ := rfl

theorem Calm.settled (hc : Calm g t u) {x : String} (hs : Settled m t x) : Settled m u x :=
  hs.imp_right fun ⟨hk, hg⟩ =>
    ⟨hc.known x hk, fun hl => hg (hc.dead x hk hl)⟩

theorem Others.trans (first : Others g m t u) (hs : Others g m u v) : Others g m t v where
  toCalm := first.toCalm.trans hs.toCalm
  live h := first.live (hs.live h)
  mark s live h := hs.mark s live (first.mark s (hs.live live) h)
  window L hL id live h := by
    have hb := hs.live live
    rw [hs.window L hL id live (first.mark _ hb h), first.window L hL id hb h]
  written s x settled h :=
    first.written s x settled (hs.written s x (first.settled settled) h)
  left L hL unreleased id x settled h := by
    have hl := first.settled settled
    rw [hs.left L hL unreleased id x hl h,
      first.left L hL unreleased id x settled (hs.written _ x hl h)]

theorem Releasing.free (ho : Releasing g s t u) (hg : Good g t) (hf : Free t s) : Free u s := by
  intro x hm hl
  obtain hs | none := ho.mark
  · rw [hs] at hm
    exact hf x hm (ho.dead x (hg.marked s x hm) hl)
  · rw [none] at hm
    cases hm

theorem Releasing.refl : Releasing g s t t where
  toCalm := .refl
  mark := .inl rfl
  window _ _ _ _ _ _ h := h

theorem Releasing.trans (first : Releasing g s t u) (hs : Releasing g s u v) :
    Releasing g s t v where
  toCalm := first.toCalm.trans hs.toCalm
  mark := by
    obtain hsa | none := hs.mark
    · rw [hsa]
      exact first.mark
    · exact .inr none
  window good free L hL id at_home back := by
    have hb := first.window good free L hL id at_home back
    exact hs.window (first.good good) (first.free good free) L hL id at_home hb

end

/-! ## The two parties -/

/-- What the runs below let a command meet: where releases are run, a window is resized only
while it has a record. -/
def Allowed (regime : Option Layout) (t : Tmux) (c : Command) : Prop :=
  ∀ s id, c = .window s id .resize → ∀ L ∈ regime, L.unreleased = false →
    (t.window id).recorded.isSome

def workspaceParty (regime : Option Layout) (m : String) :
    Party Tmux Command (Option (List String)) where
  rely := Others regime m
  exec t c answer u := Allowed regime t c ∧
    ∃ outcome, c.attempt m t (if m ∈ t.clients then outcome else .refused) = (u, answer)
  rely_refl _ := Others.refl
  rely_trans := Others.trans

def releaseParty (regime : Option Layout) (s : String) :
    Party Tmux Command (Option (List String)) where
  rely := Releasing regime s
  exec t c answer u := ∃ outcome, c.attempt "" t outcome = (u, answer)
  rely_refl _ := Releasing.refl
  rely_trans := Releasing.trans

structure Owes (regime : Option Layout) (m : String) (t : Tmux) (c : Command) (u : Tmux) :
    Prop where
  good : Good regime t → Good regime u
  clients : u.clients = t.clients
  known : u.known = t.known
  mark : ∀ s x, x ≠ m → x ∈ t.clients → t.driver s = some x → u.driver s = some x
  window : ∀ L ∈ regime, ∀ id, ¬(m ∈ t.clients ∧ t.driver (L.home id) = some m) →
    u.window id = t.window id
  owner : ∀ s id k, c = .window s id k → k.writes → m ∈ t.clients → t.driver s = some m
  gained : ∀ s, u.driver s = t.driver s ∨ u.driver s = none ∨
    (m ∈ t.clients ∧ u.driver s = some m)

structure Holds (regime : Option Layout) (m : String) (t : Tmux) (c : Command) (u : Tmux) : Prop
    extends Owes regime m t c u where
  own : ∀ s, m ∈ t.clients → t.driver s = some m → u.driver s = some m

structure Keeps (regime : Option Layout) (m : String) (t : Tmux) (c : Command) (u : Tmux) : Prop
    extends Holds regime m t c u where
  records : ∀ id, (t.window id).recorded.isSome → (u.window id).recorded.isSome

abbrev KeepsSafe {α : Type} (regime : Option Layout) (m : String) (post : α → Tmux → Prop)
    (p : Run α) (t : Tmux) : Prop :=
  (workspaceParty regime m).Safe (Keeps regime m) post p t

/-- What a release owes the others. -/
structure Yields (regime : Option Layout) (t : Tmux) (_ : Command) (u : Tmux) : Prop where
  good : Good regime t → Good regime u
  clients : u.clients = t.clients
  known : u.known = t.known
  mark : ∀ s, u.driver s = t.driver s ∨ (u.driver s = none ∧ Free t s)
  window : ∀ L ∈ regime, ∀ id, u.window id = t.window id ∨
    (Free t (L.home id) ∧ ((t.window id).policy = L.original id →
      (u.window id).policy = L.original id))

section

variable {g : Option Layout} {m s : String} {t u : Tmux} {c : Command}

theorem Owes.calm (ho : Owes g m t c u) : Calm g t u where
  good := ho.good
  known _ h := ho.known ▸ h
  dead _ _ live := ho.clients ▸ live

theorem Settled.ne {x m' : String} (hs : Settled m' t x) (hl : m ∈ t.clients)
    (ha : m' ≠ m) : x ≠ m := by
  rintro rfl
  obtain rfl | ⟨_, hg⟩ := hs
  · exact ha rfl
  · exact hg hl

theorem Owes.others (ho : Owes g m t c u) {m' : String} (ha : m' ≠ m) : Others g m' t u where
  toCalm := ho.calm
  live h := ho.clients ▸ h
  mark s live h := ho.mark s m' ha (ho.clients ▸ live) h
  window L hL id live h := by
    refine ho.window L hL id fun ⟨_, hm⟩ => ha ?_
    exact some.inj (h.symm.trans hm)
  written s x settled h := by
    obtain hs | none | ⟨live, hm⟩ := ho.gained s
    · rw [← hs, h]
    · rw [none] at h
      cases h
    · exact absurd (settled.ne live ha) (not_not.mpr (some.inj (h.symm.trans hm)))
  left L hL _ id x settled h := by
    refine ho.window L hL id fun ⟨live, hm⟩ => settled.ne live ha ?_
    obtain hs | none | ⟨_, hag⟩ := ho.gained (L.home id)
    · exact some.inj (h.symm.trans (hs.trans hm))
    · rw [none] at h
      cases h
    · exact some.inj (h.symm.trans hag)

theorem Owes.releasing (ho : Owes g m t c u)
    (hn : u.driver s = t.driver s ∨ u.driver s = none) : Releasing g s t u where
  toCalm := ho.calm
  mark := hn
  window _ free L hL id at_home back := by
    rw [ho.window L hL id fun ⟨hl, hm⟩ => free m (at_home ▸ hm) hl]
    exact back

theorem Yields.calm (ho : Yields g t c u) : Calm g t u where
  good := ho.good
  known _ h := ho.known ▸ h
  dead _ _ live := ho.clients ▸ live

theorem Yields.others (ho : Yields g t c u)
    (hr : ∀ L ∈ g, L.unreleased = false) : Others g m t u where
  toCalm := ho.calm
  live h := ho.clients ▸ h
  mark s live h := by
    obtain hs | ⟨_, hf⟩ := ho.mark s
    · rw [hs, h]
    · exact absurd (ho.clients ▸ live) (hf m h)
  window L hL id live h := by
    obtain hs | ⟨hf, _⟩ := ho.window L hL id
    · exact hs
    · exact absurd (ho.clients ▸ live) (hf m h)
  written s x _ h := by
    obtain hs | ⟨none, _⟩ := ho.mark s
    · rw [← hs, h]
    · rw [none] at h
      cases h
  left L hL unreleased := by simp [hr L hL] at unreleased

theorem Yields.releasing (ho : Yields g t c u) : Releasing g s t u where
  toCalm := ho.calm
  mark := (ho.mark s).imp_right And.left
  window _ _ L hL id _ back := by
    obtain hsa | ⟨_, hs⟩ := ho.window L hL id
    · rw [hsa, back]
    · exact hs back

end

/-! ## One command of a workspace -/

section

variable {g : Option Layout} {m s id : String} {t u : Tmux} {c : Command}

theorem Command.attempt_cases {caller : String} {oc : Outcome} {ans : Option (List String)}
    (ran : c.attempt caller t oc = (u, ans)) :
    (u = t ∧ ans = none) ∨ (oc ≠ .refused ∧ u = (c.run caller t).1 ∧
        (ans = none ∨ ans = (c.run caller t).2)) := by
  obtain rfl : _ = u := congrArg Prod.fst ran
  obtain rfl : _ = ans := congrArg Prod.snd ran
  cases oc with
  | answered => exact .inr ⟨nofun, rfl, .inr rfl⟩
  | refused => exact .inl ⟨rfl, rfl⟩
  | lost => exact .inr ⟨nofun, rfl, .inl rfl⟩

theorem workspace_exec {ans : Option (List String)} (ran : (workspaceParty g m).exec t c ans u) :
    (u = t ∧ ans = none) ∨
      (m ∈ t.clients ∧ u = (c.run m t).1 ∧ (ans = none ∨ ans = (c.run m t).2)) := by
  obtain ⟨_, outcome, ran⟩ := ran
  exact (Command.attempt_cases ran).imp_right fun ⟨hs, hd⟩ =>
    ⟨by_contra fun hg => hs (if_neg hg), hd⟩

theorem Keeps.unchanged
    (owner : ∀ s id k, c = .window s id k → k.writes → m ∈ t.clients → t.driver s = some m) :
    Keeps g m t c t where
  good h := h
  clients := rfl
  known := rfl
  mark _ _ _ _ h := h
  window _ _ _ _ := rfl
  owner := owner
  gained _ := .inl rfl
  own _ _ h := h
  records _ h := h

def Command.reads : Command → Bool
  | .createDriver .. | .replaceDriver .. | .unsetDriver .. => false
  | .window _ _ k => !k.writes
  | _ => true

theorem Command.run_of_reads (hr : c.reads) (t : Tmux) : (c.run m t).1 = t := by
  cases c with
  | window s id k =>
    cases k <;> simp_all [Command.reads, WindowCommand.writes, Command.run, WindowCommand.run]
  | createDriver | replaceDriver | unsetDriver => cases hr
  | _ => rfl

theorem Keeps.of_reads (hr : c.reads) : Keeps g m t c t := by
  refine .unchanged fun s id k hs hw => ?_
  subst hs
  simp [Command.reads, hw] at hr

theorem safe_read {guar : Tmux → Command → Tmux → Prop} {pre : Tmux → Prop}
    {post : Option (List String) → Tmux → Prop} (hr : c.reads) (hs : ∀ t, guar t c t)
    (hb : (workspaceParty g m).Stable pre)
    (haf : ∀ ans, (workspaceParty g m).Stable (post ans))
    (hf : ∀ t, pre t → post none t)
    (ha : ∀ t, pre t → m ∈ t.clients → post (c.run m t).2 t) (holds : pre t) :
    (workspaceParty g m).Safe guar post (.command c) t := by
  refine safe_command hb haf ?_ holds
  intro t ans u hn ran
  obtain ⟨rfl, rfl⟩ | ⟨hl, rfl, rfl | rfl⟩ := workspace_exec ran
  · exact ⟨hs _, hf _ hn⟩
  · rw [Command.run_of_reads hr]
    exact ⟨hs _, hf _ hn⟩
  · rw [Command.run_of_reads hr]
    exact ⟨hs _, ha _ hn hl⟩

theorem good_stable : (workspaceParty g m).Stable (Good g) :=
  fun _ _ hg ho => ho.good hg

def Holding (regime : Option Layout) (m s : String) (t : Tmux) : Prop :=
  Good regime t ∧ (m ∈ t.clients → t.driver s = some m)

theorem mark_stable : (workspaceParty g m).Stable fun t =>
    m ∈ t.clients → t.driver s = some m :=
  fun _ _ held ho hl => ho.mark s hl (held (ho.live hl))

theorem holding_stable : (workspaceParty g m).Stable (Holding g m s) :=
  good_stable.and mark_stable

/-- While the mark is the workspace's own, something is true of the window's options. -/
structure Has (regime : Option Layout) (m s id : String) (fact : Layout → WindowOptions → Prop)
    (t : Tmux) : Prop where
  holding : Holding regime m s t
  fact : ∀ L ∈ regime, t.driver s = some m → (m ∈ t.clients ∨ L.unreleased) →
    fact L (t.window id)

variable {fact : Layout → WindowOptions → Prop} {k : WindowCommand} {o : WindowOptions}
  {original : PriorWindowSize}

theorem has_stable (fits : ∀ L ∈ g, L.home id = s) :
    (workspaceParty g m).Stable (Has g m s id fact) := by
  rintro t u ⟨held, fact⟩ ho
  refine ⟨holding_stable t u held ho, fun L hL hm hk => ?_⟩
  have hb := ho.written s m (.inl rfl) hm
  obtain hl | hu := hk
  · rw [ho.window L hL id hl (fits L hL ▸ hb)]
    exact fact L hL hb (.inl (ho.live hl))
  · rw [ho.left L hL hu id m (.inl rfl) (fits L hL ▸ hm)]
    exact fact L hL hb (.inr hu)

theorem Has.weaken {fact' : Layout → WindowOptions → Prop} (has : Has g m s id fact t)
    (hw : ∀ L o, fact L o → fact' L o) : Has g m s id fact' t :=
  ⟨has.holding, fun L hL hm hk => hw L _ (has.fact L hL hm hk)⟩

theorem Holding.has (held : Holding g m s t) : Has g m s id (fun _ _ => True) t :=
  ⟨held, fun _ _ _ _ => trivial⟩

theorem WindowCommand.recorded_run (hs : k ≠ .unsetRecord) (hf : o.recorded.isSome) :
    (k.run o).1.recorded.isSome := by
  cases k with
  | unsetRecord => exact absurd rfl hs
  | createRecord =>
    unfold recorded at hf
    cases hr : o.record with
    | none => simp [hr] at hf
    | some => simpa [run, recorded, hr] using hf
  | setSize value =>
    simp only [run]
    cases ofText value <;> exact hf
  | showRecord | showSize | unsetSize | resize => exact hf

theorem Good.window (hg : Good g t) (kept : ∀ L ∈ g, o.Kept (L.original id)) :
    Good g { t with window := update t.window id o } where
  __ := hg
  kept L hL other := by
    by_cases hs : other = id
    · subst hs
      simpa using kept L hL
    · simpa [hs] using hg.kept L hL other

section Window

variable (fact' : Option (List String) → Layout → WindowOptions → Prop)
  (fits : ∀ L ∈ g, L.home id = s)
  (ran : ∀ L ∈ g, ∀ o : WindowOptions, o.Kept (L.original id) → fact L o →
    (k = .resize → L.unreleased = false → o.recorded.isSome) →
    (k.run o).1.Kept (L.original id) ∧ fact' (k.run o).2 L (k.run o).1 ∧
      fact' none L (k.run o).1 ∧ fact' none L o) (has : Has g m s id fact t)

include fits ran has

theorem holds_window : (workspaceParty g m).Safe
      (fun t c u => Holds g m t c u ∧ (k ≠ .unsetRecord → Keeps g m t c u))
      (fun a => Has g m s id (fact' a)) (.command (.window s id k)) t := by
  refine safe_command (has_stable fits) (fun _ => has_stable fits) ?_ has
  rintro t answer u ⟨⟨hg, held⟩, fact⟩ hst
  have ha : ∀ L ∈ g, k = .resize → L.unreleased = false → (t.window id).recorded.isSome :=
    fun L hL hs => hst.1 s id (hs ▸ rfl) L hL
  have owner : ∀ s' id' k', Command.window s id k = .window s' id' k' → k'.writes →
      m ∈ t.clients → t.driver s' = some m := by
    rintro _ _ _ ⟨⟩ _ hl
    exact held hl
  have hf := fun L hL hm hk =>
    ran L hL (t.window id) (hg.kept L hL id) (fact L hL hm hk) (ha L hL)
  obtain ⟨rfl, rfl⟩ | ⟨hl, rfl, answer⟩ := workspace_exec hst
  · have hs : Keeps g m u (.window s id k) u := .unchanged owner
    refine ⟨⟨hs.toHolds, fun _ => hs⟩, ⟨hg, held⟩, fun L hL hm hk => ?_⟩
    exact (hf L hL hm hk).2.2.2
  · have hm := held hl
    have hn := fun L hL => hf L hL hm (.inl hl)
    simp only [Command.run] at answer ⊢
    have holds : Holds g m t (.window s id k)
        { t with window := update t.window id (k.run (t.window id)).1 } := by
      refine ⟨⟨?_, rfl, rfl, fun _ _ _ _ h => h, ?_, owner, fun _ => .inl rfl⟩, fun _ _ h => h⟩
      · exact fun hg => hg.window fun L hL => (hn L hL).1
      · intro L hL other ho
        by_cases hs : other = id
        · subst hs
          exact absurd ⟨hl, fits L hL ▸ hm⟩ ho
        · exact update_of_ne hs _ _
    refine ⟨⟨holds, fun hsp => ⟨holds, fun other hfo => ?_⟩⟩, ?_⟩
    · by_cases hs : other = id
      · subst hs
        simpa using recorded_run hsp hfo
      · simpa [hs] using hfo
    · refine ⟨⟨hg.window fun L hL => (hn L hL).1, fun _ => hm⟩, fun L hL _ _ => ?_⟩
      simp only [update_self]
      obtain rfl | rfl := answer
      · exact (hn L hL).2.2.1
      · exact (hn L hL).2.1

theorem safe_window (hs : k ≠ .unsetRecord) :
    KeepsSafe g m (fun a => Has g m s id (fact' a)) (.command (.window s id k)) t :=
  (holds_window fact' fits ran has).mono (fun _ _ _ hk => hk.2 hs) fun _ _ has => has

end Window

/-! ## A workspace and one window -/

theorem rawPriorWindowSize_safe (fits : ∀ L ∈ g, L.home id = s) (has : Has g m s id fact t) :
    KeepsSafe g m (fun a => Has g m s id fun L o =>
        fact L o ∧ ∀ raw, a = some raw → raw = firstLine o.record.toList)
      (rawPriorWindowSize s id).run t := by
  refine .map (fun _ => has_stable fits) (safe_window (k := .showRecord) (fun a L o =>
    fact L o ∧ ∀ raw, a.map firstLine = some raw → raw = firstLine o.record.toList) fits
    (fun L hL o kept hn _ => ?_) has (by simp))
  simp [run, kept, hn]

theorem Captured.ofRaw_record {raw : String} {p : PriorWindowSize}
    (hf : ofRaw raw = .record p) : parse raw = some p := by
  unfold ofRaw at hf
  cases hp : parse raw with
  | none => simp [hp] at hf
  | some =>
    simp only [hp, record.injEq] at hf
    rw [hf]

def Noted (a : Option Captured) (_ : Layout) (o : WindowOptions) : Prop :=
  ∀ prior, a = some (.record prior) → o.recorded.isSome

theorem noted_ofRaw {raw : String} {L : Layout} (hs : some raw = firstLine o.record.toList) :
    Noted (some (.ofRaw raw)) L o := by
  intro p hf
  rw [← firstLine_recorded hs.symm, ofRaw_record (some.inj hf)]
  rfl

theorem capturePriorWindowSize_safe (fits : ∀ L ∈ g, L.home id = s) (held : Holding g m s t) :
    KeepsSafe g m (fun a => Has g m s id (Noted a)) (capturePriorWindowSize s id).run t := by
  have hs : ∀ a, (workspaceParty g m).Stable (Has g m s id (Noted a)) :=
    fun a => has_stable fits
  have hf : ∀ fact : Layout → WindowOptions → Prop, ∀ t, Has g m s id fact t →
      Has g m s id (Noted none) t :=
    fun fact t has => has.weaken fun _ _ _ _ hfo => by cases hfo
  refine (rawPriorWindowSize_safe fits held.has).andThen (hf _) (hs _) fun raw t has => ?_
  cases raw with
  | some =>
    exact safe_pure (hs _) (has.weaken fun L o now => noted_ofRaw (now.2 _ rfl))
  | none =>
    -- no record: the window follows its original policy, which is what is written down
    have hu : Has g m s id (fun L o => o.recorded = none) t :=
      has.weaken fun L o now => firstLine_record (now.2 _ rfl).symm
    have hsi := safe_window (k := .showSize)
      (fun a L o => o.recorded = none ∧ ∀ ls, a = some ls → ofLines ls = o.policy) fits
      (fun L hL o kept now _ => by simp [run, kept, now, ofLines_size]) hu
      (by simp)
    refine hsi.andThen (hf _) (hs _) fun ls t has => ?_
    have hw : KeepsSafe g m (fun _ => Has g m s id fun _ _ => True)
        (OptionT.lift (command (.window s id (.createRecord (ofLines ls).encode))).run).run t := by
      refine (safe_window _ fits (fun L hL o kept now _ => ⟨?_, trivial, trivial, trivial⟩) has
        (by simp)).seq fun a t has => safe_pure (has_stable fits) has
      simp only [run]
      cases hp : o.record with
      | some => exact kept
      | none =>
        rw [now.2 ls rfl]
        refine .of_recorded ?_
        rw [← kept.policy_eq now.1, recorded, bind_some]
        exact o.parse_encode_policy
    refine hw.andThen (hf _) (hs _) fun _ t has => ?_
    refine (rawPriorWindowSize_safe fits has).andThen (hf _) (hs _) fun raw t has => ?_
    cases raw with
    | some =>
      exact safe_pure (hs _) (has.weaken fun L o now => noted_ofRaw (now.2 _ rfl))
    | none => exact safe_pure (hs _) (hf _ t has)

theorem pinWindowSizeManual_safe (fits : ∀ L ∈ g, L.home id = s)
    (has : Has g m s id (fun _ o => o.recorded.isSome) t) :
    KeepsSafe g m (fun _ => Has g m s id fun _ o => o.recorded.isSome)
      (pinWindowSizeManual s id).run t := by
  refine (safe_window (k := .setSize "manual") (fun _ _ o => o.recorded.isSome) fits
    (fun L hL o hk now _ => ⟨?_, now, now, now⟩) has (by simp)).andThen (fun t has => has)
    (has_stable fits) fun _ t has => safe_pure (has_stable fits) has
  obtain ⟨p, hf⟩ := isSome_iff_exists.mp now
  exact .of_recorded (hf.trans (congrArg some (hk.recorded_eq hf)))

/-! ## Putting one window back

The same three commands, sent by a workspace or by a release. What their sender knows before
each of them is `free`, `read prior` and `back`. -/

structure Restoring (P : Party Tmux Command (Option (List String)))
    (guar : Tmux → Command → Tmux → Prop) (s id : String) (free : Tmux → Prop)
    (read : PriorWindowSize → Tmux → Prop) (back : Tmux → Prop) : Prop where
  stable : P.Stable free
  stable_read : ∀ prior, P.Stable (read prior)
  free_of_read : ∀ prior t, read prior t → free t
  show_safe : ∀ t, free t → P.Safe guar
    (fun a t => free t ∧ ∀ prior, (a.bind firstLine).bind parse = some prior →
      read prior t) (.command (.window s id .showRecord)) t
  restore_safe : ∀ prior t, read prior t → P.Safe guar
    (fun a t => free t ∧ (a.isSome → back t)) (.command (.window s id prior.restore)) t
  unset_safe : ∀ t, back t → P.Safe guar (fun _ => free) (.command (.window s id .unsetRecord)) t

theorem Restoring.safe {P : Party Tmux Command (Option (List String))}
    {guar : Tmux → Command → Tmux → Prop} {free back : Tmux → Prop}
    {read : PriorWindowSize → Tmux → Prop} (hs : Restoring P guar s id free read back)
    (hn : free t) : P.Safe guar (fun _ => free) (restoreWindowSize s id).run t := by
  have raw : P.Safe guar (fun a t => free t ∧ ∀ p, a.join.bind parse = some p →
        read p t) (rawPriorWindowSize s id).run t := by
    refine .map (fun _ => hs.stable.and (stable_forall fun p =>
      stable_forall fun _ => hs.stable_read p))
      ((hs.show_safe t hn).weaken fun a t hn => ?_)
    cases a <;> exact hn
  refine raw.andThen (fun t hn => hn.1) hs.stable fun raw t hn => ?_
  cases raw with
  | none => exact safe_pure hs.stable hn.1
  | some text =>
    cases hp : parse text with
    | none =>
      simp only [map_some, hp]
      exact safe_pure hs.stable hn.1
    | some p =>
      simp only [map_some, hp]
      refine .andThen (hs.restore_safe p t (hn.2 p (by rwa [join_some, bind_some])))
        (fun t hn => hn.1) hs.stable fun _ t hn => ?_
      refine .andThen (hs.unset_safe t (hn.2 rfl)) (fun t hn => hn) hs.stable fun _ t hn => ?_
      exact safe_pure hs.stable hn

theorem WindowOptions.kept_unsetRecord (hb : o.policy = original) :
    (unsetRecord.run o).1.Kept original :=
  .of_policy rfl hb

theorem WindowOptions.policy_restore (hb : o.policy = original) :
    (original.restore.run o).1.policy = original := by
  cases original with
  | inherited => rfl
  | explicit value =>
    simp only [restore, run]
    cases size : ofText value with
    | none => exact hb
    | some => simp [policy, text_of_ofText size]

theorem WindowOptions.kept_restore (hk : o.Kept original) :
    (original.restore.run o).1.Kept original := by
  have hr : (original.restore.run o).1.recorded = o.recorded := by
    simp only [recorded, restore_record]
  cases hf : o.recorded with
  | some =>
    rw [hk.recorded_eq hf] at hf
    exact .of_recorded (hr.trans hf)
  | none => exact .of_policy (hr.trans hf) (policy_restore (hk.policy_eq hf))

theorem workspace_restoring (fits : ∀ L ∈ g, L.home id = s) :
    Restoring (workspaceParty g m) (Holds g m) s id (Holding g m s)
      (fun p => Has g m s id fun L _ => p = L.original id)
      (Has g m s id fun L o => o.policy = L.original id) where
  stable := holding_stable
  stable_read _ := has_stable fits
  free_of_read _ _ has := has.holding
  show_safe t held := by
    refine .mono (holds_window (fun a L _ => ∀ p, (a.bind firstLine).bind parse = some p →
        p = L.original id) fits (fun L hL o hk _ _ => ?_) held.has)
      (fun _ _ _ hk => hk.1) ?_
    · refine ⟨hk, fun p hf => ?_, by simp, by simp⟩
      obtain ⟨raw, first, hp⟩ := bind_eq_some_iff.mp hf
      exact hk.recorded_eq (firstLine_recorded first ▸ hp)
    · exact fun a t has => ⟨has.holding, fun p hf =>
        has.weaken fun L o hn => hn p hf⟩
  restore_safe p t has := by
    refine .mono (holds_window (fun a L o => a.isSome → o.policy = L.original id)
      fits (fun L hL o hk hn _ => ?_) has) (fun _ _ _ hk => hk.1) ?_
    · subst hn
      refine ⟨kept_restore hk, fun ha => ?_, by simp, by simp⟩
      obtain ⟨ls, ha⟩ := isSome_iff_exists.mp ha
      exact restore_policy ha
    · exact fun a t has => ⟨has.holding, fun ha =>
        has.weaken fun L o hn => hn ha⟩
  unset_safe t has := by
    refine .mono (holds_window (fun _ _ _ => True) fits
      (fun L hL o hk hn _ => ?_) has) (fun _ _ _ hk => hk.1) fun a t has => has.holding
    exact ⟨kept_unsetRecord hn, trivial, trivial, trivial⟩

end

end Cyclops.Sizing
