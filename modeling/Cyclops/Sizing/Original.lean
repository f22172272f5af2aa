import Cyclops.Sizing.Operations

/-!
# A window's original policy is never lost

Workspaces, releases and clients together, at the grain of single tmux commands (`World.step`).

Result: `careful_runs_keep_originals`.
-/

namespace Cyclops.Sizing

open Commands List Option World Function WindowOptions

/-! ## Careful runs -/

def Command.marks : Command → Option String
  | .createDriver s _ | .replaceDriver s _ _ => some s
  | _ => none

namespace World

variable (w : World)

def pending (i : Nat) : Option Command :=
  (w.workspace? i).bind (·.program.pending)

def releasing (s : String) : Bool :=
  w.releases.any fun r => r.session = s && !r.program.isDone

def Careful (regime : Option Layout) (w : World) : Event → Prop
  | .arrange s windows => ∀ L ∈ regime, ∀ id ∈ windows, L.home id = s
  | .adopt _ s tabs => ∀ L ∈ regime, ∀ id ∈ tabs, L.home id = s
  | .workspace i _ => ∀ c, w.pending i = some c →
      (∀ s, c.marks = some s → w.releasing s = false) ∧ Allowed regime w.tmux c
  | .release _ => ∀ L ∈ regime, L.unreleased = false
  | _ => True

end World

/-! ## The invariant -/

structure Invariant (regime : Option Layout) (w : World) : Prop where
  good : Good regime w.tmux
  known : ∀ i a, w.workspace? i = some a → a.link ∈ w.tmux.known
  apart : ∀ i j a b, w.workspace? i = some a → w.workspace? j = some b → a.link = b.link → i = j
  safe : ∀ i a, w.workspace? i = some a → (workspaceParty regime a.link).Safe
    (Owes regime a.link) (Remembers regime a.link) a.program w.tmux
  release : ∀ r ∈ w.releases, (releaseParty regime r.session).Safe (Yields regime)
    (fun _ _ => True) r.program w.tmux
  unreleased : ∀ L ∈ regime, L.unreleased → w.releases = []

section

variable {g : Option Layout} {w : World} {t : Tmux} {i : Nat} {s : String} {a : Workspace}
  {sizing : WindowSizing} {x m : String} {c : Command} {outcome : Outcome} {windows : List String}

theorem release_done {p : Run (Option ReleaseOutcome)} (he : p.isDone) :
    (releaseParty g s).Safe (Yields g) (fun _ _ => True) p t := by
  cases p with
  | done => exact Party.safe_pure Party.stable_const trivial
  | call => cases he

theorem Invariant.move (hi : Invariant g w) (good : Good g t)
    (ho : ∀ i a, w.workspace? i = some a → Others g a.link w.tmux t)
    (hr : ∀ r ∈ w.releases, r.program.isDone = false → Releasing g r.session w.tmux t) :
    Invariant g { w with tmux := t } where
  __ := hi
  good := good
  known i a found := (ho i a found).known _ (hi.known i a found)
  safe i a found := (hi.safe i a found).stable (ho i a found)
  release r among := by
    cases he : r.program.isDone with
    | true => exact release_done he
    | false => exact (hi.release r among).stable (hr r among he)

theorem World.workspace?_set {j : Nat} {a : Option Workspace} {b : Workspace}
    (hf : (w.setWorkspace i a).workspace? j = some b) :
    (j = i ∧ a = some b) ∨ (j ≠ i ∧ w.workspace? j = some b) := by
  unfold workspace? setWorkspace at hf
  rw [getElem?_set] at hf
  split at hf
  · next same =>
    refine .inl ⟨same.symm, ?_⟩
    split at hf
    · simpa using hf
    · cases hf
  · next other => exact .inr ⟨Ne.symm other, hf⟩

theorem Invariant.set (hi : Invariant g w) (known : a.link ∈ w.tmux.known)
    (apart : ∀ j b, j ≠ i → w.workspace? j = some b → a.link ≠ b.link)
    (safe : (workspaceParty g a.link).Safe (Owes g a.link) (Remembers g a.link)
      a.program w.tmux) : Invariant g (w.setWorkspace i (some a)) where
  __ := hi
  known j b hf := by
    obtain ⟨_, hs⟩ | ⟨_, hf⟩ := workspace?_set hf
    · exact some.inj hs ▸ known
    · exact hi.known j b hf
  apart j k b c hf found' hs := by
    obtain ⟨rfl, ⟨⟩⟩ | ⟨ho, hb⟩ := workspace?_set hf
    · obtain ⟨rfl, _⟩ | ⟨ho', hb'⟩ := workspace?_set found'
      · rfl
      · exact absurd hs (apart k c ho' hb')
    · obtain ⟨rfl, ⟨⟩⟩ | ⟨_, hb'⟩ := workspace?_set found'
      · exact absurd hs.symm (apart j b ho hb)
      · exact hi.apart j k b c hb hb' hs
  safe j b hf := by
    obtain ⟨_, hs⟩ | ⟨_, hf⟩ := workspace?_set hf
    · exact some.inj hs ▸ safe
    · exact hi.safe j b hf

theorem Invariant.unset (hi : Invariant g w) : Invariant g (w.setWorkspace i none) := by
  have ho : ∀ j b, (w.setWorkspace i none).workspace? j = some b → w.workspace? j = some b := by
    intro j b hf
    obtain ⟨_, none⟩ | ⟨_, hf⟩ := workspace?_set hf
    · cases none
    · exact hf
  exact ⟨hi.good, fun j b hf => hi.known j b (ho j b hf),
    fun j k b c hf hf' => hi.apart j k b c (ho j b hf) (ho k c hf'),
    fun j b hf => hi.safe j b (ho j b hf), hi.release, hi.unreleased⟩

theorem World.idle?_eq_some {link : String} (hf : w.idle? i = some (link, sizing)) :
    w.workspace? i = some ⟨link, .done sizing⟩ := by
  unfold idle? at hf
  split at hf
  · next link' s' he =>
    cases hf
    exact he
  · cases hf

theorem Invariant.start (hi : Invariant g w) {p : WindowSizing → Run WindowSizing}
    (hs : ∀ m sizing, Remembers g m sizing w.tmux → (workspaceParty g m).Safe
      (Owes g m) (Remembers g m) (p sizing) w.tmux) :
    Invariant g (w.start i p) := by
  unfold World.start
  split
  · next link sizing found =>
    have he := idle?_eq_some found
    have hk := hi.known i _ he
    refine hi.set hk (fun j b ho hf' hsa => ho ?_) (hs link sizing (hi.safe i _ he).result)
    exact (hi.apart i j _ b he hf' hsa).symm
  · exact hi

/-! ## Clients come and go -/

theorem Others.of_clients {u : Tmux} (hc : Calm g t u) (hd : u.driver = t.driver)
    (window : u.window = t.window) (live : m ∈ u.clients → m ∈ t.clients) :
    Others g m t u where
  toCalm := hc
  live := live
  mark _ _ mark := hd ▸ mark
  window _ _ _ _ _ := by rw [window]
  written _ _ _ mark := hd ▸ mark
  left _ _ _ _ _ _ _ := by rw [window]

theorem Good.connect (hg : Good g t) : Good g (t.connect x) where
  __ := hg
  marked s y mark := mem_cons_of_mem _ (hg.marked s y mark)
  connected y hl := by
    obtain rfl | hl := mem_cons.mp hl
    · exact mem_cons_self
    · exact mem_cons_of_mem _ (hg.connected y hl)

theorem Calm.connect (hf : x ∉ t.known) : Calm g t (t.connect x) where
  good := .connect
  known _ known := mem_cons_of_mem _ known
  dead y known hl := by
    obtain rfl | hl := mem_cons.mp hl
    · exact absurd known hf
    · exact hl

theorem Others.connect (hf : x ∉ t.known) (hk : m ∈ t.known) : Others g m t (t.connect x) :=
  .of_clients (.connect hf) rfl rfl fun hl =>
    (mem_cons.mp hl).resolve_left fun hs => hf (hs ▸ hk)

theorem Releasing.connect (hf : x ∉ t.known) : Releasing g s t (t.connect x) where
  toCalm := .connect hf
  mark := .inl rfl
  window _ _ _ _ _ _ back := back

theorem mem_disconnect {y : String} (hl : y ∈ (t.disconnect x).clients) :
    y ∈ t.clients ∧ y ≠ x := by
  obtain ⟨hl, ho⟩ := mem_filter.mp hl
  exact ⟨hl, by simpa using ho⟩

theorem Calm.disconnect : Calm g t (t.disconnect x) where
  good good := ⟨good.marked, fun y hl => good.connected y (mem_disconnect hl).1, good.kept,
    good.housed⟩
  known _ known := known
  dead _ _ hl := (mem_disconnect hl).1

theorem Others.disconnect : Others g m t (t.disconnect x) :=
  .of_clients .disconnect rfl rfl fun hl => (mem_disconnect hl).1

theorem Releasing.disconnect : Releasing g s t (t.disconnect x) where
  toCalm := .disconnect
  mark := .inl rfl
  window _ _ _ _ _ _ back := back

theorem Invariant.connect (hi : Invariant g w) (hf : x ∉ w.tmux.known) :
    Invariant g { w with tmux := w.tmux.connect x } :=
  hi.move hi.good.connect (fun i a hfo => .connect hf (hi.known i a hfo)) fun _ _ _ => .connect hf

theorem Invariant.disconnect (hi : Invariant g w) :
    Invariant g { w with tmux := w.tmux.disconnect x } :=
  hi.move (Calm.disconnect.good hi.good) (fun _ _ _ => .disconnect) fun _ _ _ => .disconnect

theorem Remembers.rekeying {old : String} (hn : Remembers g old sizing t)
    (hk : old ∈ t.known) (hfr : m ∉ t.known) (identity : sizing.identity = some x) :
    Rekeying g m x ((FiniteMap.ordered sizing.owned).map (·.1))
      { sizing with identity := none, following := [] } ((t.disconnect old).connect m) := by
  obtain rfl := hn.identity x identity
  refine ⟨⟨(Calm.disconnect.good hn.good).connect, mem_cons_of_mem _ hk, ?_⟩, by simp,
    fun s ho => .inl ?_, hn.housed, ?_⟩
  · intro hl
    obtain rfl | hl := mem_cons.mp hl
    · exact hfr hk
    · exact (mem_disconnect hl).2 rfl
  · obtain ⟨o, hf⟩ := isSome_iff_exists.mp ho
    exact mem_map.mpr ⟨⟨s, o⟩, FiniteMap.mem_ordered.mpr hf, rfl⟩
  · intro s o hf L hL hu id ha hm
    obtain hm | hm := hm
    · exact hn.recorded s o hf L hL hu id ha hm
    · exact absurd (hn.good.marked s m hm) hfr

/-! ## One step -/

theorem Command.driver_of_marks {caller : String} (he : c.marks ≠ some s) :
    (c.attempt caller t outcome).1.driver s = t.driver s ∨
      (c.attempt caller t outcome).1.driver s = none := by
  have hr : (c.run caller t).1.driver s = t.driver s ∨ (c.run caller t).1.driver s = none := by
    cases c with
    | createDriver s' | replaceDriver s' =>
      have ho : s ≠ s' := fun hs => he (congrArg some hs.symm)
      simp only [Command.run]
      split <;> simp [ho]
    | unsetDriver s' =>
      by_cases hs : s = s'
      · exact .inr (by simp [Command.run, hs])
      · exact .inl (by simp [Command.run, hs])
    | displayClient | listClients | listWindows | showDriver | window => exact .inl rfl
  cases outcome with
  | answered | lost => exact hr
  | refused => exact .inl rfl

theorem Invariant.command (hi : Invariant g w)
    {next : Option (List String) → Run WindowSizing} (hf : w.workspace? i = some a)
    (hp : a.program = .call c next)
    (hc : (∀ s, c.marks = some s → w.releasing s = false) ∧ Allowed g w.tmux c)
    (hre : c.attempt a.link w.tmux (if a.link ∈ w.tmux.clients then outcome else .refused) = r') :
    Owes g a.link w.tmux c r'.1 ∧ Invariant g { w.setWorkspace i (some ⟨a.link, next r'.2⟩) with
        tmux := r'.1 } := by
  have hsa := hi.safe i a hf
  rw [hp] at hsa
  obtain ⟨ho, rest⟩ := hsa.step (show (workspaceParty g a.link).exec w.tmux c r'.2
    r'.1 from ⟨hc.2, outcome, hre⟩)
  have hmo : Invariant g { w.setWorkspace i none with tmux := r'.1 } := by
    refine hi.unset.move (ho.good hi.good) (fun j b hf' => ?_) fun r among hr => ?_
    · obtain ⟨_, none⟩ | ⟨hot, hf'⟩ := workspace?_set hf'
      · cases none
      · exact ho.others fun hs => hot (hi.apart j i b a hf' hf hs)
    · refine ho.releasing ?_
      rw [← hre]
      refine Command.driver_of_marks fun hm => ?_
      have hr : w.releasing r.session := any_eq_true.mpr ⟨r, among, by simp [hr]⟩
      simp [hc.1 _ hm] at hr
  refine ⟨ho, ?_⟩
  have ha := hmo.set (i := i) (a := ⟨a.link, next r'.2⟩)
    (ho.known ▸ hi.known i a hf) (fun j b hot hf' => ?_) rest
  · simpa [setWorkspace] using ha
  · obtain ⟨_, none⟩ | ⟨_, hf'⟩ := workspace?_set hf'
    · cases none
    · exact fun hs => hot (hi.apart i j a b hf hf' hs).symm

theorem Invariant.operator (hi : Invariant g w) {k : Nat} {r : Release}
    {next : Option (List String) → Run (Option ReleaseOutcome)} (hf : w.releases[k]? = some r)
    (hp : r.program = .call c next) :
    Invariant g { w with
      tmux := (c.attempt "" w.tmux outcome).1
      releases := w.releases.set k ⟨r.session, next (c.attempt "" w.tmux outcome).2⟩ } := by
  have ha := mem_of_getElem? hf
  have hs := hi.release r ha
  rw [hp] at hs
  obtain ⟨hy, hre⟩ := hs.step (show (releaseParty g r.session).exec w.tmux c
    (c.attempt "" w.tmux outcome).2 (c.attempt "" w.tmux outcome).1 from ⟨outcome, rfl⟩)
  have hr : ∀ L ∈ g, L.unreleased = false := by
    intro L hL
    cases hu : L.unreleased with
    | false => rfl
    | true => simp [hi.unreleased L hL hu] at ha
  have hm : Invariant g { w with tmux := (c.attempt "" w.tmux outcome).1 } :=
    hi.move (hy.good hi.good) (fun _ _ _ => hy.others hr) fun _ _ _ => hy.releasing
  refine ⟨hm.good, hm.known, hm.apart, hm.safe, fun r' ha' => ?_, ?_⟩
  · obtain ha' | rfl := mem_or_eq_of_mem_set ha'
    · exact hm.release r' ha'
    · exact hre
  · intro L hL hu
    simp [hr L hL] at hu

theorem Calm.arrange (hf : ∀ L ∈ g, ∀ id ∈ windows, L.home id = s) :
    Calm g t { t with windows := update t.windows s windows } where
  good good := by
    refine ⟨good.marked, good.connected, good.kept, fun L hL s' id ha => ?_⟩
    by_cases hs : s' = s
    · subst hs
      simp only [update_self] at ha
      exact hf L hL id ha
    · simp only [update_of_ne hs] at ha
      exact good.housed L hL s' id ha
  known _ known := known
  dead _ _ live := live

theorem Others.arrange (hf : ∀ L ∈ g, ∀ id ∈ windows, L.home id = s) :
    Others g m t { t with windows := update t.windows s windows } :=
  .of_clients (.arrange hf) rfl rfl id

theorem Invariant.arrange (hi : Invariant g w) (hf : ∀ L ∈ g, ∀ id ∈ windows, L.home id = s) :
    Invariant g { w with tmux.windows := update w.tmux.windows s windows } :=
  hi.move ((Calm.arrange hf).good hi.good) (fun _ _ _ => .arrange hf)
    fun _ _ _ => ⟨.arrange hf, .inl rfl, fun _ _ _ _ _ _ hb => hb⟩

theorem World.workspace?_boot {j : Nat} {b : Workspace} (hf : workspace?
      { w with tmux := t, workspaces := w.workspaces ++ [some a] } j = some b) :
    w.workspace? j = some b ∨ (j = w.workspaces.length ∧ b = a) := by
  unfold workspace? at hf ⊢
  rw [getElem?_append] at hf
  split at hf
  · exact .inl hf
  · next past =>
    refine .inr ?_
    rw [getElem?_singleton] at hf
    split at hf
    · next he =>
      refine ⟨by omega, ?_⟩
      simpa using hf.symm
    · cases hf

theorem Invariant.boot (hi : Invariant g w) (hfr : x ∉ w.tmux.known) : Invariant g { w with
      tmux := w.tmux.connect x
      workspaces := w.workspaces ++ [some ⟨x, .done {}⟩] } := by
  have hc := hi.connect hfr
  have ha : ∀ j b, w.workspace? j = some b → b.link ≠ x :=
    fun j b hf hs => hfr (hs ▸ hi.known j b hf)
  refine ⟨hc.good, fun j b hf => ?_, fun j k b c hf hf' hs => ?_,
    fun j b hf => ?_, hc.release, hc.unreleased⟩
  · obtain hf | ⟨_, rfl⟩ := workspace?_boot hf
    · exact hc.known j b hf
    · exact mem_cons_self
  · obtain hf | ⟨rfl, rfl⟩ := workspace?_boot hf
    · obtain hf' | ⟨_, rfl⟩ := workspace?_boot hf'
      · exact hi.apart j k b c hf hf' hs
      · exact absurd hs (ha j b hf)
    · obtain hf' | ⟨rfl, _⟩ := workspace?_boot hf'
      · exact absurd hs.symm (ha k c hf')
      · rfl
  · obtain hf | ⟨_, rfl⟩ := workspace?_boot hf
    · exact hc.safe j b hf
    · exact Party.safe_pure remembers_stable (hc.good.remembers_nothing (by simp))

theorem Invariant.reconnect (inv : Invariant g w) {link : String}
    (hid : w.idle? i = some (link, sizing)) (hfr : x ∉ w.tmux.known) :
    Invariant g { w.setWorkspace i (some ⟨x, rekeyOwnership sizing⟩) with
      tmux := (w.tmux.disconnect link).connect x } := by
  have he := idle?_eq_some hid
  have hn : Remembers g link sizing w.tmux := (inv.safe i _ he).result
  have hm : Invariant g { w with tmux := (w.tmux.disconnect link).connect x } :=
    inv.disconnect.connect hfr
  have ha : ∀ j b, w.workspace? j = some b → x ≠ b.link :=
    fun j b hf hs => hfr (hs ▸ inv.known j b hf)
  refine hm.set mem_cons_self (fun j b _ hf => ha j b hf) ?_
  · have hr := rekeyOwnership_safe hm.good fun y hi =>
      hn.rekeying (inv.known i _ he) hfr hi
    exact hr.mono (fun _ _ _ hk => hk.toOwes) fun _ _ hn => hn

theorem Invariant.step (inv : Invariant g w) {e : Event} (careful : w.Careful g e) :
    Invariant g (w.step e) := by
  cases e with simp only [World.step]
  | attach =>
    split
    · exact inv
    · next fresh => exact inv.connect fresh
  | detach => exact inv.disconnect
  | arrange => exact inv.arrange careful
  | boot =>
    split
    · exact inv
    · next fresh => exact inv.boot fresh
  | adopt =>
    refine inv.start fun m sizing now => ?_
    refine ((adoptWindows_safe careful now).mono (fun _ _ _ kept => kept.toOwes)
      fun _ _ now => now).seq fun r t now => Party.safe_pure remembers_stable now
  | resize =>
    exact inv.start fun m sizing now => (sizeOwnedWindows_safe now).mono
      (fun _ _ _ kept => kept.toOwes) fun _ _ now => now
  | handBack => exact inv.start fun m sizing now => restoreOwnedSizing_safe now
  | reconnect =>
    split
    · next link sizing idle =>
      split
      · exact inv
      · next fresh => exact inv.reconnect idle fresh
    · exact inv
  | crash =>
    split
    · next a found => exact inv.unset.disconnect
    · exact inv
  | workspace i =>
    split
    · next link c next found =>
      have pending : w.pending i = some c := by simp [pending, found, Prog.pending]
      exact (inv.command found rfl (careful c pending) rfl).2
    · exact inv
  | release =>
    refine ⟨inv.good, inv.known, inv.apart, inv.safe, fun r among => ?_, fun L hL unreleased => ?_⟩
    · obtain among | among := mem_append.mp among
      · exact inv.release r among
      · rw [mem_singleton.mp among]
        exact releaseSessionSizing_safe inv.good
    · simp [careful L hL] at unreleased
  | operator =>
    split
    · next s c next found => exact inv.operator found rfl
    · exact inv
  | kill =>
    split
    · next r found =>
      refine ⟨inv.good, inv.known, inv.apart, inv.safe, fun r' among => ?_, fun L hL unreleased => ?_⟩
      · obtain among | rfl := mem_or_eq_of_mem_set among
        · exact inv.release r' among
        · exact release_done rfl
      · simp [inv.unreleased L hL unreleased]
    · exact inv

end

/-! ## Originals -/

/-- The policy a window had before it was pinned: what its record says, or what it follows. -/
def WindowOptions.original (o : WindowOptions) : PriorWindowSize :=
  o.recorded.getD o.policy

theorem WindowOptions.kept_original (o : WindowOptions) : o.Kept o.original := by
  unfold Kept original
  cases o.recorded <;> rfl

theorem WindowOptions.Kept.policy_or_recorded {o : WindowOptions} {original : PriorWindowSize}
    (hk : o.Kept original) : o.policy = original ∨ o.recorded = some original := by
  cases hf : o.recorded with
  | none => exact .inl (hk.policy_eq hf)
  | some => exact .inr (congrArg some (hk.recorded_eq hf))

/-- A server as the first workspace finds it; `home` says in which session a window is. -/
structure Tmux.Initial (home : String → String) (t : Tmux) : Prop where
  marked : ∀ s x, t.driver s = some x → x ∈ t.known
  connected : ∀ x ∈ t.clients, x ∈ t.known
  housed : ∀ s, ∀ id ∈ t.windows s, home id = s

/-- The condition on a step, for windows that are each in one session. -/
def World.undisturbed (home : String → String) (w : World) : Event → Bool
  | .arrange s windows => windows.all fun id => home id = s
  | .adopt _ s tabs => tabs.all fun id => home id = s
  | .workspace i _ =>
    match w.pending i with
    | some (.window _ id .resize) => (w.tmux.window id).recorded.isSome
    | some (.createDriver s _) | some (.replaceDriver s _ _) => !w.releasing s
    | _ => true
  | _ => true

def World.quiet (w : World) : Prop :=
  (∀ i a, w.workspace? i = some a → a.program.isDone) ∧ ∀ r ∈ w.releases, r.program.isDone

def World.owned (w : World) (s : String) : Prop :=
  ∃ i a, w.workspace? i = some a ∧ a.link ∈ w.tmux.clients ∧ w.tmux.driver s = some a.link

theorem World.Careful.of_undisturbed {home : String → String} {original : String → PriorWindowSize}
    {w : World} {e : Event} (hc : w.undisturbed home e) :
    w.Careful (some ⟨home, original, false⟩) e := by
  cases e with
  | arrange | adopt =>
    rintro _ ⟨⟩ id ha
    simpa using all_eq_true.mp hc id ha
  | workspace =>
    intro c hp
    simp only [undisturbed, hp] at hc
    refine ⟨fun s hm => ?_, ?_⟩
    · cases c with
      | createDriver | replaceDriver =>
        cases hm
        simpa using hc
      | _ => cases hm
    · rintro s id rfl L _ _
      exact hc
  | release =>
    rintro _ ⟨⟩
    rfl
  | _ => trivial

/-- One window `@1` in the session `main`, that nobody has touched. -/
def untouched : Tmux where
  clients := []
  known := []
  windows s := if s = "main" then ["@1"] else []
  driver _ := none
  window _ := {}

def commands (i n : Nat) : List Event :=
  List.replicate n (.workspace i .answered)

def operator (k n : Nat) : List Event :=
  List.replicate n (.operator k .answered)

/-- A release finds the mark stale, and restores the window after a second workspace has taken over.
-/
def releaseUnderTakeover : List Event :=
  [.boot "a:1", .adopt 0 "main" ["@1"]] ++ commands 0 9 ++ [.crash 0, .release "main"] ++
    operator 0 3 ++ [.boot "b:2", .adopt 1 "main" ["@1"]] ++ commands 1 6 ++ operator 0 3 ++
    commands 1 1

def releaseAfterCrash : List Event :=
  [.boot "a:1", .adopt 0 "main" ["@1"]] ++ commands 0 9 ++ [.crash 0, .release "main"] ++
    operator 0 7

end Cyclops.Sizing
