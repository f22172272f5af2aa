import Cyclops.Sizing.Ownership

/-!
# The operations of a workspace and of the operator

What a workspace remembers between two operations (`Remembers`) is enough to start the next one: the
sessions in its memory are marked with its client for as long as that client lives.
-/

namespace Cyclops.Sizing

open Commands Party List Option Bool Function WindowSizing Command FiniteMap WindowOptions

section

variable {g : Option Layout} {m s id : String} {t u : Tmux}

/-! ## The mark -/

variable {pre : Tmux → Prop} {c : Command} {change : OwnedSession → OwnedSession}
  {guar : Tmux → Command → Tmux → Prop} {won : Option Bool} {o : OwnedSession} {s' : String}
  {owned : OwnedSession}

theorem windowDriver_safe (hst : ∀ t, guar t (.showDriver s) t)
    (hs : (workspaceParty g m).Stable pre) (hg : ∀ t, pre t → Good g t)
    (holds : pre t) :
    (workspaceParty g m).Safe guar (fun a t => pre t ∧ (∀ x, a = some (some x) → x ∈ t.known) ∧
        (a = some (some m) → m ∈ t.clients → t.driver s = some m))
      (windowDriver s).run t := by
  have hk : ∀ a : Option (Option String), (workspaceParty g m).Stable fun t =>
      pre t ∧ (∀ x, a = some (some x) → x ∈ t.known) ∧
        (a = some (some m) → m ∈ t.clients → t.driver s = some m) :=
    fun _ => hs.and (.and (fun _ _ hkn ho x hf => ho.known x (hkn x hf))
      (stable_forall fun _ => mark_stable))
  refine .map hk (safe_read rfl hst hs (fun _ => hk _)
    (fun t hn => ⟨hn, by simp, by simp⟩) (fun t hn hl => ?_) holds)
  refine ⟨hn, fun x hf => (hg t hn).marked s x ?_, fun hf _ => ?_⟩
  · simpa [run] using hf
  · simpa [run] using hf

theorem keeps_mark (hl : m ∈ t.clients) (hv : ∀ x ∈ t.clients, t.driver s ≠ some x)
    (hq : ∀ s id k, c ≠ .window s id k) :
    Keeps g m t c { t with driver := update t.driver s (some m) } := by
  have ho : ∀ s' x, x ∈ t.clients → t.driver s' = some x → s' ≠ s := by
    rintro s' x ht hm rfl
    exact hv x ht hm
  refine ⟨⟨⟨fun hg => ⟨?_, hg.connected, hg.kept, hg.housed⟩, rfl, rfl, ?_,
    fun _ _ _ _ => rfl, fun s id k hs => absurd hs (hq s id k), ?_⟩, ?_⟩, fun _ h => h⟩
  · intro s' x hm
    by_cases hs : s' = s
    · subst hs
      simp only [update_self, some.injEq] at hm
      exact hm ▸ hg.connected m hl
    · simp only [update_of_ne hs] at hm
      exact hg.marked s' x hm
  · intro s' x _ ht hm
    simp only [update_of_ne (ho s' x ht hm)]
    exact hm
  · intro s'
    by_cases hs : s' = s
    · exact .inr (.inr ⟨hl, by simp [hs]⟩)
    · exact .inl (by simp [hs])
  · intro s' ht hm
    simp only [update_of_ne (ho s' m ht hm)]
    exact hm

theorem createDriver_safe (hg : Good g t) :
    KeepsSafe g m (fun _ => Good g) (command (.createDriver s m)).run t := by
  refine safe_command good_stable (fun _ => good_stable) ?_ hg
  intro t ans u hg hr
  have hu : Keeps g m t (.createDriver s m) t := .unchanged (by simp)
  obtain ⟨rfl, _⟩ | ⟨hl, rfl, _⟩ := workspace_exec hr
  · exact ⟨hu, hg⟩
  · simp only [run]
    cases hv : t.driver s with
    | some => exact ⟨hu, hg⟩
    | none =>
      have hk : Keeps g m t (.createDriver s m) { t with driver := update t.driver s (some m) } :=
        keeps_mark hl (by simp [hv]) (by simp)
      exact ⟨hk, hk.good hg⟩

def Gone (regime : Option Layout) (stale : String) (t : Tmux) : Prop :=
  Good regime t ∧ stale ∈ t.known ∧ stale ∉ t.clients

variable {stale : String} {sizing : WindowSizing}

theorem gone_stable : (workspaceParty g m).Stable (Gone g stale) :=
  fun _ _ hg ho => ⟨ho.good hg.1, ho.known _ hg.2.1, fun hl =>
    hg.2.2 (ho.dead _ hg.2.1 hl)⟩

/-- A step that marks no session but those marked with `stale`. -/
structure Moves (regime : Option Layout) (m stale : String) (t : Tmux) (c : Command) (u : Tmux) :
    Prop extends Keeps regime m t c u where
  moved : ∀ s, u.driver s = t.driver s ∨ t.driver s = some stale

theorem replaceDriver_safe (hgo : Gone g stale t) :
    (workspaceParty g m).Safe (Moves g m stale) (fun _ => Good g)
      (command (.replaceDriver s stale m)).run t := by
  refine safe_command gone_stable (fun _ => good_stable) ?_ hgo
  rintro t ans u ⟨hg, _, hd⟩ hr
  have hu : Moves g m stale t (.replaceDriver s stale m) t :=
    ⟨.unchanged (by simp), fun _ => .inl rfl⟩
  obtain ⟨rfl, _⟩ | ⟨hl, rfl, _⟩ := workspace_exec hr
  · exact ⟨hu, hg⟩
  · simp only [run]
    split
    · next held =>
      have hk : Keeps g m t (.replaceDriver s stale m)
          { t with driver := update t.driver s (some m) } := by
        refine keeps_mark hl (fun x ht hm => hd ?_) (by simp)
        rw [held] at hm
        exact some.inj hm ▸ ht
      refine ⟨⟨hk, fun s' => ?_⟩, hk.good hg⟩
      by_cases hs : s' = s
      · exact .inr (hs ▸ held)
      · exact .inl (by simp [hs])
    · exact ⟨hu, hg⟩

def Won (regime : Option Layout) (m s : String) (won : Option Bool) (t : Tmux) : Prop :=
  Good regime t ∧ (won = some true → m ∈ t.clients → t.driver s = some m)

theorem won_stable : (workspaceParty g m).Stable (Won g m s won) :=
  good_stable.and (stable_forall fun _ => mark_stable)

theorem readback_safe (hs : ∀ t, guar t (.showDriver s) t) (hg : Good g t) :
    (workspaceParty g m).Safe guar (Won g m s)
      (do return (← windowDriver s) = some m : TmuxM Bool).run t := by
  refine (windowDriver_safe hs good_stable (fun _ hg => hg) hg).andThen
    (fun t hn => ⟨hn.1, by simp⟩) won_stable fun held t hn => ?_
  refine safe_pure won_stable ⟨hn.1, fun won => ?_⟩
  exact hn.2.2 (congrArg some (of_decide_eq_true (some.inj won)))

theorem claimWindowDriver_safe (hg : Good g t) :
    KeepsSafe g m (Won g m s) (claimWindowDriver s m).run t := by
  have hw : KeepsSafe g m (fun _ => Good g)
      (OptionT.lift (command (.createDriver s m)).run).run t := by
    exact (createDriver_safe hg).seq fun _ t hg => safe_pure good_stable hg
  exact hw.andThen (fun t hg => ⟨hg, by simp⟩) won_stable
    fun _ t hg => readback_safe (fun _ => .of_reads rfl) hg

theorem takeOverWindowDriver_safe (hgo : Gone g stale t) :
    (workspaceParty g m).Safe (Moves g m stale) (Won g m s)
      (takeOverWindowDriver s stale m).run t :=
  (replaceDriver_safe hgo).andThen (fun t hg => ⟨hg, by simp⟩) won_stable
    fun _ t hg => readback_safe (fun _ => ⟨.of_reads rfl, fun _ => .inl rfl⟩) hg

/-! ## The memory of a workspace -/

structure Remembers (regime : Option Layout) (m : String) (sizing : WindowSizing) (t : Tmux) :
    Prop where
  good : Good regime t
  identity : ∀ x, sizing.identity = some x → x = m
  marked : ∀ s, sizing.owns s → m ∈ t.clients → t.driver s = some m
  housed : ∀ s o, sizing.owned.lookup s = some o → ∀ L ∈ regime, ∀ id ∈ o.pinned, L.home id = s
  recorded : ∀ s o, sizing.owned.lookup s = some o → ∀ L ∈ regime, L.unreleased →
    ∀ id ∈ o.pinned, t.driver s = some m → (t.window id).recorded.isSome

theorem remembers_stable : (workspaceParty g m).Stable (Remembers g m sizing) := by
  refine fun t u hn ho => ⟨ho.good hn.good, hn.identity, fun s owned hl =>
    ho.mark s hl (hn.marked s owned (ho.live hl)), hn.housed, ?_⟩
  intro s o hf L hL hu id ha hm
  have hb := ho.written s m (.inl rfl) hm
  have home := hn.housed s o hf L hL id ha
  rw [ho.left L hL hu id m (.inl rfl) (home ▸ hm)]
  exact hn.recorded s o hf L hL hu id ha hb

theorem WindowSizing.owns_of_lookup (hf : sizing.owned.lookup s = some o) : sizing.owns s := by
  unfold owns
  rw [hf]
  rfl

theorem Remembers.kept (hn : Remembers g m sizing t) (ho : Keeps g m t c u) :
    Remembers g m sizing u where
  __ := hn
  good := ho.good hn.good
  marked s owned hl := ho.own s (ho.clients ▸ hl) (hn.marked s owned (ho.clients ▸ hl))
  recorded s o found L hL unreleased id among hm := by
    have hb : t.driver s = some m := by
      obtain hs | none | ⟨hl, _⟩ := ho.gained s
      · rw [← hs, hm]
      · rw [none] at hm
        cases hm
      · exact hn.marked s (owns_of_lookup found) hl
    exact ho.records id (hn.recorded s o found L hL unreleased id among hb)

theorem Remembers.frame {α : Type} {p : Run α} {post : α → Tmux → Prop}
    (hn : Remembers g m sizing t)
    (hs : KeepsSafe g m post p t) :
    KeepsSafe g m (fun a t => Remembers g m sizing t ∧ post a t) p t :=
  hs.frame remembers_stable (fun _ _ _ ho hn => hn.kept ho) hn

theorem Remembers.holding (hn : Remembers g m sizing t) (owned : sizing.owns s) : Holding g m s t :=
  ⟨hn.good, hn.marked s owned⟩

@[simp] theorem WindowSizing.owns_modifyOwned :
    (sizing.modifyOwned s change).owns s' = (decide (s' = s) || sizing.owns s') := by
  unfold owns modifyOwned
  by_cases hs : s' = s
  · subst hs
    simp
  · simp [hs]

theorem WindowSizing.lookup_modifyOwned (sizing : WindowSizing) {p : List String}
    (ha : ∀ o, ∀ id ∈ (change o).pinned, id ∈ o.pinned ∨ id ∈ p)
    (found : (sizing.modifyOwned s change).owned.lookup s' = some o) (id : String)
    (he : id ∈ o.pinned) :
    (∃ o', sizing.owned.lookup s' = some o' ∧ id ∈ o'.pinned) ∨ (s' = s ∧ id ∈ p) := by
  simp only [modifyOwned, lookup_insert_ite] at found
  split at found
  · next same =>
    subst same
    rw [← some.inj found] at he
    obtain hb | hn := ha _ id he
    · cases ho : sizing.owned.lookup s' with
      | none => simp [ho] at hb
      | some o' => exact .inl ⟨o', rfl, by simpa [ho] using hb⟩
    · exact .inr ⟨rfl, hn⟩
  · exact .inl ⟨o, found, he⟩

theorem Remembers.modifyOwned (p : List String) (hn : Remembers g m sizing t)
    (hm : m ∈ t.clients → t.driver s = some m)
    (ha : ∀ o, ∀ id ∈ (change o).pinned, id ∈ o.pinned ∨ id ∈ p)
    (hf : ∀ L ∈ g, ∀ id ∈ p, L.home id = s)
    (recorded : ∀ L ∈ g, L.unreleased → ∀ id ∈ p, t.driver s = some m →
      (t.window id).recorded.isSome) :
    Remembers g m (sizing.modifyOwned s change) t where
  __ := hn
  marked s' owned live := by
    rw [owns_modifyOwned, or_eq_true, decide_eq_true_eq] at owned
    obtain rfl | owned := owned
    · exact hm live
    · exact hn.marked s' owned live
  housed s' o found L hL id he := by
    obtain ⟨o', old, he⟩ | ⟨rfl, he⟩ := sizing.lookup_modifyOwned ha found id he
    · exact hn.housed s' o' old L hL id he
    · exact hf L hL id he
  recorded s' o found L hL unreleased id he := by
    obtain ⟨o', old, he⟩ | ⟨rfl, he⟩ := sizing.lookup_modifyOwned ha found id he
    · exact hn.recorded s' o' old L hL unreleased id he
    · exact recorded L hL unreleased id he

theorem Remembers.follow (hn : Remembers g m sizing t) : Remembers g m (sizing.follow s) t :=
  ⟨hn.good, hn.identity, hn.marked, hn.housed, hn.recorded⟩

theorem Remembers.settle (hn : Remembers g m sizing t) (hel : Won g m s won t) :
    Remembers g m (sizing.settle s won).1 t ∧
      ((sizing.settle s won).2 → (sizing.settle s won).1.owns s) := by
  unfold WindowSizing.settle
  cases won with
  | none => exact ⟨hn, by simp⟩
  | some won =>
    cases won with
    | false => exact ⟨hn.follow, by simp⟩
    | true =>
      have her : Remembers g m { sizing with following := sizing.following.erase s } t :=
        ⟨hn.good, hn.identity, hn.marked, hn.housed, hn.recorded⟩
      refine ⟨her.modifyOwned [] (hel.2 rfl) (fun o id he => .inl he) (by simp) (by simp), ?_⟩
      intro
      simp

/-! ## Electing an owner -/

theorem sizingIdentity_safe (hs : (workspaceParty g m).Stable pre)
    (identity : ∀ x, sizing.identity = some x → x = m) (holds : pre t) :
    KeepsSafe g m
      (fun r t => pre t ∧ r.1 = { sizing with identity := r.2 } ∧ ∀ x, r.2 = some x → x = m)
      (sizingIdentity sizing) t := by
  unfold sizingIdentity
  cases hk : sizing.identity with
  | some marker =>
    refine safe_pure (hs.and stable_const) ⟨holds, ?_, ?_⟩
    · simp [← hk]
    · rintro _ ⟨⟩
      exact identity marker hk
  | none =>
    have hr : KeepsSafe g m (fun a t => pre t ∧ ∀ ls, a = some ls → ls = [m])
        (command .displayClient).run t := by
      refine safe_read rfl (fun _ => .of_reads rfl) hs (fun _ => hs.and stable_const)
        (fun t hn => ⟨hn, by simp⟩) (fun t hn hl => ⟨hn, ?_⟩) holds
      rintro _ ⟨⟩
      rfl
    have ha : KeepsSafe g m (fun a t => pre t ∧ ∀ x, a = some x → x = m) clientIdentity.run t := by
      refine hr.andThen (fun t hn => ⟨hn.1, by simp⟩) (hs.and stable_const) fun ls t hn => ?_
      rw [hn.2 ls rfl]
      refine safe_pure (hs.and stable_const) ⟨hn.1, ?_⟩
      rintro _ ⟨⟩
      rfl
    refine ha.seq fun a t hn => ?_
    cases a with
    | none => exact safe_pure (hs.and stable_const) ⟨hn.1, by simp [← hk], by simp⟩
    | some => exact safe_pure (hs.and stable_const) ⟨hn.1, rfl, hn.2⟩

def Elected (regime : Option Layout) (m s : String) (r : WindowSizing × Bool) (t : Tmux) : Prop :=
  Remembers regime m r.1 t ∧ (r.2 → r.1.owns s)

theorem elected_stable {r : WindowSizing × Bool} : (workspaceParty g m).Stable (Elected g m s r) :=
  remembers_stable.and stable_const

theorem ownsSession_safe (hn : Remembers g m sizing t) :
    KeepsSafe g m (Elected g m s) (ownsSession sizing s) t := by
  unfold ownsSession
  split
  · next owned => exact safe_pure elected_stable ⟨hn, fun _ => owned⟩
  · refine (sizingIdentity_safe remembers_stable hn.identity hn).seq fun r t he => ?_
    obtain ⟨sizing', identity⟩ := r
    obtain ⟨hn, same, own⟩ := he
    dsimp only at same
    subst same
    have hn : Remembers g m { sizing with identity } t :=
      ⟨hn.good, own, hn.marked, hn.housed, hn.recorded⟩
    cases identity with
    | none => exact safe_pure elected_stable ⟨hn, by simp⟩
    | some marker =>
      obtain rfl := own marker rfl
      refine (windowDriver_safe (fun _ => .of_reads rfl) remembers_stable (fun _ hn => hn.good)
        hn).seq fun held t hr => ?_
      obtain ⟨hn, known, hmi⟩ := hr
      match held with
      | none => exact safe_pure elected_stable ⟨hn, by simp⟩
      | some none =>
        refine (hn.frame (claimWindowDriver_safe hn.good)).seq fun won t hn => ?_
        exact safe_pure elected_stable (hn.1.settle hn.2)
      | some (some held) =>
        dsimp only
        split
        · next same =>
          subst same
          exact safe_pure elected_stable (hn.settle ⟨hn.good, fun _ => hmi rfl⟩)
        · -- another client holds the mark: only a dead one's is taken over
          have hl : KeepsSafe g marker
              (fun a t => Remembers g marker { sizing with identity := some marker } t ∧
                ∀ ls, a = some ls → held ∉ ls → Gone g held t)
              serverClientMarkers.run t := by
            refine safe_read rfl (fun _ => .of_reads rfl)
              (remembers_stable.and fun t u known ho => ho.known held known)
              (fun _ => remembers_stable.and (stable_forall fun _ => stable_forall fun _ =>
                stable_forall fun _ => gone_stable))
              (fun t hn => ⟨hn.1, by simp⟩) (fun t hn live => ⟨hn.1, ?_⟩) ⟨hn, known held rfl⟩
            rintro _ ⟨⟩ ha
            exact ⟨hn.1.good, hn.2, ha⟩
          refine hl.seq fun ls t hr => ?_
          obtain ⟨hn, hd⟩ := hr
          cases ls with
          | none => exact safe_pure elected_stable ⟨hn, by simp⟩
          | some live =>
            dsimp only
            split
            · exact safe_pure elected_stable ⟨hn.follow, by simp⟩
            · next ha =>
              have hg : Gone g held t := hd live rfl (by simpa using ha)
              have ht := (takeOverWindowDriver_safe hg (s := s) (m := marker)).mono
                (fun _ _ _ hm => hm.toKeeps) fun _ _ won => won
              refine (hn.frame ht).seq fun won t hn => ?_
              exact safe_pure elected_stable (hn.1.settle hn.2)

/-! ## Adopting and resizing windows -/

theorem adoptWindow_safe {st : WindowSizing × Bool} (hf : ∀ L ∈ g, L.home id = s)
    (hn : Remembers g m st.1 t) (owned : st.1.owns s) :
    KeepsSafe g m (fun st t => Remembers g m st.1 t ∧ st.1.owns s) (adoptWindow s st id) t := by
  have hk : ∀ st : WindowSizing × Bool, (workspaceParty g m).Stable fun t =>
      Remembers g m st.1 t ∧ st.1.owns s :=
    fun _ => remembers_stable.and stable_const
  unfold adoptWindow
  refine (hn.frame (capturePriorWindowSize_safe hf (hn.holding owned))).seq fun captured t hc => ?_
  obtain ⟨hn, hno⟩ := hc
  have hm := hn.marked s owned
  match captured with
  | none => exact safe_pure (hk _) ⟨hn, owned⟩
  | some .malformed =>
    have blocked : Remembers g m (st.1.modifyOwned s fun owned =>
        { owned with blocked := owned.blocked.insert id }) t :=
      hn.modifyOwned [] hm (fun o id he => .inl he) (by simp) (by simp)
    refine safe_pure (hk _) ⟨blocked, ?_⟩
    rw [owns_modifyOwned, owned, Bool.or_true]
  | some (.record p) =>
    have hr : Has g m s id (fun _ o => o.recorded.isSome) t :=
      hno.weaken fun L o hno => hno p rfl
    refine (hn.frame (pinWindowSizeManual_safe hf hr)).seq fun pinned t hn => ?_
    cases pinned with
    | none => exact safe_pure (hk _) ⟨hn.1, owned⟩
    | some _ =>
      have pinned : Remembers g m (st.1.modifyOwned s fun owned =>
          { owned with pinned := owned.pinned.insert id }) t := by
        refine hn.1.modifyOwned [id] hn.2.holding.2 (fun o id' he => ?_) (by simpa using hf) ?_
        · simpa using (mem_insert_iff.mp he).symm
        · intro L hL hu id' he hm
          rw [mem_singleton.mp he]
          exact hn.2.fact L hL hm (.inr hu)
      refine safe_pure (hk _) ⟨pinned, ?_⟩
      rw [owns_modifyOwned, owned, Bool.or_true]

theorem adoptWindows_safe {tabs : List String} (hf : ∀ L ∈ g, ∀ id ∈ tabs, L.home id = s)
    (hn : Remembers g m sizing t) :
    KeepsSafe g m (fun r => Remembers g m r.1) (adoptWindows sizing s tabs) t := by
  refine (ownsSession_safe hn).seq fun r t hel => ?_
  obtain ⟨sizing, owns⟩ := r
  obtain ⟨hn, owned⟩ := hel
  cases owns with
  | false => exact safe_pure remembers_stable hn
  | true =>
    have owned : sizing.owns s := owned rfl
    have hr : Remembers g m (sizing.modifyOwned s (·.retain tabs)) t := by
      refine hn.modifyOwned [] (hn.marked s owned) (fun o id he => .inl ?_) (by simp) (by simp)
      exact mem_of_mem_filter he
    refine .seq (safe_foldlM (fun _ => remembers_stable.and stable_const)
      (fun st id ha t hn => adoptWindow_safe ?_ hn.1 hn.2) ⟨hr, ?_⟩)
      fun r t hn => safe_pure remembers_stable hn.1
    · exact fun L hL => hf L hL id (mem_of_mem_filter ha)
    · rw [owns_modifyOwned, owned, Bool.or_true]

theorem Remembers.owned_entry (hn : Remembers g m sizing t)
    {e : Σ _ : String, OwnedSession} (ha : e ∈ ordered sizing.owned) :
    sizing.owns e.1 ∧ ∀ L ∈ g, ∀ id ∈ e.2.pinned, L.home id = e.1 := by
  have hf := mem_ordered.mp ha
  exact ⟨owns_of_lookup hf, hn.housed _ _ hf⟩

theorem sizeOwnedWindows_safe {targets : List String} (hn : Remembers g m sizing t) :
    KeepsSafe g m (Remembers g m) (sizeOwnedWindows sizing targets) t := by
  refine .seq (safe_forM remembers_stable (fun e ha t hn => ?_) hn)
    fun _ t hn => safe_pure remembers_stable hn
  obtain ⟨owned, hfi⟩ := hn.owned_entry ha
  refine safe_forM remembers_stable (fun id hs t hn => ?_) hn
  have home : ∀ L ∈ g, L.home id = e.1 :=
    fun L hL => hfi L hL id (mem_of_mem_filter hs)
  have hre : KeepsSafe g m (fun _ => Has g m e.1 id fun _ _ => True)
      (command (.window e.1 id .resize)).run t := by
    have hr : Has g m e.1 id (fun L o => L.unreleased → o.recorded.isSome) t := by
      refine ⟨hn.holding owned, fun L hL hm _ hu => ?_⟩
      exact hn.recorded _ _ (mem_ordered.mp ha) L hL hu id (mem_of_mem_filter hs) hm
    refine safe_window _ home (fun L hL o hk hno hal => ⟨?_, trivial, trivial, trivial⟩)
      hr (by simp)
    have hno : o.recorded.isSome := by
      cases hu : L.unreleased with
      | true => exact hno hu
      | false => exact hal rfl hu
    obtain ⟨p, hf⟩ := isSome_iff_exists.mp hno
    exact .of_recorded (hf.trans (congrArg some (hk.recorded_eq hf)))
  exact (hn.frame hre).seq fun _ t hn => safe_pure remembers_stable hn.1

/-! ## Handing back -/

theorem restorePinned_safe (hf : ∀ L ∈ g, ∀ id ∈ owned.pinned, L.home id = s)
    (held : Holding g m s t) :
    (workspaceParty g m).Safe (Holds g m) (fun _ => Holding g m s) (restorePinned s owned) t := by
  refine safe_foldlM (fun _ => holding_stable) (fun ha id ham t held => ?_) held
  refine ((workspace_restoring fun L hL => hf L hL id ham).safe held).seq fun r t held => ?_
  match r with
  | none | some .nothing | some .exactly | some .malformed =>
    exact safe_pure holding_stable held

theorem releaseWindowDriver_safe (held : Holding g m s t) :
    (workspaceParty g m).Safe (Owes g m) (fun _ => Good g) (releaseWindowDriver s).run t := by
  have hu : (workspaceParty g m).Safe (Owes g m) (fun _ => Good g)
      (command (.unsetDriver s)).run t := by
    refine safe_command holding_stable (fun _ => good_stable) ?_ held
    rintro t ans u ⟨hg, hmi⟩ hr
    obtain ⟨rfl, _⟩ | ⟨hl, rfl, _⟩ := workspace_exec hr
    · exact ⟨(Keeps.unchanged (by simp)).toOwes, hg⟩
    · have ha : Good g { t with driver := update t.driver s none } := by
        refine ⟨fun s' x hm => ?_, hg.connected, hg.kept, hg.housed⟩
        by_cases hs : s' = s
        · simp [hs] at hm
        · simp only [update_of_ne hs] at hm
          exact hg.marked s' x hm
      refine ⟨⟨fun _ => ha, rfl, rfl, ?_, fun _ _ _ _ => rfl, by simp, ?_⟩, ha⟩
      · intro s' x ho ht hm
        have he : s' ≠ s := by
          rintro rfl
          exact ho (some.inj (hm.symm.trans (hmi hl)))
        simpa [run, he] using hm
      · intro s'
        by_cases hs : s' = s
        · exact .inr (.inl (by simp [run, hs]))
        · exact .inl (by simp [run, hs])
  exact hu.andThen (fun _ hg => hg) good_stable fun _ t hg => safe_pure good_stable hg

theorem restoreSession_safe (hf : ∀ L ∈ g, ∀ id ∈ owned.pinned, L.home id = s) (hg : Good g t) :
    (workspaceParty g m).Safe (Owes g m) (fun _ => Good g) (restoreSession m s owned) t := by
  refine (windowDriver_safe (fun _ => (Keeps.of_reads rfl).toOwes) good_stable
    (fun _ hg => hg) hg).seq fun held t hr => ?_
  obtain ⟨hg, _, hm⟩ := hr
  match held with
  | none | some none => exact safe_pure good_stable hg
  | some (some held) =>
    dsimp only
    split
    · next same =>
      subst same
      refine ((restorePinned_safe hf ⟨hg, hm rfl⟩).mono
        (fun _ _ _ ho => ho.toOwes) fun _ _ held => held).seq fun ha t held => ?_
      cases ha with
      | false => exact safe_pure good_stable held.1
      | true =>
        exact (releaseWindowDriver_safe held).seq fun _ t hg => safe_pure good_stable hg
    · exact safe_pure good_stable hg

theorem Good.remembers_nothing {identity : Option String} {following : List String}
    (good : Good g t) (hi : ∀ x, identity = some x → x = m) :
    Remembers g m { identity, owned := ∅, following } t where
  good := good
  identity := hi
  marked s owned := by simp [owns] at owned
  housed s o found := by simp at found
  recorded s o found := by simp at found

theorem restoreOwnedSizing_safe (hn : Remembers g m sizing t) :
    (workspaceParty g m).Safe (Owes g m) (Remembers g m) (restoreOwnedSizing sizing) t := by
  unfold restoreOwnedSizing
  cases hk : sizing.identity with
  | none => exact safe_pure remembers_stable (hn.good.remembers_nothing (by simp))
  | some marker =>
    obtain rfl := hn.identity marker hk
    refine .seq (safe_forM good_stable (fun e ha t hg => ?_) hn.good) fun _ t hg =>
        safe_pure remembers_stable (hg.remembers_nothing (by simp))
    exact restoreSession_safe (hn.owned_entry ha).2 hg

/-! ## Reconnecting -/

structure Rekeying (regime : Option Layout) (m stale : String) (rest : List String)
    (sizing : WindowSizing) (t : Tmux) : Prop where
  gone : Gone regime stale t
  identity : ∀ x, sizing.identity = some x → x = m
  marked : ∀ s, sizing.owns s → s ∈ rest ∨ (m ∈ t.clients → t.driver s = some m)
  housed : ∀ s o, sizing.owned.lookup s = some o → ∀ L ∈ regime, ∀ id ∈ o.pinned, L.home id = s
  recorded : ∀ s o, sizing.owned.lookup s = some o → ∀ L ∈ regime, L.unreleased →
    ∀ id ∈ o.pinned, t.driver s = some stale ∨ t.driver s = some m →
      (t.window id).recorded.isSome

section

variable {stale : String} {rest : List String} {sizing : WindowSizing}

theorem rekeying_stable : (workspaceParty g m).Stable (Rekeying g m stale rest sizing) := by
  refine fun t u hn ho => ⟨gone_stable t u hn.gone ho, hn.identity, fun s owned =>
    (hn.marked s owned).imp_right fun hm hl =>
      ho.mark s hl (hm (ho.live hl)), hn.housed, ?_⟩
  intro s o hf L hL hu id ha hm
  have home := hn.housed s o hf L hL id ha
  have hun : ∀ x, Settled m t x → u.driver s = some x →
      t.driver s = some x ∧ u.window id = t.window id :=
    fun x hs hm => ⟨ho.written s x hs hm, ho.left L hL hu id x hs (home ▸ hm)⟩
  obtain hm | hm := hm
  · obtain ⟨hb, hsa⟩ := hun stale (.inr hn.gone.2) hm
    rw [hsa]
    exact hn.recorded s o hf L hL hu id ha (.inl hb)
  · obtain ⟨hb, hsa⟩ := hun m (.inl rfl) hm
    rw [hsa]
    exact hn.recorded s o hf L hL hu id ha (.inr hb)

theorem Rekeying.kept (hn : Rekeying g m stale rest sizing t)
    (ho : Moves g m stale t c u) : Rekeying g m stale rest sizing u where
  __ := hn
  gone := ⟨ho.good hn.gone.1, ho.known ▸ hn.gone.2.1, ho.clients ▸ hn.gone.2.2⟩
  marked s owned := (hn.marked s owned).imp_right fun hm hl =>
    ho.own s (ho.clients ▸ hl) (hm (ho.clients ▸ hl))
  recorded s o found L hL unreleased id among hm := by
    refine ho.records id (hn.recorded s o found L hL unreleased id among ?_)
    obtain hs | hb := ho.moved s
    · rw [← hs]
      exact hm
    · exact .inl hb

theorem Rekeying.next (hn : Rekeying g m stale (s :: rest) sizing t)
    (hm : m ∈ t.clients → t.driver s = some m) : Rekeying g m stale rest sizing t where
  __ := hn
  marked s' owned := by
    obtain ha | hm' := hn.marked s' owned
    · obtain rfl | ha := mem_cons.mp ha
      · exact .inr hm
      · exact .inl ha
    · exact .inr hm'

theorem WindowSizing.lookup_of_erase {s' : String} {o : OwnedSession}
    (hf : (sizing.owned.erase s).lookup s' = some o) :
    s' ≠ s ∧ sizing.owned.lookup s' = some o := by
  rw [lookup_erase_ite] at hf
  split at hf
  · cases hf
  · next other => exact ⟨other, hf⟩

theorem Rekeying.drop (hn : Rekeying g m stale (s :: rest) sizing t) :
    Rekeying g m stale rest { sizing with owned := sizing.owned.erase s } t where
  __ := hn
  marked s' owned := by
    obtain ⟨o, hf⟩ := isSome_iff_exists.mp owned
    obtain ⟨ho, hf⟩ := lookup_of_erase hf
    exact (hn.marked s' (owns_of_lookup hf)).imp_left fun ha =>
      (mem_cons.mp ha).resolve_left ho
  housed s' o hf := hn.housed s' o (lookup_of_erase hf).2
  recorded s' o hf := hn.recorded s' o (lookup_of_erase hf).2

theorem rekeySessions_safe (hn : Rekeying g m stale rest sizing t) :
    KeepsSafe g m (Rekeying g m stale []) (rest.foldlM (rekeySession stale m) sizing) t := by
  induction rest generalizing sizing t with
  | nil => exact safe_pure rekeying_stable hn
  | cons s rest ih =>
    have hm : (workspaceParty g m).Safe (Moves g m stale)
        (Rekeying g m stale rest) (rekeySession stale m sizing s) t := by
      refine ((takeOverWindowDriver_safe hn.gone).frame rekeying_stable
        (fun _ _ _ ho hn => hn.kept ho) hn).seq fun won t ha => ?_
      match won with
      | none | some false => exact safe_pure rekeying_stable ha.1.drop
      | some true => exact safe_pure rekeying_stable (ha.1.next (ha.2.2 rfl))
    exact (hm.mono (fun _ _ _ hmo => hmo.toKeeps) fun _ _ hn => hn).seq fun sizing t hn => ih hn

theorem rekeyOwnership_safe (hg : Good g t) (hun : ∀ x, sizing.identity = some x →
      Rekeying g m x ((ordered sizing.owned).map (·.1))
        { sizing with identity := none, following := [] } t) :
    KeepsSafe g m (Remembers g m) (rekeyOwnership sizing) t := by
  unfold rekeyOwnership
  cases hk : sizing.identity with
  | none => exact safe_pure remembers_stable (hg.remembers_nothing (by simp))
  | some old =>
    refine (sizingIdentity_safe rekeying_stable (by simp) (hun old hk)).seq fun r t hr => ?_
    obtain ⟨sizing', identity⟩ := r
    obtain ⟨hn, same, own⟩ := hr
    dsimp only at same
    subst same
    cases identity with
    | none => exact safe_pure remembers_stable (hn.gone.1.remembers_nothing (by simp))
    | some marker =>
      obtain rfl := own marker rfl
      have hna : Rekeying g marker old ((ordered sizing.owned).map (·.1))
          { identity := some marker, owned := sizing.owned, following := [] } t :=
        ⟨hn.gone, own, hn.marked, hn.housed, hn.recorded⟩
      exact (rekeySessions_safe hna).weaken fun sizing t hn =>
        ⟨hn.gone.1, hn.identity, fun s owned =>
          (hn.marked s owned).resolve_left not_mem_nil, hn.housed,
          fun s o hf L hL hu id ha hm =>
            hn.recorded s o hf L hL hu id ha (.inr hm)⟩

end

/-! ## The operator's release -/

theorem release_exec {ans : Option (List String)} (hr : (releaseParty g s).exec t c ans u) :
    (u = t ∧ ans = none) ∨ (u = (c.run "" t).1 ∧ (ans = none ∨ ans = (c.run "" t).2)) := by
  obtain ⟨oc, hr⟩ := hr
  exact (attempt_cases hr).imp_right .right

theorem Yields.unchanged : Yields g t c t where
  good h := h
  clients := rfl
  known := rfl
  mark _ := .inl rfl
  window _ _ _ := .inl rfl

theorem release_read {post : Option (List String) → Tmux → Prop} (hr : c.reads)
    (hb : (releaseParty g s).Stable pre)
    (haf : ∀ ans, (releaseParty g s).Stable (post ans))
    (hf : ∀ t, pre t → post none t) (ha : ∀ t, pre t → post (c.run "" t).2 t)
    (holds : pre t) :
    (releaseParty g s).Safe (Yields g) post (.command c) t := by
  refine safe_command hb haf ?_ holds
  intro t ans u hn ran
  obtain ⟨rfl, rfl⟩ | ⟨rfl, rfl | rfl⟩ := release_exec ran
  · exact ⟨.unchanged, hf _ hn⟩
  · rw [run_of_reads hr]
    exact ⟨.unchanged, hf _ hn⟩
  · rw [run_of_reads hr]
    exact ⟨.unchanged, ha _ hn⟩

def Freed (regime : Option Layout) (s : String) (t : Tmux) : Prop :=
  Good regime t ∧ Free t s

theorem freed_stable : (releaseParty g s).Stable (Freed g s) :=
  fun _ _ hf ho => ⟨ho.good hf.1, ho.free hf.1 hf.2⟩

/-- No live client owns the session, and the window follows its original policy. -/
def Back (regime : Option Layout) (s id : String) (t : Tmux) : Prop :=
  Freed regime s t ∧ ∀ L ∈ regime, (t.window id).policy = L.original id

theorem back_stable (hf : ∀ L ∈ g, L.home id = s) : (releaseParty g s).Stable (Back g s id) :=
  fun t u hb ho => ⟨freed_stable t u hb.1 ho, fun L hL =>
    ho.window hb.1.1 hb.1.2 L hL id (hf L hL) (hb.2 L hL)⟩

theorem yields_window {k : WindowCommand} (hfi : ∀ L ∈ g, L.home id = s) (hf : Freed g s t)
    (hk : ∀ L ∈ g, (k.run (t.window id)).1.Kept (L.original id))
    (hst : ∀ L ∈ g, (t.window id).policy = L.original id →
      (k.run (t.window id)).1.policy = L.original id) :
    Yields g t (.window s id k) (run "" t (.window s id k)).1 := by
  refine ⟨fun hg => hg.window hk, rfl, rfl, fun _ => .inl rfl, fun L hL other => ?_⟩
  by_cases hs : other = id
  · subst hs
    refine .inr ⟨hfi L hL ▸ hf.2, fun hb => ?_⟩
    simpa [run] using hst L hL hb
  · exact .inl (by simp [run, hs])

theorem release_restoring (hf : ∀ L ∈ g, L.home id = s) :
    Restoring (releaseParty g s) (Yields g) s id (Freed g s)
      (fun p t => Freed g s t ∧ ∀ L ∈ g, p = L.original id)
      (Back g s id) where
  stable := freed_stable
  stable_read _ := freed_stable.and stable_const
  free_of_read _ _ now := now.1
  show_safe t freed := by
    refine release_read rfl freed_stable
      (fun _ => freed_stable.and (stable_forall fun _ => stable_forall fun _ =>
        freed_stable.and stable_const))
      (fun t freed => ⟨freed, by simp⟩) (fun t freed => ⟨freed, ?_⟩) freed
    intro p hfo
    obtain ⟨raw, first, hp⟩ := bind_eq_some_iff.mp hfo
    refine ⟨freed, fun L hL => ?_⟩
    exact (freed.1.kept L hL id).recorded_eq (firstLine_recorded first ▸ hp)
  restore_safe p t now := by
    refine safe_command (freed_stable.and stable_const)
      (fun _ => freed_stable.and (stable_forall fun _ => back_stable hf)) ?_ now
    rintro t answer u ⟨freed, hs⟩ hr
    obtain ⟨rfl, rfl⟩ | ⟨rfl, answer⟩ := release_exec hr
    · exact ⟨.unchanged, freed, by simp⟩
    · have hy : Yields g t (.window s id p.restore) (run "" t (.window s id p.restore)).1 := by
        refine yields_window hf freed (fun L hL => ?_) fun L hL hb => ?_
        · rw [hs L hL]
          exact kept_restore (freed.1.kept L hL id)
        · rw [hs L hL]
          exact policy_restore hb
      have after : Freed g s (run "" t (.window s id p.restore)).1 :=
        ⟨hy.good freed.1, freed.2⟩
      refine ⟨hy, after, fun ha => ⟨after, fun L hL => ?_⟩⟩
      obtain rfl | rfl := answer
      · cases ha
      · obtain ⟨ls, ha⟩ := isSome_iff_exists.mp ha
        rw [← hs L hL]
        simpa [run] using PriorWindowSize.restore_policy ha
  unset_safe t hb := by
    refine safe_command (back_stable hf) (fun _ => freed_stable) ?_ hb
    rintro t answer u ⟨freed, hb⟩ hr
    obtain ⟨rfl, rfl⟩ | ⟨rfl, _⟩ := release_exec hr
    · exact ⟨.unchanged, freed⟩
    · have hy : Yields g t (.window s id .unsetRecord) (run "" t (.window s id .unsetRecord)).1 :=
        yields_window hf freed (fun L hL => kept_unsetRecord (hb L hL)) fun L hL hb => hb
      exact ⟨hy, hy.good freed.1, freed.2⟩

theorem unsetDriver_yields (hf : Freed g s t) :
    Yields g t (.unsetDriver s) (run "" t (.unsetDriver s)).1 := by
  refine ⟨fun hg => ⟨fun s' x hm => ?_, hg.connected, hg.kept, hg.housed⟩, rfl, rfl,
    fun s' => ?_, fun _ _ _ => .inl rfl⟩
  · by_cases hs : s' = s
    · simp [run, hs] at hm
    · simp only [run, update_of_ne hs] at hm
      exact hg.marked s' x hm
  · by_cases hs : s' = s
    · exact .inr ⟨by simp [run, hs], hs ▸ hf.2⟩
    · exact .inl (by simp [run, hs])

theorem releaseUnowned_safe (hf : Freed g s t) :
    (releaseParty g s).Safe (Yields g) (fun _ _ => True) (releaseUnowned s).run t := by
  have hl : (releaseParty g s).Safe (Yields g) (fun a t => Freed g s t ∧
        ∀ ids, a = some ids → ∀ L ∈ g, ∀ id ∈ ids, L.home id = s)
      (command (.listWindows s)).run t := by
    refine release_read rfl freed_stable (fun _ => freed_stable.and stable_const)
      (fun t hf => ⟨hf, by simp⟩) (fun t hf => ⟨hf, ?_⟩) hf
    rintro _ ⟨⟩ L hL id ha
    exact hf.1.housed L hL s id ha
  refine hl.andThen (fun _ _ => trivial) stable_const fun ids t hn => ?_
  have hr : (releaseParty g s).Safe (Yields g) (fun _ => Freed g s)
      (releaseWindows s ids).run t := by
    refine safe_foldlM_andThen freed_stable (fun acc id ha t hf => ?_) hn.1
    refine ((release_restoring fun L hL => hn.2 ids rfl L hL id ha).safe hf).andThen
      (fun _ hf => hf) freed_stable fun _ t hf => ?_
    exact safe_pure freed_stable hf
  refine hr.andThen (fun _ _ => trivial) stable_const fun r t hf => ?_
  have hu : (releaseParty g s).Safe (Yields g) (fun _ _ => True)
      (command (.unsetDriver s)).run t := by
    refine safe_command freed_stable (fun _ => stable_const) ?_ hf
    intro t ans u hf ran
    obtain ⟨rfl, _⟩ | ⟨rfl, _⟩ := release_exec ran
    · exact ⟨.unchanged, trivial⟩
    · exact ⟨unsetDriver_yields hf, trivial⟩
  split
  · exact hu.andThen (fun _ _ => trivial) stable_const fun _ t _ => safe_pure stable_const trivial
  · exact safe_pure stable_const trivial

def Read (regime : Option Layout) (s held : String) (t : Tmux) : Prop :=
  Good regime t ∧ held ∈ t.known ∧ ∀ x, t.driver s = some x → x = held

theorem read_stable {held : String} : (releaseParty g s).Stable (Read g s held) := by
  rintro t u ⟨hg, known, hm⟩ ho
  refine ⟨ho.good hg, ho.known _ known, fun x hf => ?_⟩
  obtain hs | none := ho.mark
  · exact hm x (hs ▸ hf)
  · rw [none] at hf
    cases hf

def Seen (regime : Option Layout) (s : String) : Option (Option String) → Tmux → Prop
  | none, _ => True
  | some none, t => Freed regime s t
  | some (some held), t => Read regime s held t

theorem seen_stable : ∀ a, (releaseParty g s).Stable (Seen g s a)
  | none => stable_const
  | some none => freed_stable
  | some (some _) => read_stable

theorem releaseSessionSizing_safe (hg : Good g t) :
    (releaseParty g s).Safe (Yields g) (fun _ _ => True) (releaseSessionSizing s).run t := by
  have hgo : (releaseParty g s).Stable (Good g) :=
    fun _ _ hg ho => ho.good hg
  have hd : (releaseParty g s).Safe (Yields g) (Seen g s) (windowDriver s).run t := by
    refine .map seen_stable (release_read rfl hgo (fun _ => seen_stable _)
      (fun t _ => trivial) (fun t hg => ?_) hg)
    simp only [run]
    cases hm : t.driver s with
    | none => exact ⟨hg, fun x hf => by simp [hm] at hf⟩
    | some held =>
      refine ⟨hg, hg.marked s held hm, fun x hf => ?_⟩
      exact (some.inj (hm.symm.trans hf)).symm
  refine hd.andThen (fun _ _ => trivial) stable_const fun held t hn => ?_
  cases held with
  | none => exact releaseUnowned_safe hn
  | some held =>
    have clients : (releaseParty g s).Safe (Yields g) (fun a t => Read g s held t ∧
          ∀ live, a = some live → held ∉ live → Freed g s t)
        (command .listClients).run t := by
      refine release_read rfl read_stable
        (fun _ => read_stable.and (stable_forall fun _ => stable_forall fun _ =>
          stable_forall fun _ => freed_stable))
        (fun t hn => ⟨hn, by simp⟩) (fun t hn => ⟨hn, ?_⟩) hn
      rintro _ ⟨⟩ ha
      exact ⟨hn.1, fun x hm => hn.2.2 x hm ▸ ha⟩
    refine clients.andThen (fun _ _ => trivial) stable_const fun live t hn => ?_
    split
    · exact safe_pure stable_const trivial
    · next ha => exact releaseUnowned_safe (hn.2 live rfl (by simpa using ha))

end

end Cyclops.Sizing
