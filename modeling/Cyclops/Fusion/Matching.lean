import Cyclops.Fusion.Sensors
import Mathlib.Data.List.Infix

/-!
# Rules on a styled capture

A rule of a manifest is a matcher with alternatives, and some clauses of a matcher read the capture
with its styling.

Results: `escaped_capture_skipped_iff`, `decline_recheck_agrees_iff`.
-/

namespace Cyclops.Fusion

open List Bool Manifest

/-! ## Matchers -/

/-- A compiled pattern: whether it occurs in a text, and where from an offset on. -/
structure Regex where
  isMatch : String → Bool
  findAt : String → Nat → Option (Nat × Nat)

structure CompiledMatcher where
  unstyledOnly : Bool := false
  contains : List String := []
  regex : List Regex := []
  lineRegex : List Regex := []
  lineRegexEsc : List Regex := []
  regexEsc : List Regex := []
  /-- What a manifest is refused for otherwise. -/
  paired : regexEsc = [] ∨ regexEsc.length = regex.length := by simp

def rowStarts : Nat → List String → List Nat
  | _, [] => []
  | start, row :: rest => start :: rowStarts (start + row.length + 1) rest

def Regex.endLine (r : Regex) (text : String) (start : Nat) : Option Nat :=
  ((r.findAt text start).filter (·.1 = start)).map fun span =>
    (text.toList.take span.2).count '\n'

def pairedSpansMatch (plain esc : List Regex) (lines escLines : List String) : Bool :=
  if esc.isEmpty then true
  else if plain.length ≠ esc.length || lines.length ≠ escLines.length then false
  else
    (plain.zip esc).all fun (p, e) =>
      ((rowStarts 0 lines).zip (rowStarts 0 escLines)).any fun (i, j) =>
        match p.endLine ("\n".intercalate lines) i, e.endLine ("\n".intercalate escLines) j with
        | some a, some b => a = b
        | _, _ => false

namespace CompiledMatcher

def isEmpty (m : CompiledMatcher) : Bool :=
  m.contains.isEmpty && m.regex.isEmpty && m.lineRegex.isEmpty && m.lineRegexEsc.isEmpty
    && m.regexEsc.isEmpty

def matchesEsc (m : CompiledMatcher) (joined : String) (lines : List String)
    (escLines : Option (List String)) : Bool :=
  if m.isEmpty then false
  else if m.unstyledOnly && escLines.all fun rows => rows.any fun row => '\x1b' ∈ row.toList then
    false
  else
    let escOk :=
      if m.lineRegexEsc.isEmpty && m.regexEsc.isEmpty then true
      else
        match escLines with
        | some rows => (m.lineRegexEsc.all fun r => rows.any r.isMatch)
          && pairedSpansMatch m.regex m.regexEsc lines rows
        | none => false
    escOk && (m.contains.all fun text => text.toList <:+: joined.toList)
      && m.regex.all (·.isMatch joined) && m.lineRegex.all fun r => lines.any r.isMatch

end CompiledMatcher

/-- A rule with its matchers; it fires if one of them does. -/
structure Rule where
  id : String
  state : AgentState
  composerSemantic : Option ComposerSemantic := none
  region : Region
  lifecycleEvidence : Bool := true
  activeStartTerminal : Bool := false
  matcher : CompiledMatcher
  any : List CompiledMatcher := []

namespace Rule

variable (r : Rule)

def matchesEsc (joined : String) (lines : List String) (escLines : Option (List String)) : Bool :=
  r.matcher.matchesEsc joined lines escLines
    || r.any.any (·.matchesEsc joined lines escLines)

def compiled : CompiledRule :=
  { r with matchesEsc := r.matchesEsc }

def firesOn (title : String) (screen : Screen) : Bool :=
  match r.region with
  | .paneTitle => r.matchesEsc title [title] none
  | .bottomNonEmptyLines _ => screenRuleMatches r.compiled screen

end Rule

structure RuleSet where
  id : String
  rules : List Rule
  composerTrailersEsc : List Regex := []
  composerChipsEsc : List Regex := []

namespace RuleSet

variable (p : RuleSet)

def manifest : Manifest where
  id := p.id
  rules := p.rules.map Rule.compiled

def evaluateEsc (title : String) (screen : Screen) : Option Rule :=
  p.rules.find? (·.firesOn title screen)

def evaluate (title : String) (rows : List String) : Option Rule :=
  p.evaluateEsc title ⟨rows, none⟩

def hasEscapedRules : Bool :=
  !p.composerChipsEsc.isEmpty || !p.composerTrailersEsc.isEmpty || p.rules.any fun r =>
    r.matcher.unstyledOnly || !r.matcher.lineRegexEsc.isEmpty
      || r.any.any fun m => m.unstyledOnly || !m.lineRegexEsc.isEmpty

end RuleSet

/-! ## The styled capture that is not taken -/

def CompiledMatcher.readsEscaped (m : CompiledMatcher) : Bool :=
  m.unstyledOnly || !m.lineRegexEsc.isEmpty || !m.regexEsc.isEmpty

def Rule.only (r : Rule) (m : CompiledMatcher) : Rule :=
  { r with matcher := m, any := [] }

theorem CompiledMatcher.matchesEsc_none (m : CompiledMatcher) (j : String) (ls rows : List String) :
    m.matchesEsc j ls none = (!m.readsEscaped && m.matchesEsc j ls (some rows)) := by
  unfold matchesEsc readsEscaped
  cases m.isEmpty <;> cases m.unstyledOnly <;> cases m.lineRegexEsc.isEmpty <;>
    cases m.regexEsc.isEmpty <;> simp

namespace Rule

variable {r : Rule} {t : String} {rows esc : List String} {s : Screen}

theorem firesOn_iff : r.firesOn t s = true ↔
      ∃ m ∈ r.matcher :: r.any, (r.only m).firesOn t s = true := by
  cases region : r.region <;>
    simp [firesOn, only, region, matchesEsc, screenRuleMatches, compiled]

theorem only_firesOn_plain (m : CompiledMatcher) : (r.only m).firesOn t ⟨rows, none⟩ =
      (!m.readsEscaped && (r.only m).firesOn t ⟨rows, some esc⟩) := by
  cases region : r.region with
  | paneTitle =>
    simp only [firesOn, only, region, matchesEsc, any_nil, Bool.or_false]
    rw [m.matchesEsc_none t [t] [t], ← Bool.and_assoc, Bool.and_self]
  | bottomNonEmptyLines n =>
    simp only [firesOn, only, region, screenRuleMatches, compiled, matchesEsc, any_nil,
      Bool.or_false]
    exact m.matchesEsc_none _ _ _

theorem firesOn_plain_iff (esc : List String) :
    r.firesOn t ⟨rows, none⟩ = true ↔ ∃ m ∈ r.matcher :: r.any,
      m.readsEscaped = false ∧ (r.only m).firesOn t ⟨rows, some esc⟩ = true := by
  rw [firesOn_iff]
  simp only [@only_firesOn_plain r t rows esc, and_eq_true, not_eq_true']

theorem firesOn_of_plain {e : Option (List String)}
    (hp : r.firesOn t ⟨rows, none⟩ = true) : r.firesOn t ⟨rows, e⟩ = true := by
  cases e with
  | none => exact hp
  | some esc =>
    obtain ⟨m, among, -, hf⟩ := (firesOn_plain_iff esc).mp hp
    exact firesOn_iff.mpr ⟨m, among, hf⟩

end Rule

theorem find?_of_imp {α : Type*} {l : List α} {p q : α → Bool} (hw : ∀ a, p a → q a) {a : α}
    (hf : l.find? q = some a) (holds : p a) : l.find? p = some a := by
  obtain ⟨-, before, after, rfl, none⟩ := find?_eq_some_iff_append.mp hf
  refine find?_eq_some_iff_append.mpr ⟨holds, before, after, rfl, fun b ha => ?_⟩
  have ho := none b ha
  cases first : p b with
  | false => rfl
  | true => simp [hw b first] at ho

namespace RuleSet

variable {p : RuleSet} {title : String} {rows : List String} {r : Rule}

theorem evaluate_of_fires {e : Option (List String)} (hw : p.evaluateEsc title ⟨rows, e⟩ = some r)
    (hf : r.firesOn title ⟨rows, none⟩ = true) : p.evaluate title rows = some r :=
  find?_of_imp (fun _ => Rule.firesOn_of_plain) hw hf

theorem unread_of_not_hasEscapedRules (hs : p.hasEscapedRules = false) (ham : r ∈ p.rules)
    {m : CompiledMatcher} (hm : m ∈ r.matcher :: r.any) (hu : m.regexEsc = []) :
    m.readsEscaped = false := by
  simp only [hasEscapedRules, or_eq_false_iff, any_eq_false, not_eq_true] at hs
  obtain ⟨⟨hst, hl⟩, ha⟩ := hs.2 r ham
  rw [CompiledMatcher.readsEscaped, hu]
  obtain rfl | ham := mem_cons.mp hm
  · simp [hst, hl]
  · simp [ha m ham]

/-- A skipped styled capture makes no difference exactly when the winning rule has a firing matcher
without paired clauses. -/
theorem escaped_capture_skipped_iff (p : RuleSet) (title : String) (rows esc : List String) :
    (p.hasEscapedRules = false →
      p.evaluateEsc title ⟨rows, some esc⟩ = p.evaluateEsc title ⟨rows, none⟩) ↔
    (p.hasEscapedRules = false → ∀ r, p.evaluateEsc title ⟨rows, some esc⟩ = some r →
      ∃ m ∈ r.matcher :: r.any,
        m.regexEsc = [] ∧ (r.only m).firesOn title ⟨rows, some esc⟩ = true) := by
  refine imp_congr_right fun hs => ⟨fun hsa r hw => ?_, fun hu => ?_⟩
  · have hf := find?_some (hsa.symm.trans hw)
    obtain ⟨m, among, unread, hf⟩ := (Rule.firesOn_plain_iff esc).mp hf
    simp only [CompiledMatcher.readsEscaped, or_eq_false_iff, not_eq_false',
      List.isEmpty_iff] at unread
    exact ⟨m, among, unread.2, hf⟩
  · cases hw : p.evaluateEsc title ⟨rows, some esc⟩ with
    | none =>
      refine (find?_eq_none.mpr fun r among hf => ?_).symm
      exact find?_eq_none.mp hw r among (Rule.firesOn_of_plain hf)
    | some r =>
      obtain ⟨m, mem, free, hf⟩ := hu r hw
      have unread := unread_of_not_hasEscapedRules hs (mem_of_find?_eq_some hw) mem free
      exact (evaluate_of_fires hw ((Rule.firesOn_plain_iff esc).mpr ⟨m, mem, unread, hf⟩)).symm

end RuleSet

def letterA : Regex where
  isMatch text := 'a' ∈ text.toList
  findAt text start := ((text.toList.drop start).findIdx? (· = 'a')).map fun i =>
    (start + i, start + i + 1)

def pairedRules : RuleSet where
  id := "paired"
  rules := [{
    id := "done", state := .idle, region := .bottomNonEmptyLines 1
    matcher := { regex := [letterA], regexEsc := [letterA] } }]

theorem paired_rule_never_fires :
    pairedRules.hasEscapedRules = false ∧
    (pairedRules.evaluateEsc "" ⟨["a"], some ["a"]⟩).map Rule.id = some "done" ∧
    (pairedRules.evaluateEsc "" ⟨["a"], none⟩).map Rule.id = none := by
  decide

/-! ## The recheck of a decline -/

namespace RuleSet

section

variable (p : RuleSet) (title : String)

def verdict (screen : Screen) (ts : Nat) : Detection :=
  let winner := screenWinnerEsc p.manifest screen
  fuse p.manifest (titleWinner p.manifest title) winner (manifestUsesScreenTier p.manifest)
    (winnerConfirmsIdle winner) ts

def modalStillMatches (rows : List String) (ruleId : String) : Bool :=
  (p.evaluate title rows).any fun r => r.id = ruleId && r.state.isBlocked

end

/-- The keys that are sent, and whether the sequence was not broken off. -/
def sendDeclineKeys (p : RuleSet) (ruleId : String) (recapture : Option (String × List String))
    (accepts : String → Bool) : (first : Bool) → List String → List String × Bool
  | _, [] => ([], true)
  | first, key :: rest =>
    if !first && rest.isEmpty &&
        !recapture.any (fun seen => p.modalStillMatches seen.1 seen.2 ruleId) then ([], false)
    else if !accepts key then ([], true)
    else
      let (sent, finished) := p.sendDeclineKeys ruleId recapture accepts false rest
      (key :: sent, finished)

/-- On an unchanged dialog every decline sequence is sent whole. -/
structure RecheckAgrees (p : RuleSet) (title : String) (screen : Screen) (ts : Nat) : Prop where
  still : (p.verdict title screen ts).state.isBlocked = true →
    p.modalStillMatches title screen.rows (p.verdict title screen ts).decidedBy = true
  sends : (p.verdict title screen ts).state.isBlocked = true → ∀ keys,
    p.sendDeclineKeys (p.verdict title screen ts).decidedBy (some (title, screen.rows))
      (fun _ => true) true keys = (keys, true)
  reports : ∀ r, p.evaluate title screen.rows = some r →
    p.modalStillMatches title screen.rows r.id = true →
    (p.verdict title screen ts).state = r.state

end RuleSet

/-- The rule that comes first in one of two searches comes first in the search for either. -/
theorem Manifest.first_winner (m : Manifest) (p q : CompiledRule → Bool) :
    (m.rules.zipIdx.find? fun x =>
        (m.winner p).any (·.index = x.2) || (m.winner q).any (·.index = x.2)).map Prod.fst =
      m.rules.find? fun r => p r || q r := by
  have hl : ∀ (l : List CompiledRule) (n : Nat) (test : CompiledRule → Bool),
      ((l.zipIdx (n + 1)).find? fun x => test x.1).any (·.2 = n) = false := by
    intro l n test
    rw [Option.any_eq_false]
    intro x hf
    have := le_snd_of_mem_zipIdx (mem_of_find?_eq_some hf)
    simpa using by omega
  have hs : ∀ (l : List CompiledRule) (n : Nat), ((l.zipIdx n).find? fun x =>
      ((l.zipIdx n).find? fun y => p y.1).any (·.2 = x.2) ||
        ((l.zipIdx n).find? fun y => q y.1).any (·.2 = x.2)).map Prod.fst =
      l.find? fun r => p r || q r := by
    intro l
    induction l with
    | nil => simp
    | cons r rest ih =>
      intro n
      simp only [zipIdx_cons, find?_cons]
      cases hp : p r <;> cases hq : q r <;> simp [hl, ih]
  simpa [winner, Option.any_map] using hs m.rules 0

theorem Manifest.winner_rule (m : Manifest) (test : CompiledRule → Bool) :
    (m.winner test).map (·.rule) = m.rules.find? test := by
  conv_rhs => rw [← zipIdx_map_fst 0 m.rules, find?_map]
  simp [winner, Function.comp_def]

theorem AgentState.isBlocked_of_idleClass {s : AgentState} (hi : s.idleClass = true) :
    s.isBlocked = false := by
  cases s <;> first | rfl | cases hi

namespace RuleSet

variable {p : RuleSet} {title : String} {screen : Screen} {ts : Nat}

theorem evaluateEsc_compiled : (p.manifest.rules.zipIdx.find? fun x =>
      (titleWinner p.manifest title).any (·.index = x.2) ||
        (screenWinnerEsc p.manifest screen).any (·.index = x.2)).map Prod.fst =
    (p.evaluateEsc title screen).map Rule.compiled := by
  rw [titleWinner, screenWinnerEsc, first_winner, manifest, find?_map, evaluateEsc]
  congr 2
  funext r
  cases hr : r.region <;>
    simp [Rule.firesOn, Rule.compiled, screenRuleMatches, hr]

theorem screenWinner_of_evaluateEsc {r : Rule} (hw : p.evaluateEsc title screen = some r)
    (hr : r.region ≠ .paneTitle) :
    (screenWinnerEsc p.manifest screen).map (·.rule) = some r.compiled := by
  rw [screenWinnerEsc, winner_rule, manifest, find?_map]
  refine congrArg (Option.map Rule.compiled) (find?_of_imp (fun r hf => ?_) hw ?_)
  · cases hr : r.region <;> simp_all [Rule.firesOn, Rule.compiled, screenRuleMatches]
  · have hf := find?_some hw
    cases ha : r.region with
    | paneTitle => exact absurd ha hr
    | bottomNonEmptyLines n => simpa [Rule.firesOn, ha] using hf

def modal (id : String) (state : AgentState) : Option (String × AgentState) :=
  if state.isBlocked then some (id, state) else none

theorem modal_unknown (id : String) : modal id .unknown = none := rfl

theorem modal_of_idle (id : String) {s : AgentState} (hi : s.idleClass = true) :
    modal id s = none :=
  if_neg (eq_false_iff.mp (AgentState.isBlocked_of_idleClass hi))

/-- The dialog the verdict names: the winner's, or the screen's under an idle winner. -/
theorem modal_verdict :
    modal (p.verdict title screen ts).decidedBy (p.verdict title screen ts).state =
      if (p.evaluateEsc title screen).any (·.state.idleClass) then
        (screenWinnerEsc p.manifest screen).bind fun s => modal s.rule.id s.rule.state
      else (p.evaluateEsc title screen).bind fun r => modal r.id r.state := by
  have hr : ∀ s, screenWinnerEsc p.manifest screen = some s →
      manifestUsesScreenTier p.manifest = true := by
    intro s hw
    have hf := (winner_rule _ _).symm.trans (congrArg (Option.map (·.rule)) hw)
    refine any_eq_true.mpr ⟨s.rule, mem_of_find?_eq_some hf, ?_⟩
    have hfi := find?_some hf
    cases hre : s.rule.region <;> simp_all [screenRuleMatches]
  unfold verdict fuse
  simp only [evaluateEsc_compiled]
  cases p.evaluateEsc title screen with
  | none => simp [modal_unknown]
  | some r =>
    cases idle : r.state.idleClass with
    | false => simp [Rule.compiled, idle]
    | true =>
      have calm := modal_of_idle r.id idle
      cases hw : screenWinnerEsc p.manifest screen with
      | none =>
        cases manifestUsesScreenTier p.manifest <;>
          simp [Rule.compiled, idle, calm, winnerConfirmsIdle, modal_unknown]
      | some s =>
        cases idle' : s.rule.state.idleClass with
        | false =>
          simp [Rule.compiled, idle, idle', hr s hw, winnerConfirmsIdle, Option.filter_some]
        | true =>
          cases evidence : s.rule.lifecycleEvidence <;>
            simp [Rule.compiled, idle, idle', calm, modal_of_idle s.rule.id idle', evidence,
              hr s hw, winnerConfirmsIdle, Option.filter_some, modal_unknown]

theorem sendDeclineKeys_of_match {ri : String} {rows : List String}
    (still : p.modalStillMatches title rows ri = true) (first : Bool) (keys : List String) :
    p.sendDeclineKeys ri (some (title, rows)) (fun _ => true) first keys = (keys, true) := by
  induction keys generalizing first with
  | nil => rfl
  | cons key rest ih => simp [sendDeclineKeys, still, ih]

theorem recheckAgrees_iff : p.RecheckAgrees title screen ts ↔
    modal (p.verdict title screen ts).decidedBy (p.verdict title screen ts).state =
      (p.evaluate title screen.rows).bind fun r => modal r.id r.state := by
  have hsp : p.RecheckAgrees title screen ts ↔ ((p.verdict title screen ts).state.isBlocked = true →
        p.modalStillMatches title screen.rows (p.verdict title screen ts).decidedBy = true) ∧
      ∀ r, p.evaluate title screen.rows = some r →
        p.modalStillMatches title screen.rows r.id = true →
        (p.verdict title screen ts).state = r.state :=
    ⟨fun ha => ⟨ha.still, ha.reports⟩, fun ⟨hs, hr⟩ =>
      ⟨hs, fun blocked keys => sendDeclineKeys_of_match (hs blocked) true keys, hr⟩⟩
  rw [hsp]
  cases found : p.evaluate title screen.rows with
  | none => simp [modalStillMatches, found, modal]
  | some r =>
    cases blocked : (p.verdict title screen ts).state.isBlocked <;>
      cases blocked' : r.state.isBlocked <;>
      simp [modalStillMatches, found, modal, blocked, blocked', @eq_comm _ r.id]
    intro hsa
    rw [hsa, blocked'] at blocked
    cases blocked

/-- The recheck agrees with the verdict exactly when no idle rule hides the dialog and the plain
capture names the same one. -/
theorem decline_recheck_agrees_iff (p : RuleSet) (title : String) (screen : Screen) (ts : Nat) :
    p.RecheckAgrees title screen ts ↔
      ¬((p.evaluateEsc title screen).any (·.state.idleClass) = true ∧
        (screenWinnerEsc p.manifest screen).any (·.rule.state.isBlocked) = true) ∧
      ((p.evaluateEsc title screen).bind fun r => modal r.id r.state) =
        (p.evaluate title screen.rows).bind fun r => modal r.id r.state := by
  rw [recheckAgrees_iff, modal_verdict]
  cases hw : p.evaluateEsc title screen with
  | none => simp
  | some r =>
    cases hi : r.state.idleClass with
    | false => simp [hi]
    | true =>
      have calm := AgentState.isBlocked_of_idleClass hi
      cases hsh : screenWinnerEsc p.manifest screen with
      | none => simp [calm, modal]
      | some s =>
        cases blocked : s.rule.state.isBlocked with
        | false => simp [calm, blocked, modal]
        | true =>
          -- the idle rule reads the title, so it wins the plain capture too
          have ht : r.region = .paneTitle := by
            by_contra hr
            have hs := screenWinner_of_evaluateEsc hw hr
            rw [hsh] at hs
            have hst : s.rule.state = r.state := congrArg CompiledRule.state (Option.some.inj hs)
            rw [hst, calm] at blocked
            cases blocked
          have hf := find?_some hw
          have plain : p.evaluate title screen.rows = some r := by
            refine evaluate_of_fires hw ?_
            simpa [Rule.firesOn, ht] using hf
          simp [calm, plain, modal]

end RuleSet

/-- An idle title above a dialog, and a dialog that is recognised by its lack of styling below
one that is not. -/
def dialogRules : RuleSet where
  id := "dialog"
  rules := [
    { id := "ready", state := .idle, region := .paneTitle, matcher := { contains := ["ready"] } },
    { id := "bare", state := .blockedModal, region := .bottomNonEmptyLines 5
      matcher := { unstyledOnly := true, contains := ["trust"] } },
    { id := "trust", state := .blockedPermission, region := .bottomNonEmptyLines 5
      matcher := { contains := ["trust"] } }]

/-- An idle title stops the confirming key; without styling the recheck finds another dialog. -/
theorem decline_recheck_disagrees :
    ((dialogRules.verdict "ready" ⟨["trust?"], none⟩ 1).state = .blockedPermission ∧
      (dialogRules.verdict "ready" ⟨["trust?"], none⟩ 1).decidedBy = "trust" ∧
      dialogRules.modalStillMatches "ready" ["trust?"] "trust" = false ∧
      dialogRules.sendDeclineKeys "trust" (some ("ready", ["trust?"])) (fun _ => true) true
        ["3", "Enter"] = (["3"], false)) ∧
    (dialogRules.verdict "" ⟨["trust?"], some ["trust?"]⟩ 1).state = .blockedModal ∧
    (dialogRules.verdict "" ⟨["trust?"], some ["trust?"]⟩ 1).decidedBy = "bare" ∧
    dialogRules.modalStillMatches "" ["trust?"] "bare" = false ∧
    dialogRules.modalStillMatches "" ["trust?"] "trust" = true := by
  decide

end Cyclops.Fusion
