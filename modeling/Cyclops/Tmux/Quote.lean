import Mathlib.Data.List.Basic

/-!
# Quoted commands

Every argument on a control-mode line stands in single quotes.

Results: `tokenise_quoted`, `quoted_commands_decoded`, `line_break_dropped`.
-/

namespace Cyclops.Quote

open List

abbrev Text := List Char

/-- What a control-mode line cannot hold. -/
def isStripped (c : Char) : Bool :=
  c = '\n' || c = '\r' || c = '\x00'

def quoteChar (c : Char) : Text :=
  if isStripped c then []
  else if c = '\x27' then ['\x27', '\x5c', '\x27', '\x27']
  else [c]

def quoteArg (s : Text) : Text :=
  '\x27' :: s.flatMap quoteChar ++ ['\x27']

/-- An argument as a command line can carry it. -/
def stripped (s : Text) : Text :=
  s.filter (!isStripped ·)

/-! ## The tokeniser of tmux -/

/-- Where the reader of a line stands. -/
inductive Mode where
  | plain
  | quoted
  | escaped
deriving DecidableEq

/-- The commands read so far, the arguments of the one being read, and the word being read. -/
structure Lexer where
  commands : List (List Text) := []
  args : List Text := []
  word : Option Text := none
  mode : Mode := .plain
deriving DecidableEq

namespace Lexer

def push (l : Lexer) (c : Char) : Lexer :=
  { l with word := some (l.word.getD [] ++ [c]), mode := if l.mode = .escaped then .plain else l.mode }

/-- The arguments of the command being read, with the word that ends here. -/
def ended (l : Lexer) : List Text :=
  l.args ++ l.word.toList

def step (l : Lexer) (c : Char) : Lexer :=
  match l.mode with
  | .escaped => l.push c
  | .quoted => if c = '\x27' then { l with mode := .plain } else l.push c
  | .plain =>
    if c = '\x27' then { l with word := some (l.word.getD []), mode := .quoted }
    else if c = '\x5c' then { l with mode := .escaped }
    else if c = ' ' then { l with args := l.ended, word := none }
    else if c = ';' then { commands := l.commands ++ [l.ended] }
    else l.push c

/-- A line that ends inside quotes or after a backslash has no commands. -/
def finish (l : Lexer) : Option (List (List Text)) :=
  if l.mode = .plain then some (l.commands ++ [l.ended]) else none

end Lexer

def tokenise (line : Text) : Option (List (List Text)) :=
  (line.foldl Lexer.step {}).finish

/-! ## Sending keys -/

def named : List String :=
  ["Enter", "Escape", "Space", "Tab", "BTab", "BSpace", "Up", "Down", "Left", "Right", "Home",
    "End", "NPage", "PPage", "PageDown", "PageUp", "IC", "Insert", "DC", "Delete", "F1", "F2",
    "F3", "F4", "F5", "F6", "F7", "F8", "F9", "F10", "F11", "F12"]

def isNamed (k : Text) : Bool :=
  named.contains (.ofList k)

def stripModifiers : Text → Text
  | m :: '-' :: rest =>
    if m = 'C' || m = 'M' || m = 'S' then stripModifiers rest else m :: '-' :: rest
  | rest => rest

def isKeyName (k : Text) : Bool :=
  isNamed k || (let rest := stripModifiers k
     rest.length < k.length && !rest.isEmpty && (isNamed rest || rest.length = 1))

def sendKeysTo : Text :=
  ['s', 'e', 'n', 'd', '-', 'k', 'e', 'y', 's', ' ', '-', 't', ' ']

def flags (areKeys : Bool) : Text :=
  (if areKeys then [] else [' ', '-', 'l']) ++ [' ', '-', '-']

def sendKeys (paneId : Text) (areKeys : Bool) (keys : List Text) : Text :=
  sendKeysTo ++ (quoteArg paneId ++ (flags areKeys ++ keys.flatMap fun key => ' ' :: quoteArg key))

/-- The commands for the run read so far and the keys after it. -/
def sendRuns (paneId : Text) (areKeys : Bool) (run : List Text) : List Text → List Text
  | [] => [sendKeys paneId areKeys run]
  | key :: keys =>
    if isKeyName key = areKeys then sendRuns paneId areKeys (run ++ [key]) keys
    else sendKeys paneId areKeys run :: sendRuns paneId (isKeyName key) [key] keys

def sendKeysCommands (paneId : Text) : List Text → List Text
  | [] => []
  | key :: keys => sendRuns paneId (isKeyName key) [key] keys

/-- A refused command. -/
inductive TmuxError where
  | protocol (message : String)

def validateCommandLine (cmd : Text) : Except TmuxError Unit :=
  if cmd.contains '\n' || cmd.contains '\r' then
    .error (.protocol ("command contains a line break: " ++ (String.ofList cmd).quote))
  else .ok ()

/-! ## Reading back -/

theorem foldl_quoteChar (s : Text) (commands : List (List Text)) (args : List Text) (word : Text) :
    (s.flatMap quoteChar).foldl Lexer.step ⟨commands, args, some word, .quoted⟩ =
      ⟨commands, args, some (word ++ stripped s), .quoted⟩ := by
  induction s generalizing word with
  | nil => simp [stripped]
  | cons c s ih =>
    rw [flatMap_cons, foldl_append]
    by_cases drop : isStripped c
    · simpa [quoteChar, drop, stripped] using ih word
    · by_cases quote : c = '\x27'
      · cases quote
        exact (ih (word ++ ['\x27'])).trans (by simp [stripped, drop])
      · have here : [c].foldl Lexer.step ⟨commands, args, some word, .quoted⟩ =
            ⟨commands, args, some (word ++ [c]), .quoted⟩ := by
          simp [Lexer.step, quote, Lexer.push]
        rw [quoteChar, if_neg drop, if_neg quote, here, ih]
        simp [stripped, drop]

theorem foldl_quoteArg (s : Text) (commands : List (List Text)) (args : List Text) :
    (quoteArg s).foldl Lexer.step ⟨commands, args, none, .plain⟩ =
      ⟨commands, args, some (stripped s), .plain⟩ := by
  rw [quoteArg, cons_append, foldl_cons, foldl_append]
  exact congrArg (Lexer.step · '\x27') (foldl_quoteChar s commands args [])

theorem finish_foldl_args (keys : List Text) (commands : List (List Text)) (args : List Text)
    (word : Text) :
    ((keys.flatMap fun key => ' ' :: quoteArg key).foldl Lexer.step
      ⟨commands, args, some word, .plain⟩).finish =
      some (commands ++ [args ++ word :: keys.map stripped]) := by
  induction keys generalizing args word with
  | nil => simp [Lexer.finish, Lexer.ended]
  | cons key keys ih =>
    rw [flatMap_cons, cons_append, foldl_cons, foldl_append]
    have space : Lexer.step ⟨commands, args, some word, .plain⟩ ' ' =
        ⟨commands, args ++ [word], none, .plain⟩ := rfl
    rw [space, foldl_quoteArg, ih]
    simp

theorem intercalate_quoteArg (arg : Text) (args : List Text) :
    [' '].intercalate ((arg :: args).map quoteArg) =
      quoteArg arg ++ args.flatMap fun key => ' ' :: quoteArg key := by
  induction args generalizing arg with
  | nil => simp
  | cons next args ih =>
    simp only [map_cons, intercalate_cons_cons] at ih ⊢
    rw [ih]
    simp

/-- A line of quoted arguments is one command with the arguments as they were, but for what is
dropped. -/
theorem tokenise_quoted (args : List Text) :
    tokenise ([' '].intercalate (args.map quoteArg)) = some [args.map stripped] := by
  cases args with
  | nil => rfl
  | cons arg args =>
    rw [intercalate_quoteArg, tokenise, foldl_append, foldl_quoteArg, finish_foldl_args]
    rfl

/-- The arguments of the command that sends `keys`. -/
def sendKeysArgs (paneId : Text) (areKeys : Bool) (keys : List Text) : List Text :=
  [['s', 'e', 'n', 'd', '-', 'k', 'e', 'y', 's'], ['-', 't'], paneId] ++
    (if areKeys then [] else [['-', 'l']]) ++ ['-', '-'] :: keys

theorem tokenise_sendKeys (paneId : Text) (areKeys : Bool) (keys : List Text) :
    tokenise (sendKeys paneId areKeys keys) =
      some [sendKeysArgs (stripped paneId) areKeys (keys.map stripped)] := by
  have start : sendKeysTo.foldl Lexer.step {} =
      ⟨[], [['s', 'e', 'n', 'd', '-', 'k', 'e', 'y', 's'], ['-', 't']], none, .plain⟩ := by decide
  unfold tokenise sendKeys
  rw [foldl_append, start, foldl_append, foldl_quoteArg, foldl_append]
  cases areKeys
  · exact finish_foldl_args _ _ [_, _, _, _] _
  · exact finish_foldl_args _ _ [_, _, _] _

theorem isStripped_of_mem {l : Text} (free : l.any isStripped = false) {c : Char} (mem : c ∈ l) :
    isStripped c = false :=
  eq_false_of_ne_true (any_eq_false.mp free c mem)

theorem isStripped_of_mem_quoteArg {s : Text} {c : Char} (mem : c ∈ quoteArg s) :
    isStripped c = false := by
  rcases mem_append.mp mem with mem | last
  · rcases mem_cons.mp mem with rfl | mem
    · decide
    · obtain ⟨d, -, here⟩ := mem_flatMap.mp mem
      unfold quoteChar at here
      split_ifs at here with drop
      · cases here
      · have escape : ['\x27', '\x5c', '\x27', '\x27'].any isStripped = false := by decide
        exact isStripped_of_mem escape here
      · rw [mem_singleton.mp here]
        exact eq_false_of_ne_true drop
  · rw [mem_singleton.mp last]
    decide

theorem isStripped_of_mem_sendKeys {paneId : Text} {areKeys : Bool} {keys : List Text} {c : Char}
    (mem : c ∈ sendKeys paneId areKeys keys) : isStripped c = false := by
  have start : sendKeysTo.any isStripped = false := by decide
  have middle : (flags areKeys).any isStripped = false := by cases areKeys <;> decide
  unfold sendKeys at mem
  rcases mem_append.mp mem with word | mem
  · exact isStripped_of_mem start word
  rcases mem_append.mp mem with pane | mem
  · exact isStripped_of_mem_quoteArg pane
  rcases mem_append.mp mem with flag | mem
  · exact isStripped_of_mem middle flag
  obtain ⟨key, -, here⟩ := mem_flatMap.mp mem
  rcases mem_cons.mp here with rfl | here
  · decide
  · exact isStripped_of_mem_quoteArg here

theorem validateCommandLine_sendKeys (paneId : Text) (areKeys : Bool) (keys : List Text) :
    validateCommandLine (sendKeys paneId areKeys keys) = .ok () := by
  have absent : ∀ c, isStripped c → ¬ (sendKeys paneId areKeys keys).contains c :=
    fun c drop mem => Bool.false_ne_true
      ((isStripped_of_mem_sendKeys (contains_iff_mem.mp mem)).symm.trans drop)
  rw [validateCommandLine, if_neg]
  exact fun breaks => (Bool.or_eq_true _ _ ▸ breaks).elim (absent _ rfl) (absent _ rfl)

/-- The keys go out in runs, each of key names or of literals. -/
theorem exists_runs (paneId : Text) (areKeys : Bool) (run keys : List Text)
    (same : ∀ key ∈ run, isKeyName key = areKeys) : ∃ runs : List (Bool × List Text),
      sendRuns paneId areKeys run keys = runs.map (fun run => sendKeys paneId run.1 run.2) ∧
      runs.flatMap (·.2) = run ++ keys ∧ ∀ run ∈ runs, ∀ key ∈ run.2, isKeyName key = run.1 := by
  induction keys generalizing areKeys run with
  | nil => exact ⟨[(areKeys, run)], rfl, by simp, by simpa using same⟩
  | cons key keys ih =>
    rw [sendRuns]
    split_ifs with more
    · have same : ∀ k ∈ run ++ [key], isKeyName k = areKeys := by
        simpa [or_imp, forall_and, more] using same
      obtain ⟨runs, lines, all, uniform⟩ := ih areKeys (run ++ [key]) same
      exact ⟨runs, lines, by rw [all, append_assoc]; rfl, uniform⟩
    · obtain ⟨runs, lines, all, uniform⟩ := ih (isKeyName key) [key] (by simp)
      refine ⟨(areKeys, run) :: runs, by rw [lines]; rfl, by rw [flatMap_cons, all]; rfl, ?_⟩
      exact forall_mem_cons.mpr ⟨same, uniform⟩

/-- A line of quoted arguments is one command, and the commands that send keys hold the keys in
order, in runs of key names or of literals. What comes out of the quotes is what went in without
its line breaks and NULs. -/
theorem quoted_commands_decoded :
    (∀ args : List Text,
      tokenise ([' '].intercalate (args.map quoteArg)) = some [args.map stripped]) ∧
    ∀ (paneId : Text) (keys : List Text), ∃ runs : List (Bool × List Text),
      runs.flatMap (·.2) = keys ∧ (∀ run ∈ runs, ∀ key ∈ run.2, isKeyName key = run.1) ∧
      (sendKeysCommands paneId keys).map tokenise = runs.map (fun run =>
        some [sendKeysArgs (stripped paneId) run.1 (run.2.map stripped)]) ∧
      ∀ line ∈ sendKeysCommands paneId keys, validateCommandLine line = .ok () := by
  refine ⟨tokenise_quoted, fun paneId keys => ?_⟩
  have found : ∃ runs : List (Bool × List Text),
      sendKeysCommands paneId keys = runs.map (fun run => sendKeys paneId run.1 run.2) ∧
      runs.flatMap (·.2) = keys ∧ ∀ run ∈ runs, ∀ key ∈ run.2, isKeyName key = run.1 := by
    cases keys with
    | nil => exact ⟨[], rfl, rfl, by simp⟩
    | cons key keys => exact exists_runs paneId (isKeyName key) [key] keys (by simp)
  obtain ⟨runs, lines, all, uniform⟩ := found
  rw [lines]
  refine ⟨runs, all, uniform, ?_, ?_⟩
  · simp only [map_map, Function.comp_def, tokenise_sendKeys]
  · simp only [mem_map, forall_exists_index, and_imp]
    rintro _ run - rfl
    exact validateCommandLine_sendKeys _ _ _

/-- The key is one character after a modifier, and that character is a line break. -/
theorem line_break_dropped :
    (sendKeysCommands ['%'] [['C', '-', '\n']]).map tokenise =
      [some [sendKeysArgs ['%'] true [['C', '-']]]] ∧ ¬ isKeyName ['C', '-'] := by
  decide

end Cyclops.Quote
