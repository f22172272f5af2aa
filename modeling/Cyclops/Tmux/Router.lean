import Cyclops.Tmux.Notify

/-!
# Routing the control stream

tmux writes two kinds of traffic on one stream of lines: notifications, and blocks that carry the
reply to a command between `%begin` and `%end` or `%error`.

Result: `stream_faithful_iff`.
-/

namespace Cyclops.Tmux

open TextLines LossyText List

/-! ## The router -/

def controlBlockMaxBytes : Nat := 8 * 2 ^ 20

def controlBlockMaxLines : Nat := 65536

/-- A field of the tail of a `%begin`, `%end` or `%error` line, counted from zero. -/
def blockField (rest : List UInt8) (n : Nat) : Option (List UInt8) :=
  ((rest.splitOnP (· = 32)).filter (· ≠ []))[n]?

def blockNum (rest : List UInt8) : Option Nat := do
  let field ← blockField rest 1
  let text ← decode field
  parseU64 (encode text)

/-- `%end` or `%error`. -/
inductive Ending where
  | finished
  | failed

def readTerminator (line : List UInt8) : Option (Ending × List UInt8) :=
  match (line.dropPrefix? (encode "%end ")).or (if line = encode "%end" then some [] else none) with
  | some rest => some (.finished, rest)
  | none => (line.dropPrefix? (encode "%error ")).map (.failed, ·)

def closing (command : Option Nat) (line : List UInt8) : Option Ending :=
  match readTerminator line with
  | some (ending, rest) => if blockNum rest = command then some ending else none
  | none => none

def Ending.result (ending : Ending) (lines : List String) : Except String (List String) :=
  match ending with
  | .finished => .ok lines
  | .failed => .error ("\n".intercalate lines)

structure OpenBlock where
  client : Bool
  command : Option Nat
  lines : List String
  bytes : Nat

/-- What the router hands on. -/
inductive Routed where
  | reply (client : Bool) (result : Except String (List String))
  | blockOverflow
  | notify (notification : Notification)
deriving DecidableEq

structure LineRouter where
  block : Option OpenBlock

namespace LineRouter

def new : LineRouter where
  block := none

def feed (router : LineRouter) (line : List UInt8) : LineRouter × Option Routed :=
  match router.block with
  | some block =>
    match closing block.command line with
    | some ending => (⟨none⟩, some (.reply block.client (ending.result block.lines)))
    | none =>
      let nextBytes := block.bytes + line.length + 1
      if controlBlockMaxLines ≤ block.lines.length ∨ controlBlockMaxBytes < nextBytes then
        (⟨none⟩, some .blockOverflow)
      else
        (⟨some { block with
          bytes := nextBytes
          lines := block.lines ++ [fromUtf8Lossy line] }⟩, none)
  | none =>
    match line.dropPrefix? (encode "%begin ") with
    | some rest =>
      (⟨some {
        command := blockNum rest
        client := blockField rest 2 = some (encode "1")
        lines := []
        bytes := 0 }⟩, none)
    | none => (⟨none⟩, some (.notify (parseNotificationBytes line)))

def run (router : LineRouter) : List (List UInt8) → LineRouter × List Routed
  | [] => (router, [])
  | line :: rest =>
    let (next, routed) := router.feed line
    let (last, others) := run next rest
    (last, routed.toList ++ others)

theorem run_append (r : LineRouter) (b a : List (List UInt8)) :
    r.run (b ++ a) = (((r.run b).1.run a).1, (r.run b).2 ++ ((r.run b).1.run a).2) := by
  induction b generalizing r with
  | nil => rfl
  | cons line b ih =>
    simp only [cons_append, run, ih, append_assoc]

end LineRouter

/-! ## What tmux writes -/

/-- A reply block. Its terminator repeats the command number of its first line. -/
structure ReplyBlock where
  number : Nat
  opening : List UInt8
  content : List (List UInt8)
  ending : Ending
  closingTail : List UInt8
  opening_number : blockNum opening = some number
  closing_number : blockNum closingTail = some number

namespace ReplyBlock

def beginLine (block : ReplyBlock) : List UInt8 :=
  encode "%begin " ++ block.opening

def endLine (block : ReplyBlock) : List UInt8 :=
  match block.ending with
  | .finished => encode "%end " ++ block.closingTail
  | .failed => encode "%error " ++ block.closingTail

def lines (block : ReplyBlock) : List (List UInt8) :=
  block.beginLine :: (block.content ++ [block.endLine])

def client (block : ReplyBlock) : Bool :=
  blockField block.opening 2 = some (encode "1")

def routed (block : ReplyBlock) : Routed :=
  .reply block.client (block.ending.result (block.content.map fromUtf8Lossy))

structure Plain (block : ReplyBlock) : Prop where
  unforged : ∀ line ∈ block.content, closing (some block.number) line = none
  lines_fit : block.content.length ≤ controlBlockMaxLines
  bytes_fit : (block.content.map fun line => line.length + 1).sum ≤ controlBlockMaxBytes

end ReplyBlock

/-- What tmux writes. -/
inductive StreamItem where
  | notification (line : List UInt8) (outside : line.dropPrefix? (encode "%begin ") = none)
  | block (reply : ReplyBlock)

namespace StreamItem

def lines : StreamItem → List (List UInt8)
  | .notification line _ => [line]
  | .block reply => reply.lines

def routed : StreamItem → Routed
  | .notification line _ => .notify (parseNotificationBytes line)
  | .block reply => reply.routed

end StreamItem

/-! ## Terminators -/

theorem dropPrefix?_encode_append (s : String) (rest : List UInt8) :
    (encode s ++ rest).dropPrefix? (encode s) = some rest :=
  dropPrefix?_append_of_beq rest (beq_self_eq_true _)

theorem readTerminator_end (rest : List UInt8) :
    readTerminator (encode "%end " ++ rest) = some (.finished, rest) := by
  rw [readTerminator, dropPrefix?_encode_append]
  rfl

theorem readTerminator_error (rest : List UInt8) :
    readTerminator (encode "%error " ++ rest) = some (.failed, rest) := by
  have he : (encode "%error " ++ rest).dropPrefix? (encode "%end ") = none := rfl
  have hb : encode "%error " ++ rest ≠ encode "%end" := by
    intro h
    have ht : some (114 : UInt8) = some 110 := congrArg (·[2]?) h
    exact absurd ht (by decide)
  rw [readTerminator, he, if_neg hb, dropPrefix?_encode_append]
  rfl

theorem ne_nil_of_closing {cmd : Option Nat} {line : List UInt8} {e : Ending}
    (h : closing cmd line = some e) : line ≠ [] := by
  rintro rfl
  exact nomatch h

theorem ReplyBlock.closing_endLine (block : ReplyBlock) :
    closing (some block.number) block.endLine = some block.ending := by
  unfold endLine closing
  cases block.ending with
  | finished => rw [readTerminator_end]; exact if_pos block.closing_number
  | failed => rw [readTerminator_error]; exact if_pos block.closing_number

/-! ## A block that is read to its end -/

namespace LineRouter

variable {block : OpenBlock} {line : List UInt8}

theorem feed_of_closing {e : Ending} (h : closing block.command line = some e) :
    feed ⟨some block⟩ line = (⟨none⟩, some (.reply block.client (e.result block.lines))) := by
  simp only [feed, h]

theorem feed_content (h : closing block.command line = none)
    (hl : block.lines.length < controlBlockMaxLines)
    (hb : block.bytes + line.length + 1 ≤ controlBlockMaxBytes) :
    feed ⟨some block⟩ line = (⟨some { block with
        bytes := block.bytes + line.length + 1
        lines := block.lines ++ [fromUtf8Lossy line] }⟩, none) := by
  simp only [feed, h]
  rw [if_neg (by omega)]

theorem feed_beginLine (block : ReplyBlock) : new.feed block.beginLine =
      (⟨some { command := some block.number, client := block.client, lines := [], bytes := 0 }⟩,
        none) := by
  simp only [feed, new, ReplyBlock.beginLine, dropPrefix?_encode_append, block.opening_number,
    ReplyBlock.client]

variable {content : List (List UInt8)}

/-- Content that stays within the limits and has no terminator is collected. -/
theorem run_content (block : OpenBlock) (hc : ∀ line ∈ content, closing block.command line = none)
    (hl : block.lines.length + content.length ≤ controlBlockMaxLines)
    (hb : block.bytes + (content.map fun line => line.length + 1).sum ≤ controlBlockMaxBytes) :
    ∃ bytes, run ⟨some block⟩ content =
      (⟨some { block with bytes, lines := block.lines ++ content.map fromUtf8Lossy }⟩, []) := by
  induction content generalizing block with
  | nil => exact ⟨block.bytes, by rw [map_nil, append_nil]; rfl⟩
  | cons line content ih =>
    obtain ⟨hli, hr⟩ := forall_mem_cons.mp hc
    rw [length_cons] at hl
    rw [map_cons, sum_cons] at hb
    obtain ⟨bytes, hru⟩ := ih { block with
      bytes := block.bytes + line.length + 1
      lines := block.lines ++ [fromUtf8Lossy line] } hr
        (by rw [length_append, length_singleton]; omega) (by dsimp only; omega)
    refine ⟨bytes, ?_⟩
    rw [run, feed_content hli (by omega) (by omega)]
    dsimp only
    rw [hru, map_cons, append_assoc]
    rfl

theorem run_plain {block : ReplyBlock} (h : block.Plain) :
    new.run block.lines = (new, [block.routed]) := by
  obtain ⟨bytes, hr⟩ := run_content
    { command := some block.number, client := block.client, lines := [], bytes := 0 }
    h.unforged (by simpa using h.lines_fit) (by simpa using h.bytes_fit)
  rw [ReplyBlock.lines, run, feed_beginLine]
  dsimp only
  rw [run_append, hr, run, feed_of_closing block.closing_endLine]
  rfl

/-! ## A block that is not -/

/-- How a block can end early. -/
inductive Cut (block : OpenBlock) (content : List (List UInt8)) : Routed → Prop
  | overflow : Cut block content .blockOverflow
  | forged {before after : List (List UInt8)} {line : List UInt8} {ending : Ending} :
      content = before ++ line :: after → line ≠ [] →
      Cut block content
        (.reply block.client (ending.result (block.lines ++ before.map fromUtf8Lossy)))

theorem Cut.cons {bytes : Nat} {routed : Routed}
    (h : Cut { block with bytes, lines := block.lines ++ [fromUtf8Lossy line] } content routed) :
    Cut block (line :: content) routed := by
  cases h with
  | overflow => exact .overflow
  | @forged before after forged ending hc hne =>
    have hb := @Cut.forged block (line :: content) (line :: before) after forged ending
      (by rw [hc]; rfl) hne
    rwa [map_cons, append_cons] at hb

theorem run_cut (block : OpenBlock) (more : List (List UInt8))
    (h : ¬ ((∀ line ∈ content, closing block.command line = none) ∧
      block.lines.length + content.length ≤ controlBlockMaxLines ∧
      block.bytes + (content.map fun line => line.length + 1).sum ≤ controlBlockMaxBytes))
    (hlin : block.lines.length ≤ controlBlockMaxLines)
    (hby : block.bytes ≤ controlBlockMaxBytes) :
    ∃ routed others, (run ⟨some block⟩ (content ++ more)).2 = routed :: others ∧
      Cut block content routed := by
  induction content generalizing block with
  | nil => exact absurd ⟨forall_mem_nil _, hlin, hby⟩ h
  | cons line content ih =>
    rw [cons_append, run]
    cases hli : closing block.command line with
    | some ending =>
      rw [feed_of_closing hli]
      have hcu : Cut block (line :: content) (.reply block.client (ending.result block.lines)) := by
        have hf := @Cut.forged block (line :: content) [] content line ending rfl
          (ne_nil_of_closing hli)
        rwa [map_nil, append_nil] at hf
      exact ⟨_, _, rfl, hcu⟩
    | none =>
      by_cases hlim : controlBlockMaxLines ≤ block.lines.length ∨
          controlBlockMaxBytes < block.bytes + line.length + 1
      · simp only [feed, hli, if_pos hlim]
        exact ⟨_, _, rfl, .overflow⟩
      · obtain ⟨hlinesL, hbyt⟩ := not_or.mp hlim
        rw [feed_content hli (by omega) (by omega)]
        dsimp only
        obtain ⟨routed, others, hr, hcu⟩ := ih { block with
          bytes := block.bytes + line.length + 1
          lines := block.lines ++ [fromUtf8Lossy line] }
          (fun ⟨hc, hl, hb⟩ => h ⟨forall_mem_cons.mpr ⟨hli, hc⟩, by
            rw [length_append, length_singleton] at hl
            rw [length_cons]
            rw [map_cons, sum_cons]
            dsimp only at hb
            omega⟩)
          (by rw [length_append, length_singleton]; omega) (by dsimp only; omega)
        exact ⟨routed, others, by rw [hr]; rfl, hcu.cons⟩

theorem length_intercalate_lt {s : List Char} {line : List Char}
    {b a : List (List Char)} (h : line ≠ []) (hs : s ≠ []) :
    (s.intercalate b).length < (s.intercalate (b ++ line :: a)).length := by
  have hl := length_pos_of_ne_nil h
  have hse := length_pos_of_ne_nil hs
  induction b with
  | nil =>
    cases a with
    | nil => simpa using hl
    | cons => simp; omega
  | cons first b ih =>
    cases b with
    | nil => simp; omega
    | cons => simpa using ih

theorem result_ne {e e' : Ending} {b a : List (List UInt8)} (h : line ≠ []) :
    e.result (b.map fromUtf8Lossy) ≠ e'.result ((b ++ line :: a).map fromUtf8Lossy) := by
  rw [map_append, map_cons]
  intro heq
  cases e with
  | finished =>
    cases e' with
    | finished => simpa using congrArg length (Except.ok.inj heq)
    | failed => exact nomatch heq
  | failed =>
    cases e' with
    | finished => exact nomatch heq
    | failed =>
      have hj := congrArg String.toList (Except.error.inj heq)
      rw [String.toList_intercalate, String.toList_intercalate, map_append, map_cons] at hj
      refine absurd (congrArg length hj) (Nat.ne_of_lt (length_intercalate_lt ?_ ?_))
      · exact fromUtf8Lossy_ne_empty h
      · decide

theorem run_not_plain {block : ReplyBlock} (h : ¬ block.Plain) (more : List (List UInt8)) :
    ∃ r others, (new.run (block.lines ++ more)).2 = r :: others ∧ r ≠ block.routed := by
  obtain ⟨r, others, hr, hcu⟩ := @run_cut block.content
    { command := some block.number, client := block.client, lines := [], bytes := 0 }
    ([block.endLine] ++ more)
    (fun ⟨hc, hl, hb⟩ =>
      h ⟨hc, by simpa using hl, by simpa using hb⟩)
    (Nat.zero_le _) (Nat.zero_le _)
  refine ⟨r, others, ?_, ?_⟩
  · rw [ReplyBlock.lines, cons_append, run, feed_beginLine, append_assoc]
    exact hr
  · intro heq
    cases hcu with
    | overflow => exact nomatch heq
    | forged hco hne =>
      rw [ReplyBlock.routed, hco] at heq
      exact result_ne hne (Routed.reply.inj heq).2

/-! ## Streams -/

/-- The router delivers the replies and notifications of a stream exactly when every block is within
the limits and has no line that reads as its own terminator. -/
theorem stream_faithful_iff (stream : List StreamItem) :
    (new.run (stream.flatMap StreamItem.lines)).2 = stream.map StreamItem.routed ↔
      ∀ block, .block block ∈ stream → block.Plain := by
  induction stream with
  | nil => exact ⟨fun _ _ h => (nomatch h), fun _ => rfl⟩
  | cons item stream ih =>
    rw [flatMap_cons, map_cons]
    cases item with
    | notification line ho =>
      have hf : new.feed line = (new, some (.notify (parseNotificationBytes line))) := by
        simp only [feed, new, ho]
      rw [StreamItem.lines, singleton_append, run, hf]
      simp only [StreamItem.routed, Option.toList_some, singleton_append, cons.injEq,
        true_and, mem_cons, reduceCtorEq, false_or]
      exact ih
    | block block =>
      simp only [StreamItem.lines]
      by_cases hp : block.Plain
      · rw [run_append, run_plain hp, singleton_append, cons.injEq, ih]
        exact ⟨fun ⟨_, hr⟩ o hm => by
          rcases mem_cons.mp hm with heq | hm
          · exact StreamItem.block.inj heq ▸ hp
          · exact hr o hm,
          fun h => ⟨rfl, fun o hm => h o (mem_cons_of_mem _ hm)⟩⟩
      · obtain ⟨r, others, hru, hne⟩ := run_not_plain hp (stream.flatMap StreamItem.lines)
        rw [hru, cons.injEq]
        exact ⟨fun h => absurd h.1 hne, fun h => absurd (h block mem_cons_self) hp⟩

/-- Captured pane text with four lines of control mode in a reply to command 7. -/
def capturedBlock : ReplyBlock where
  number := 7
  opening := encode "1 7 1"
  content := [encode "%end 1 7 1", encode "%begin 1 8 1", encode "yes", encode "%end 1 8 1",
    encode "%output %1 hi"]
  ending := .finished
  closingTail := encode "1 7 1"
  opening_number := by decide +kernel
  closing_number := by decide +kernel

/-- The pane's text cuts the reply, and makes up a second reply and a notification. -/
theorem pane_text_forges :
    (new.run (StreamItem.block capturedBlock).lines).2 =
      [.reply true (.ok []), .reply true (.ok ["yes"]), .notify (.output "%1" (encode "hi")),
        .notify (.other "%end 1 7 1")] ∧
    (new.run (StreamItem.block capturedBlock).lines).2 ≠
      [(StreamItem.block capturedBlock).routed] := by
  decide +kernel

end LineRouter

end Cyclops.Tmux
