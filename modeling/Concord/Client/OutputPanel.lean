import Concord.Client.ServerMessages
import Mathlib.Data.List.TakeWhile

/-!
Contract: what the output panel of a page shows.

Owns:
- `renderAnsi`, which cuts a text at the colour sequences in it, and the console of
  `OutputPanel`;
- a terminal that reads its input one character at a time, and the refinement: the console
  shows what the terminal does;
- what is shown while the output of the worker arrives.

No sequence has a character outside ASCII in it, so a text is its list of characters here
and not of UTF-16 code units.

Does not own: the list of executions, scrolling, or the buttons of the panel.
-/

set_option autoImplicit false

namespace Concord.Client

open Collaboration Execution

/-! ### Styles -/

/-- The style of a span: the `CSSProperties` that are set. -/
structure Style where
  color : Option String
  fontWeight : Option Nat
  deriving DecidableEq

def ansiColors : Nat → Option String
  | 30 => some "#64748b"
  | 31 => some "#ff6b81"
  | 32 => some "#36d399"
  | 33 => some "#f7c948"
  | 34 => some "#7c8cff"
  | 35 => some "#c084fc"
  | 36 => some "#22d3ee"
  | 37 => some "#e2e8f0"
  | 90 => some "#94a3b8"
  | 91 => some "#fb7185"
  | 92 => some "#6ee7b7"
  | 93 => some "#fde68a"
  | 94 => some "#a5b4fc"
  | 95 => some "#d8b4fe"
  | 96 => some "#67e8f9"
  | 97 => some "#f8fafc"
  | _ => none

def truthy (text : Option String) : Option String :=
  text.filter (· ≠ "")

/-- `fallback ? { color: fallback } : {}`. -/
def Style.plain (fallback : Option String) : Style :=
  ⟨truthy fallback, none⟩

/-- What one code does to the style. -/
def Style.select (fallback : Option String) (style : Style) (code : Nat) : Style :=
  if code = 0 then Style.plain fallback
  else if code = 1 then { style with fontWeight := some 700 }
  else if code = 22 then { style with fontWeight := some 400 }
  else if code = 39 then { style with color := fallback }
  else if (ansiColors code).isSome then { style with color := ansiColors code }
  else style

/-- The codes of a sequence: `(match[1] || '0').split(';').map(Number)`. -/
def codesOf (group : List Char) : List Nat :=
  ((if group = [] then ['0'] else group).splitOn ';').map fun digits =>
    Nat.ofDigitChars 10 digits 0

def Style.selectAll (fallback : Option String) (style : Style) (group : List Char) : Style :=
  (codesOf group).foldl (Style.select fallback) style

/-! ### Sequences in a text -/

def escape : Char := '\u001b'

def isParameter (char : Char) : Bool :=
  char.isDigit || char = ';'

/-- The group of the pattern, where the pattern matches at the start of a text. No
parameter is an `m`, so the longest run of parameters is the only candidate. -/
def matchHead (text : List Char) : Option (List Char) :=
  if text.take 2 = [escape, '['] ∧ ((text.drop 2).dropWhile isParameter).head? = some 'm' then
    some ((text.drop 2).takeWhile isParameter)
  else none

/-- A match: its `index`, and its group. -/
structure Match where
  index : Nat
  group : List Char
  deriving DecidableEq

def Match.length (found : Match) : Nat :=
  found.group.length + 3

/-- `text.matchAll(pattern)`, from an index on. -/
def matchAll (index : Nat) : List Char → List Match
  | [] => []
  | char :: rest =>
      match matchHead (char :: rest) with
      | some group =>
          ⟨index, group⟩ :: matchAll (index + (group.length + 3)) (rest.drop (group.length + 2))
      | none => matchAll (index + 1) rest
  termination_by text => text.length

/-- A text with a sequence in it. -/
def sequence (group : List Char) : List Char :=
  escape :: '[' :: (group ++ ['m'])

private theorem escape_not_parameter : isParameter escape = false := by decide

private theorem m_not_parameter : isParameter 'm' = false := by decide

/-- The pattern matches at the start of a text that starts with a sequence. -/
theorem matchHead_eq_some {text group : List Char} :
    matchHead text = some group ↔
      (∀ char ∈ group, isParameter char = true) ∧ ∃ after, text = sequence group ++ after := by
  constructor
  · intro matched
    unfold matchHead at matched
    split at matched
    · next found =>
        obtain ⟨introduced, ended⟩ := found
        obtain rfl := Option.some.inj matched
        refine ⟨fun char => List.mem_takeWhile_imp, ?_⟩
        obtain ⟨after, final⟩ := List.head?_eq_some_iff.mp ended
        refine ⟨after, ?_⟩
        calc text = text.take 2 ++ text.drop 2 := (List.take_append_drop 2 text).symm
          _ = [escape, '['] ++ ((text.drop 2).takeWhile isParameter ++
                (text.drop 2).dropWhile isParameter) := by
              rw [introduced, List.takeWhile_append_dropWhile]
          _ = _ := by rw [final]; simp [sequence]
    · cases matched
  · rintro ⟨all, after, rfl⟩
    have rest : (sequence group ++ after).drop 2 = group ++ 'm' :: after := by simp [sequence]
    unfold matchHead
    rw [rest, List.takeWhile_append_of_pos all, List.dropWhile_append_of_pos all,
      List.takeWhile_cons_of_neg (by simp [m_not_parameter]),
      List.dropWhile_cons_of_neg (by simp [m_not_parameter]), List.append_nil]
    exact if_pos ⟨rfl, rfl⟩

/-! ### `renderAnsi` -/

structure Span where
  key : String
  style : Style
  text : List Char
  deriving DecidableEq

structure Rendering where
  nodes : List Span
  style : Style
  offset : Nat
  index : Nat

def spanKey (name : String) (index : Nat) : String :=
  name ++ "-" ++ toString index

/-- `nodes.push`. -/
def Rendering.push (name : String) (text : List Char) (rendering : Rendering) : Rendering :=
  { rendering with
    nodes := rendering.nodes ++ [⟨spanKey name rendering.index, rendering.style, text⟩]
    index := rendering.index + 1 }

/-- One turn of the loop over the matches. -/
def Rendering.visit (text : List Char) (name : String) (fallback : Option String)
    (rendering : Rendering) (found : Match) : Rendering :=
  let pushed :=
    if found.index > rendering.offset then
      rendering.push name ((text.take found.index).drop rendering.offset)
    else rendering
  { pushed with
    style := pushed.style.selectAll fallback found.group
    offset := found.index + found.length }

def Rendering.finish (text : List Char) (name : String) (rendering : Rendering) : List Span :=
  if rendering.offset < text.length then
    (rendering.push name (text.drop rendering.offset)).nodes
  else rendering.nodes

def renderAnsi (text : List Char) (name : String) (fallback : Option String) : List Span :=
  ((matchAll 0 text).foldl (Rendering.visit text name fallback)
    ⟨[], Style.plain fallback, 0, 0⟩).finish text name

abbrev Cell := Char × Style

def cells (nodes : List Span) : List Cell :=
  nodes.flatMap fun node => node.text.map (·, node.style)

/-! ### A terminal -/

/-- What a terminal has read of a sequence. -/
inductive Scanner where
  | ground
  | escaped
  | parameters (read : List Char) (all : ∀ char ∈ read, isParameter char = true)

/-- The characters that are held back until it is clear whether they are of a sequence. -/
def Scanner.pending : Scanner → List Char
  | .ground => []
  | .escaped => [escape]
  | .parameters read _ => escape :: '[' :: read

structure Terminal where
  shown : List Cell
  style : Style
  scanner : Scanner

namespace Terminal

def start (fallback : Option String) : Terminal :=
  ⟨[], Style.plain fallback, .ground⟩

def print (text : List Char) (terminal : Terminal) : Terminal :=
  { terminal with shown := terminal.shown ++ text.map (·, terminal.style), scanner := .ground }

/-- A character that does not continue a sequence. -/
def interrupt (char : Char) (terminal : Terminal) : Terminal :=
  if char = escape then
    { terminal.print terminal.scanner.pending with scanner := .escaped }
  else terminal.print (terminal.scanner.pending ++ [char])

def step (fallback : Option String) (terminal : Terminal) (char : Char) : Terminal :=
  match terminal.scanner with
  | .ground => terminal.interrupt char
  | .escaped =>
      if char = '[' then { terminal with scanner := .parameters [] nofun }
      else terminal.interrupt char
  | .parameters read all =>
      if own : isParameter char = true then
        { terminal with
          scanner := .parameters (read ++ [char]) fun other member =>
            (List.mem_append.mp member).elim (all other) fun last =>
              List.mem_singleton.mp last ▸ own }
      else if char = 'm' then
        { terminal with style := terminal.style.selectAll fallback read, scanner := .ground }
      else terminal.interrupt char

def read (fallback : Option String) (terminal : Terminal) (text : List Char) : Terminal :=
  text.foldl (step fallback) terminal

/-- What stands on the terminal, with what is held back. -/
def display (terminal : Terminal) : List Cell :=
  terminal.shown ++ terminal.scanner.pending.map (·, terminal.style)

@[simp]
theorem read_nil (fallback : Option String) (terminal : Terminal) :
    terminal.read fallback [] = terminal := rfl

@[simp]
theorem read_cons (fallback : Option String) (terminal : Terminal) (char : Char)
    (rest : List Char) :
    terminal.read fallback (char :: rest) = (terminal.step fallback char).read fallback rest := rfl

theorem read_append (fallback : Option String) (terminal : Terminal) (first second : List Char) :
    terminal.read fallback (first ++ second) =
      (terminal.read fallback first).read fallback second :=
  List.foldl_append

/-- A character after a text that was held back in vain. -/
theorem interrupt_print (char : Char) (terminal : Terminal) :
    (terminal.print terminal.scanner.pending).interrupt char = terminal.interrupt char := by
  unfold interrupt
  split <;> simp [print, Scanner.pending]

/-- What is held back is shown in the end, when no sequence comes of it. -/
theorem display_read_pending (fallback : Option String) {rest : List Char} :
    ∀ {terminal : Terminal}, matchHead (terminal.scanner.pending ++ rest) = none →
      (terminal.read fallback rest).display =
        ((terminal.print terminal.scanner.pending).read fallback rest).display := by
  induction rest with
  | nil =>
      intro terminal _
      simp [display, print, Scanner.pending]
  | cons char rest inductionHypothesis =>
      intro terminal unmatched
      have inVain : ∀ {next : Terminal},
          next.scanner.pending = terminal.scanner.pending ++ [char] →
          next.shown = terminal.shown → next.style = terminal.style → char ≠ escape →
          (next.read fallback rest).display =
            (((terminal.print terminal.scanner.pending).interrupt char).read fallback
              rest).display := by
        intro next pending shown style plain
        have nextPrint : next.print next.scanner.pending =
            (terminal.print terminal.scanner.pending).interrupt char := by
          rw [interrupt_print, interrupt, if_neg plain, pending, print, print, shown, style]
        rw [inductionHypothesis (by rw [pending, List.append_assoc]; exact unmatched), nextPrint]
      rw [read_cons, read_cons]
      show _ = (((terminal.print terminal.scanner.pending).interrupt char).read fallback
        rest).display
      unfold step
      split
      · rw [interrupt_print]
      · next escaped =>
          split
          · next bracket =>
              subst bracket
              exact inVain (by rw [escaped]; rfl) rfl rfl (by decide)
          · rw [interrupt_print]
      · next read all parameters =>
          split
          · next own =>
              refine inVain (by rw [parameters]; rfl) rfl rfl ?_
              rintro rfl
              exact Bool.false_ne_true (escape_not_parameter.symm.trans own)
          · split
            · next final =>
                subst final
                have matched : matchHead (terminal.scanner.pending ++ 'm' :: rest) = some read :=
                  matchHead_eq_some.mpr ⟨all, rest, by
                    rw [parameters]
                    simp [Scanner.pending, sequence]⟩
                cases unmatched.symm.trans matched
            · rw [interrupt_print]

/-- A terminal that has read the parameters of a sequence takes the rest of it. -/
theorem read_parameters (fallback : Option String) (rest : List Char) {group : List Char}
    (own : ∀ char ∈ group, isParameter char = true) :
    ∀ {terminal : Terminal} {before : List Char}
      {all : ∀ char ∈ before, isParameter char = true},
      terminal.scanner = .parameters before all →
      terminal.read fallback (group ++ 'm' :: rest) =
        Terminal.read fallback ⟨terminal.shown,
          terminal.style.selectAll fallback (before ++ group), .ground⟩ rest := by
  induction group with
  | nil =>
      intro terminal before all scanned
      rw [List.nil_append, read_cons, List.append_nil]
      unfold step
      rw [scanned]
      simp [m_not_parameter]
  | cons char group inductionHypothesis =>
      intro terminal before all scanned
      obtain ⟨first, others⟩ := List.forall_mem_cons.mp own
      rw [List.cons_append, read_cons]
      unfold step
      rw [scanned]
      simp only [first, dite_true]
      rw [inductionHypothesis others rfl, List.append_assoc, List.singleton_append]

/-- What a terminal has shown stands. -/
theorem shown_step (fallback : Option String) (terminal : Terminal) (char : Char) :
    terminal.shown <+: (terminal.step fallback char).shown := by
  have interrupted : terminal.shown <+: (terminal.interrupt char).shown := by
    unfold interrupt
    split <;> exact List.prefix_append _ _
  unfold step
  split
  · exact interrupted
  · split
    · exact List.prefix_rfl
    · exact interrupted
  · split
    · exact List.prefix_rfl
    · split
      · exact List.prefix_rfl
      · exact interrupted

private theorem shown_read (fallback : Option String) (terminal : Terminal) (text : List Char) :
    terminal.shown <+: (terminal.read fallback text).shown := by
  induction text generalizing terminal with
  | nil => exact List.prefix_rfl
  | cons char text inductionHypothesis =>
      exact (shown_step fallback terminal char).trans (inductionHypothesis _)

/-- A terminal between two sequences takes a sequence. -/
theorem read_sequence (fallback : Option String) (rest : List Char) {group : List Char}
    (own : ∀ char ∈ group, isParameter char = true) {terminal : Terminal}
    (ground : terminal.scanner = .ground) :
    terminal.read fallback (sequence group ++ rest) =
      Terminal.read fallback
        ⟨terminal.shown, terminal.style.selectAll fallback group, .ground⟩ rest := by
  have introduced : terminal.read fallback (sequence group ++ rest) =
      Terminal.read fallback ⟨terminal.shown, terminal.style, .parameters [] nofun⟩
        (group ++ 'm' :: rest) := by
    obtain ⟨shown, style, scanner⟩ := terminal
    simp only at ground
    subst ground
    simp [sequence, step, interrupt, print, Scanner.pending]
  rw [introduced, read_parameters fallback rest own rfl, List.nil_append]

/-- A character at which no sequence starts is shown. -/
theorem display_read_cons (fallback : Option String) {char : Char} {rest : List Char}
    (unmatched : matchHead (char :: rest) = none) {terminal : Terminal}
    (ground : terminal.scanner = .ground) :
    (terminal.read fallback (char :: rest)).display =
      ((terminal.print [char]).read fallback rest).display := by
  have taken : terminal.step fallback char = terminal.interrupt char := by
    unfold step
    rw [ground]
  rw [read_cons, taken]
  unfold interrupt
  rw [ground]
  split
  · next escaping =>
      subst escaping
      rw [display_read_pending fallback unmatched]
      simp [print, Scanner.pending]
  · rfl

end Terminal

/-! ### The spans show what the terminal does -/

private theorem length_sequence (group : List Char) :
    (sequence group).length = group.length + 3 := by
  simp [sequence]

private theorem cells_push (name : String) (text : List Char) (rendering : Rendering) :
    cells (rendering.push name text).nodes =
      cells rendering.nodes ++ text.map (·, rendering.style) := by
  simp [cells, Rendering.push]

/-- A turn of the loop at the end of `before`: the text since the last match is pushed. -/
theorem cells_visit (name : String) (fallback : Option String) (before after group : List Char)
    (rendering : Rendering) :
    cells (rendering.visit (before ++ after) name fallback ⟨before.length, group⟩).nodes =
      cells rendering.nodes ++ (before.drop rendering.offset).map (·, rendering.style) := by
  unfold Rendering.visit
  by_cases further : before.length > rendering.offset
  · simp only [if_pos further, List.take_left]
    exact cells_push name _ rendering
  · simp only [if_neg further]
    rw [List.drop_eq_nil_of_le (Nat.le_of_not_gt further), List.map_nil, List.append_nil]

private theorem style_visit (text : List Char) (name : String) (fallback : Option String)
    (rendering : Rendering) (index : Nat) (group : List Char) :
    (rendering.visit text name fallback ⟨index, group⟩).style =
      rendering.style.selectAll fallback group := by
  unfold Rendering.visit
  split <;> rfl

private theorem offset_visit (text : List Char) (name : String) (fallback : Option String)
    (rendering : Rendering) (index : Nat) (group : List Char) :
    (rendering.visit text name fallback ⟨index, group⟩).offset =
      index + (group.length + 3) := rfl

/-- The text behind the last match is pushed. -/
theorem cells_finish (name : String) {text : List Char} {rendering : Rendering} :
    cells (rendering.finish text name) =
      cells rendering.nodes ++ (text.drop rendering.offset).map (·, rendering.style) := by
  unfold Rendering.finish
  split
  · exact cells_push name _ rendering
  · next ended =>
      rw [List.drop_eq_nil_of_le (Nat.le_of_not_lt ended), List.map_nil, List.append_nil]

/-- The loop from a point of the text on. The terminal has shown what the loop has pushed,
and also the text since the last match, which the loop pushes later. -/
theorem cells_visits (name : String) (fallback : Option String) {index : Nat} {rest : List Char} :
    ∀ (before : List Char) (rendering : Rendering), before.length = index →
      rendering.offset ≤ before.length →
      cells (((matchAll index rest).foldl (Rendering.visit (before ++ rest) name fallback)
        rendering).finish (before ++ rest) name) =
        (Terminal.read fallback ⟨cells rendering.nodes ++
          (before.drop rendering.offset).map (·, rendering.style), rendering.style, .ground⟩
          rest).display := by
  induction index, rest using matchAll.induct with
  | case1 index =>
      intro before rendering _ reached
      rw [matchAll, List.foldl_nil, List.append_nil, cells_finish]
      simp [Terminal.display, Scanner.pending]
  | case2 index char rest group matched inductionHypothesis =>
      rintro before rendering rfl reached
      obtain ⟨own, after, text⟩ := matchHead_eq_some.mp matched
      have behind : rest.drop (group.length + 2) = after := by
        have dropped := congrArg (List.drop (group.length + 3)) text
        rwa [List.drop_succ_cons, List.drop_left' (length_sequence group)] at dropped
      have length : (before ++ sequence group).length = before.length + (group.length + 3) := by
        rw [List.length_append, length_sequence]
      have nodes := cells_visit name fallback before (char :: rest) group rendering
      have style := style_visit (before ++ char :: rest) name fallback rendering
        before.length group
      have offset := offset_visit (before ++ char :: rest) name fallback rendering
        before.length group
      have onward := inductionHypothesis (before ++ sequence group)
        (rendering.visit (before ++ char :: rest) name fallback ⟨before.length, group⟩) length
        (offset.trans length.symm).le
      rw [behind, List.append_assoc, ← text, nodes, style, offset,
        List.drop_eq_nil_of_le length.le, List.map_nil, List.append_nil] at onward
      rw [matchAll, matched]
      simp only [List.foldl_cons]
      rw [behind, onward, text, Terminal.read_sequence fallback after own rfl]
  | case3 index char rest unmatched inductionHypothesis =>
      rintro before rendering rfl reached
      have length : (before ++ [char]).length = before.length + 1 := List.length_append
      have onward := inductionHypothesis (before ++ [char]) rendering length
        (reached.trans (length ▸ Nat.le_succ _))
      rw [List.append_assoc, List.singleton_append] at onward
      rw [matchAll, unmatched]
      simp only
      rw [onward, Terminal.display_read_cons fallback unmatched rfl,
        List.drop_append_of_le_length reached, List.map_append]
      simp only [Terminal.print, List.append_assoc]

/-- `renderAnsi` shows what a terminal does that reads the text one character at a time. -/
theorem cells_renderAnsi (text : List Char) (name : String) (fallback : Option String) :
    cells (renderAnsi text name fallback) =
      ((Terminal.start fallback).read fallback text).display :=
  cells_visits name fallback [] ⟨[], Style.plain fallback, 0, 0⟩ rfl le_rfl

/-- The keys count the spans. -/
theorem keys_push (name : String) (text : List Char) {rendering : Rendering}
    (counted : rendering.nodes.map Span.key = (List.range rendering.index).map (spanKey name)) :
    (rendering.push name text).nodes.map Span.key =
      (List.range (rendering.push name text).index).map (spanKey name) := by
  unfold Rendering.push
  rw [List.map_append, List.range_succ, List.map_append, counted]
  rfl

private theorem keys_visits (text : List Char) (name : String) (fallback : Option String)
    (found : List Match) (rendering : Rendering)
    (counted : rendering.nodes.map Span.key = (List.range rendering.index).map (spanKey name)) :
    (found.foldl (Rendering.visit text name fallback) rendering).nodes.map Span.key =
      (List.range (found.foldl (Rendering.visit text name fallback) rendering).index).map
        (spanKey name) := by
  induction found generalizing rendering with
  | nil => exact counted
  | cons first found inductionHypothesis =>
      rw [List.foldl_cons]
      apply inductionHypothesis
      unfold Rendering.visit
      split
      · exact keys_push name _ counted
      · exact counted

private theorem spanKey_injective (name : String) : Function.Injective (spanKey name) := by
  intro first second same
  unfold spanKey at same
  have shown : (toString first).toList = (toString second).toList := by
    have texts := congrArg String.toList same
    simp only [String.toList_append] at texts
    exact List.append_cancel_left texts
  rw [Nat.toString_eq_repr, Nat.toString_eq_repr, Nat.toList_repr, Nat.toList_repr] at shown
  calc first = Nat.ofDigitChars 10 (Nat.toDigits 10 first) 0 := Nat.ofDigitChars_ten_toDigits.symm
    _ = Nat.ofDigitChars 10 (Nat.toDigits 10 second) 0 := by rw [shown]
    _ = second := Nat.ofDigitChars_ten_toDigits

/-- No two spans of a text have one key. -/
theorem keys_renderAnsi (text : List Char) (name : String) (fallback : Option String) :
    ((renderAnsi text name fallback).map Span.key).Nodup := by
  have counted := keys_visits text name fallback (matchAll 0 text)
    ⟨[], Style.plain fallback, 0, 0⟩ rfl
  unfold renderAnsi Rendering.finish
  split
  · rw [keys_push name _ counted]
    exact List.nodup_range.map (spanKey_injective name)
  · rw [counted]
    exact List.nodup_range.map (spanKey_injective name)

/-! ### The console -/

/-- The console of an execution in `OutputPanel`. -/
structure Console where
  stdout : List Span
  stderr : Option (List Span)
  cursor : Bool
  message : Option String
  deriving DecidableEq

/-- The colour of a stream that sets none. -/
def fallbackOf : OutputStream → Option String
  | .stdout => none
  | .stderr => some "#ff7b8b"

def console (selected : ExecutionRecord) : Console :=
  let active := selected.status ∈ activeExecutionStatuses
  { stdout := renderAnsi ((truthy selected.stdout).getD "").toList "stdout" (fallbackOf .stdout)
    stderr := (truthy selected.stderr).map fun text =>
      renderAnsi text.toList "stderr" (fallbackOf .stderr)
    cursor := active
    message :=
      if ¬active ∧ truthy selected.stdout = none ∧ truthy selected.stderr = none then
        some "[process exited without output]"
      else none }

def Console.cells : OutputStream → Console → List Cell
  | .stdout, console => Client.cells console.stdout
  | .stderr, console => Client.cells (console.stderr.getD [])

/-- A terminal that has read a stream of an execution. -/
def terminalOf (stream : OutputStream) (record : ExecutionRecord) : Terminal :=
  (Terminal.start (fallbackOf stream)).read (fallbackOf stream) (record.text stream).toList

private theorem truthy_getD (text : Option String) : (truthy text).getD "" = text.getD "" := by
  cases text with
  | none => rfl
  | some text =>
      by_cases empty : text = ""
      · subst empty
        rfl
      · simp [truthy, Option.filter, empty]

/-- The console shows a terminal for each stream. -/
theorem cells_console (stream : OutputStream) (record : ExecutionRecord) :
    (console record).cells stream = (terminalOf stream record).display := by
  cases stream with
  | stdout =>
      show cells (renderAnsi ((truthy record.stdout).getD "").toList "stdout" _) = _
      rw [cells_renderAnsi, truthy_getD]
      rfl
  | stderr =>
      have shown : terminalOf .stderr record = (Terminal.start (fallbackOf .stderr)).read
          (fallbackOf .stderr) ((truthy record.stderr).getD "").toList := by
        rw [truthy_getD]
        rfl
      rw [shown]
      show cells (((truthy record.stderr).map fun text =>
        renderAnsi text.toList "stderr" (fallbackOf .stderr)).getD []) = _
      cases truthy record.stderr with
      | none => rfl
      | some text => exact cells_renderAnsi _ _ _

/-- A terminal reads on where it has stopped. -/
theorem terminalOf_append {stream : OutputStream} {before record : ExecutionRecord} {data : String}
    (text : record.text stream = before.text stream ++ data) :
    terminalOf stream record =
      (terminalOf stream before).read (fallbackOf stream) data.toList := by
  unfold terminalOf
  rw [text, String.toList_append, Terminal.read_append]

section Pages

variable {isUuid : String → Bool} {str : JsonValue → Option String} {names : Nat → String}
  {keys : String → Option Nat} {lib0 : Lib0}

/-- **The console is a terminal for the output of the worker.** Whatever the worker publishes
of all executions, once its frames have arrived in the room of a session, the console of a
running execution of the session shows of each stream what a terminal shows that has read
the published output, one character after the other, behind the text that the page had. No
character that this terminal had shown is gone, and none has another style. -/
theorem console_is_a_terminal (known : Names isUuid str names keys) (decodes : lib0.Decodes)
    {messages : List Published} (sound : ∀ published ∈ messages, published.Sound)
    (fits : ∀ published ∈ messages, published.Fits names) {session : Nat}
    {executionId : ExecutionId} (quiet : Quiet executionId messages)
    (own : ∀ event, Published.output event ∈ messages → event.executionId = executionId →
      event.sessionId = session) :
    ∃ frames, relayFrames (jsonRuntime isUuid str) (messages.map (Published.message names)) =
        some frames ∧
      ∀ (page : ExecutionPage) (arrivals : List (Nat × List UInt8)),
        arrivals.map Prod.snd = framesOf (names session) frames →
          List.Forall₂ (fun before record => record.id = before.id ∧ (before.id = executionId →
            ∀ stream,
              (console record).cells stream =
                ((terminalOf stream before).read (fallbackOf stream)
                  (textOf stream (outputOf executionId messages)).toList).display ∧
              (terminalOf stream before).shown <+: (console record).cells stream))
            page.executions (page.receiveFrames lib0 keys (names session) arrivals).executions := by
  obtain ⟨frames, relayed, grows⟩ := relayed_grows known decodes sound fits session
  refine ⟨frames, relayed, fun page arrivals arrived => ?_⟩
  refine ((grows page arrivals arrived).output quiet own).imp fun before record kept => ?_
  obtain ⟨same, text⟩ := kept
  refine ⟨same, fun about stream => ?_⟩
  have shows := cells_console stream record
  rw [terminalOf_append (text about stream)] at shows
  refine ⟨shows, ?_⟩
  rw [shows]
  exact (Terminal.shown_read _ _ _).trans (List.prefix_append _ _)

/-- A colour sequence that is cut between two messages. -/
def colouredMessages : List Published :=
  [.output ⟨0, 0, .stdout, "\u001b[3", .running⟩, .output ⟨0, 0, .stdout, "1mé", .running⟩]

theorem console_is_a_terminal_coloured :
    ∃ frames, relayFrames (jsonRuntime (fun _ => true) sampleStr)
        (colouredMessages.map (Published.message sampleNames)) = some frames ∧
      (samplePage.receiveFrames serverLib0 sampleKeys (sampleNames 0)
        ((framesOf (sampleNames 0) frames).map fun frame => (7, frame))).executions.map
          (fun record => (console record).cells .stdout) =
        [[('é', ⟨some "#ff6b81", none⟩)]] := by
  have sound : ∀ published ∈ colouredMessages, published.Sound := by
    simp [colouredMessages, Published.Sound]
  have fits : ∀ published ∈ colouredMessages, published.Fits sampleNames := by
    simp only [colouredMessages, List.forall_mem_cons, Published.Fits]
    exact ⟨by decide +kernel, by decide +kernel,
      fun _ member => absurd member List.not_mem_nil⟩
  have quiet : Quiet 0 colouredMessages := by
    simp [colouredMessages, Quiet]
  have own : ∀ event, Published.output event ∈ colouredMessages → event.executionId = 0 →
      event.sessionId = 0 := by
    rintro event member -
    simp only [colouredMessages, List.mem_cons, Published.output.injEq, List.not_mem_nil,
      or_false] at member
    rcases member with rfl | rfl <;> rfl
  obtain ⟨frames, relayed, shows⟩ := console_is_a_terminal sampleNames_known serverLib0_decodes
    sound fits quiet own
  refine ⟨frames, relayed, ?_⟩
  have each := shows samplePage ((framesOf (sampleNames 0) frames).map fun frame => (7, frame)) (by
    rw [List.map_map]
    exact List.map_id _)
  obtain ⟨record, rest, ⟨same, stands⟩, none, list⟩ := List.forall₂_cons_left_iff.mp each
  obtain rfl := List.forall₂_nil_left_iff.mp none
  rw [list, List.map_singleton, (stands rfl .stdout).1]
  decide +kernel

end Pages

end Concord.Client
