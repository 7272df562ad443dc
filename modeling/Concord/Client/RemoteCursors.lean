import Concord.Client.MonacoBinding
import Mathlib.Data.List.DropRight

/-!
Contract: the cursors of the other users in an editor.

Owns:
- `renderDecorations` of `YMonacoBinding`: the decorations of the model, and the style
  sheet with the colours and the names of the other users;
- a reader of style sheets, which cuts one into its rules;
- that what another user sends as a name or a colour adds no rule to the sheet.

The positions of a selection are given as Yjs resolves them. A page has one editor.

Does not own: the awareness states, which the server passes on unread.
-/

set_option autoImplicit false

namespace Concord.Client

/-! ### Texts -/

/-- A text of the source: ASCII. -/
def unitsOf (text : String) : Utf16 :=
  text.toList.map fun char => UInt16.ofNat char.toNat

/-- What `trim` takes for white space. -/
def isWhitespace (unit : UInt16) : Bool :=
  [9, 10, 11, 12, 13, 32, 0xa0, 0x1680, 0x2000, 0x2001, 0x2002, 0x2003, 0x2004, 0x2005, 0x2006,
    0x2007, 0x2008, 0x2009, 0x200a, 0x2028, 0x2029, 0x202f, 0x205f, 0x3000, 0xfeff].contains unit

def trim (text : Utf16) : Utf16 :=
  (text.dropWhile isWhitespace).rdropWhile isWhitespace

/-- `[0-9a-f]`, in either case. -/
def isHexUnit (unit : UInt16) : Bool :=
  (48 ≤ unit && unit ≤ 57) || (65 ≤ unit && unit ≤ 70) || (97 ≤ unit && unit ≤ 102)

/-- `/^#[0-9a-f]{6}$/i`. -/
def isColor (text : Utf16) : Bool :=
  text.head? = some 35 && text.tail.length = 6 && text.tail.all isHexUnit

/-! ### `JSON.stringify`, of a text -/

def quotation : UInt16 := 34

def backslash : UInt16 := 92

def hexUnit (value : Nat) : UInt16 :=
  if value < 10 then UInt16.ofNat (48 + value) else UInt16.ofNat (87 + value)

def escapedUnit (unit : UInt16) : Utf16 :=
  [backslash, 117, hexUnit (unit.toNat / 4096 % 16), hexUnit (unit.toNat / 256 % 16),
    hexUnit (unit.toNat / 16 % 16), hexUnit (unit.toNat % 16)]

/-- A unit that is no surrogate. -/
def stringifyUnit (unit : UInt16) : Utf16 :=
  if unit = quotation ∨ unit = backslash then [backslash, unit]
  else if unit = 8 then [backslash, 98]
  else if unit = 9 then [backslash, 116]
  else if unit = 10 then [backslash, 110]
  else if unit = 12 then [backslash, 102]
  else if unit = 13 then [backslash, 114]
  else if unit < 32 then escapedUnit unit
  else [unit]

def isLead (unit : UInt16) : Bool := 0xd800 ≤ unit && unit < 0xdc00

def isTrail (unit : UInt16) : Bool := 0xdc00 ≤ unit && unit < 0xe000

/-- The units of a text. A surrogate without its other half is escaped. -/
def stringifyUnits : Utf16 → Utf16
  | [] => []
  | [unit] => if isLead unit || isTrail unit then escapedUnit unit else stringifyUnit unit
  | unit :: next :: rest =>
      if isLead unit && isTrail next then unit :: next :: stringifyUnits rest
      else if isLead unit || isTrail unit then escapedUnit unit ++ stringifyUnits (next :: rest)
      else stringifyUnit unit ++ stringifyUnits (next :: rest)

def jsonStringify (text : Utf16) : Utf16 :=
  quotation :: (stringifyUnits text ++ [quotation])

/-! ### `renderDecorations` -/

/-- An absolute position, and whether it is one of the Y.Text of the binding. -/
structure AbsolutePosition where
  index : Nat
  own : Bool
  deriving DecidableEq

/-- The awareness state of a client. A colour or a name that is no text is `none`, and so is
a position that cannot be resolved. -/
structure RemoteState where
  clientId : Nat
  selection : Option (Option AbsolutePosition × Option AbsolutePosition)
  color : Option Utf16
  name : Option Utf16
  deriving DecidableEq

structure Decoration where
  rangeStart : Position
  rangeEnd : Position
  className : Utf16
  afterContentClassName : Option Utf16
  beforeContentClassName : Option Utf16
  deriving DecidableEq

def selectionClass (clientId : Nat) : Utf16 :=
  unitsOf "yRemoteSelection-" ++ unitsOf (toString clientId)

def headClass (clientId : Nat) : Utf16 :=
  unitsOf "yRemoteSelectionHead-" ++ unitsOf (toString clientId)

def RemoteState.shownColor (state : RemoteState) : Utf16 :=
  (state.color.filter (isColor ·)).getD (unitsOf "#7c8cff")

def RemoteState.shownName (state : RemoteState) : Utf16 :=
  match state.name with
  | none => unitsOf "Collaborator"
  | some name => if trim name = [] then unitsOf "Collaborator" else (trim name).take 32

/-- The anchor and the head of a state that is shown to a client. -/
def RemoteState.shownSelection (clientId : Nat) (state : RemoteState) : Option (Nat × Nat) :=
  if state.clientId = clientId then none
  else
    match state.selection with
    | some (some anchor, some head) =>
        if anchor.own && head.own then some (anchor.index, head.index) else none
    | _ => none

def RemoteState.decoration (text : Utf16) (state : RemoteState) (anchor head : Nat) :
    Decoration :=
  { rangeStart := getPositionAt text (if anchor ≤ head then anchor else head)
    rangeEnd := getPositionAt text (if anchor ≤ head then head else anchor)
    className := unitsOf "yRemoteSelection " ++ selectionClass state.clientId
    afterContentClassName := if anchor ≤ head then some (headClass state.clientId) else none
    beforeContentClassName := if anchor > head then some (headClass state.clientId) else none }

def RemoteState.styleRules (state : RemoteState) : List Utf16 :=
  [unitsOf "." ++ selectionClass state.clientId ++ unitsOf "\x7bbackground:" ++ state.shownColor ++
      unitsOf "2f\x7d",
    unitsOf "." ++ headClass state.clientId ++ unitsOf "\x7bborder-left:2px solid " ++
      state.shownColor ++ unitsOf ";height:1.25em;position:relative\x7d",
    unitsOf "." ++ headClass state.clientId ++ unitsOf "::after\x7bbackground:" ++
      state.shownColor ++ unitsOf ";border-radius:4px 4px 4px 0;color:#fff;content:" ++
      jsonStringify state.shownName ++ unitsOf (";font:600 10px/1.5 Inter,system-ui,sans-serif;" ++
        "left:-2px;padding:1px 5px;pointer-events:none;position:absolute;top:-1.65em;" ++
        "white-space:nowrap;z-index:20\x7d")]

/-- `renderDecorations`: the decorations, and the style sheet. -/
def renderDecorations (text : Utf16) (clientId : Nat) (states : List RemoteState) :
    List Decoration × Utf16 :=
  let shown := states.filterMap fun state =>
    (state.shownSelection clientId).map fun selection => (state, selection)
  (shown.map fun (state, anchor, head) => state.decoration text anchor head,
    [newline].intercalate (shown.flatMap fun (state, _) => state.styleRules))

/-! ### Style sheets -/

/-- Where a reader of a style sheet is. -/
inductive CssMode where
  | plain
  | slash
  | comment
  | star
  | string (quote : UInt16)
  | escaped (quote : Option UInt16)

structure CssRule where
  selector : Utf16
  declarations : List Utf16
  deriving DecidableEq

def CssRule.text (rule : CssRule) : Utf16 :=
  rule.selector ++ 123 :: ([59].intercalate rule.declarations ++ [125])

/-- A reader of a style sheet: the rules that it has read, the selector and the declarations
of the rule that it reads, and the text since then. -/
structure CssReader where
  rules : List CssRule
  selector : Option Utf16
  declarations : List Utf16
  text : Utf16
  depth : Nat
  mode : CssMode

namespace CssReader

def between (rules : List CssRule) : CssReader :=
  ⟨rules, none, [], [], 0, .plain⟩

/-- A reader between two declarations of a rule. -/
def within (rules : List CssRule) (selector : Utf16) (declarations : List Utf16) : CssReader :=
  ⟨rules, some selector, declarations, [], 0, .plain⟩

def keep (unit : UInt16) (mode : CssMode) (reader : CssReader) : CssReader :=
  { reader with text := reader.text ++ [unit], mode := mode }

/-- A unit outside of strings and comments: one that starts a string, an escape or perhaps
a comment, a brace, a semicolon, or a line end before a selector. -/
def readPlain (unit : UInt16) (reader : CssReader) : CssReader :=
  if unit = 34 ∨ unit = 39 then reader.keep unit (.string unit)
  else if unit = 92 then reader.keep unit (.escaped none)
  else if unit = 47 then reader.keep unit .slash
  else if unit = 123 then
    match reader.selector with
    | none => within reader.rules reader.text []
    | some _ => { reader.keep unit .plain with depth := reader.depth + 1 }
  else if unit = 125 then
    match reader.selector with
    | none => reader.keep unit .plain
    | some selector =>
        if reader.depth = 0 then
          between (reader.rules ++ [⟨selector, reader.declarations ++ [reader.text]⟩])
        else { reader.keep unit .plain with depth := reader.depth - 1 }
  else if unit = 59 then
    match reader.selector with
    | none => reader.keep unit .plain
    | some selector =>
        if reader.depth = 0 then
          within reader.rules selector (reader.declarations ++ [reader.text])
        else reader.keep unit .plain
  else if unit = 10 ∧ reader.text = [] then { reader with mode := .plain }
  else reader.keep unit .plain

/-- The reader takes a unit. A line end in a string ends the string. -/
def step (reader : CssReader) (unit : UInt16) : CssReader :=
  match reader.mode with
  | .plain => reader.readPlain unit
  | .slash => if unit = 42 then reader.keep unit .comment else reader.readPlain unit
  | .comment => reader.keep unit (if unit = 42 then .star else .comment)
  | .star =>
      reader.keep unit (if unit = 47 then .plain else if unit = 42 then .star else .comment)
  | .string quote =>
      if unit = quote then reader.keep unit .plain
      else if unit = 92 then reader.keep unit (.escaped (some quote))
      else if unit = 10 ∨ unit = 12 ∨ unit = 13 then reader.keep unit .plain
      else reader.keep unit (.string quote)
  | .escaped none => reader.keep unit .plain
  | .escaped (some quote) => reader.keep unit (.string quote)

def read (reader : CssReader) (text : Utf16) : CssReader :=
  text.foldl step reader

theorem read_cons (reader : CssReader) (unit : UInt16) (text : Utf16) :
    reader.read (unit :: text) = (reader.step unit).read text := rfl

theorem read_append (reader : CssReader) (first second : Utf16) :
    reader.read (first ++ second) = (reader.read first).read second :=
  List.foldl_append

def add (text : Utf16) (reader : CssReader) : CssReader :=
  { reader with text := reader.text ++ text }

private theorem add_nil (reader : CssReader) : reader.add [] = reader := by
  unfold add
  rw [List.append_nil]

private theorem add_add (first second : Utf16) (reader : CssReader) :
    (reader.add first).add second = reader.add (first ++ second) := by
  unfold add
  rw [List.append_assoc]

/-- A text that leaves a reader in its mode, whatever it reads. -/
def Stays (mode : CssMode) (text : Utf16) : Prop :=
  ∀ reader : CssReader, reader.mode = mode → reader.read text = reader.add text

theorem Stays.nil (mode : CssMode) : Stays mode [] :=
  fun reader _ => (add_nil reader).symm

theorem Stays.append {mode : CssMode} {first second : Utf16} (one : Stays mode first)
    (two : Stays mode second) : Stays mode (first ++ second) := by
  intro reader here
  rw [read_append, one reader here, two (reader.add first) here, add_add]

private theorem keep_self (unit : UInt16) {mode : CssMode} {reader : CssReader}
    (here : reader.mode = mode) : reader.keep unit mode = reader.add [unit] := by
  subst here
  rfl

/-- A unit without a meaning of its own. -/
def isPlainUnit (unit : UInt16) : Bool :=
  !([34, 39, 92, 47, 123, 125, 59, 10] : Utf16).contains unit

private theorem readPlain_of_plain {unit : UInt16} (plain : isPlainUnit unit = true)
    (reader : CssReader) : reader.readPlain unit = reader.keep unit .plain := by
  simp only [isPlainUnit, List.contains_cons, List.contains_nil, Bool.or_false, Bool.not_eq_true',
    Bool.or_eq_false_iff, beq_eq_false_iff_ne, ne_eq] at plain
  obtain ⟨quote, apostrophe, escape, slash, opening, closing, semicolon, line⟩ := plain
  simp only [readPlain, quote, apostrophe, escape, slash, opening, closing, semicolon, line,
    or_self, false_and, if_false]

theorem Stays.plainUnit {unit : UInt16} (plain : isPlainUnit unit = true) :
    Stays .plain [unit] := by
  intro reader here
  rw [read_cons, step, here]
  exact (readPlain_of_plain plain reader).trans (keep_self unit here)

theorem Stays.plainText {text : Utf16} (plain : text.all isPlainUnit = true) :
    Stays .plain text := by
  induction text with
  | nil => exact Stays.nil _
  | cons unit text inductionHypothesis =>
      rw [List.all_cons, Bool.and_eq_true] at plain
      exact (Stays.plainUnit plain.1).append (inductionHypothesis plain.2)

/-- A slash before a unit that makes no comment of it. -/
theorem Stays.slash (unit : UInt16) (plain : isPlainUnit unit = true) (noStar : unit ≠ 42) :
    Stays .plain [47, unit] := by
  intro reader here
  have first : reader.step 47 = reader.keep 47 .slash := by
    rw [step, here]
    rfl
  rw [read_cons, first, read_cons]
  show (if unit = 42 then _ else (reader.keep 47 .slash).readPlain unit : CssReader) = _
  rw [if_neg noStar, readPlain_of_plain plain]
  cases reader
  cases here
  simp [keep, add]

/-! ### Texts in a string -/

theorem Stays.stringUnit {unit : UInt16} (noQuote : unit ≠ 34) (noEscape : unit ≠ 92)
    (noLine : ¬(unit = 10 ∨ unit = 12 ∨ unit = 13)) : Stays (.string 34) [unit] := by
  intro reader here
  rw [read_cons, step, here]
  simp only [if_neg noQuote, if_neg noEscape, if_neg noLine]
  exact keep_self unit here

theorem Stays.escape (unit : UInt16) : Stays (.string 34) [92, unit] := by
  intro reader here
  have first : reader.step 92 = reader.keep 92 (.escaped (some 34)) := by
    rw [step, here]
    rfl
  rw [read_cons, first]
  show (reader.keep 92 (.escaped (some 34))).keep unit (.string 34) = _
  cases reader
  cases here
  simp [keep, add]

theorem Stays.hexUnit {value : Nat} (small : value < 16) :
    Stays (.string 34) [Client.hexUnit value] := by
  have digits : ∀ digit : Fin 16,
      Client.hexUnit digit.val ≠ 34 ∧ Client.hexUnit digit.val ≠ 92 ∧ ¬(Client.hexUnit digit.val = 10 ∨ Client.hexUnit digit.val = 12 ∨
        Client.hexUnit digit.val = 13) := by decide
  obtain ⟨noQuote, noEscape, noLine⟩ := digits ⟨value, small⟩
  exact .stringUnit noQuote noEscape noLine

theorem Stays.escapedUnit (unit : UInt16) : Stays (.string 34) (Client.escapedUnit unit) :=
  ((((Stays.escape 117).append (.hexUnit (Nat.mod_lt _ (by decide)))).append
    (.hexUnit (Nat.mod_lt _ (by decide)))).append
    (.hexUnit (Nat.mod_lt _ (by decide)))).append (.hexUnit (Nat.mod_lt _ (by decide)))

theorem Stays.stringifyUnit (unit : UInt16) : Stays (.string 34) (Client.stringifyUnit unit) := by
  unfold Client.stringifyUnit
  split
  · exact .escape unit
  next special =>
  obtain ⟨noQuote, noEscape⟩ := not_or.mp special
  split
  · exact .escape 98
  split
  · exact .escape 116
  split
  · exact .escape 110
  next noLine =>
  split
  · exact .escape 102
  next noFeed =>
  split
  · exact .escape 114
  next noReturn =>
  split
  · exact .escapedUnit unit
  · refine .stringUnit noQuote noEscape ?_
    rintro (line | feed | carriage)
    · exact noLine line
    · exact noFeed feed
    · exact noReturn carriage

/-- A half of a surrogate pair has no meaning in a string. -/
theorem Stays.surrogate (unit : UInt16) (surrogate : (isLead unit || isTrail unit) = true) :
    Stays (.string 34) [unit] := by
  refine .stringUnit ?_ ?_ ?_
  · rintro rfl
    exact absurd surrogate (by decide)
  · rintro rfl
    exact absurd surrogate (by decide)
  · rintro (rfl | rfl | rfl) <;> exact absurd surrogate (by decide)

/-- No unit of a text ends the string that it is in. -/
theorem Stays.stringifyUnits (text : Utf16) : Stays (.string 34) (Client.stringifyUnits text) := by
  induction text using Client.stringifyUnits.induct with
  | case1 => exact .nil _
  | case2 unit surrogate =>
      rw [Client.stringifyUnits, if_pos surrogate]
      exact .escapedUnit unit
  | case3 unit single =>
      rw [Client.stringifyUnits, if_neg single]
      exact .stringifyUnit unit
  | case4 unit next rest pair inductionHypothesis =>
      rw [Client.stringifyUnits, if_pos pair]
      obtain ⟨lead, trail⟩ := Bool.and_eq_true_iff.mp pair
      have halves := (Stays.surrogate unit (by rw [lead]; rfl)).append
        (Stays.surrogate next (by rw [trail, Bool.or_true]))
      exact halves.append inductionHypothesis
  | case5 unit next rest pair surrogate inductionHypothesis =>
      rw [Client.stringifyUnits, if_neg pair, if_pos surrogate]
      exact (Stays.escapedUnit unit).append inductionHypothesis
  | case6 unit next rest pair single inductionHypothesis =>
      rw [Client.stringifyUnits, if_neg pair, if_neg single]
      exact (Stays.stringifyUnit unit).append inductionHypothesis

/-- A text as it is written leaves the reader outside of strings. -/
theorem Stays.jsonStringify (text : Utf16) : Stays .plain (Client.jsonStringify text) := by
  intro reader here
  have opened : reader.step 34 = reader.keep 34 (.string 34) := by
    rw [step, here]
    rfl
  unfold Client.jsonStringify quotation
  rw [read_cons, opened, read_append, Stays.stringifyUnits text _ rfl]
  cases reader
  cases here
  simp [read, step, keep, add]

/-! ### Rules -/

/-- A rule that is read as it is written. -/
structure Written (rule : CssRule) : Prop where
  selector : Stays .plain rule.selector
  nonempty : rule.declarations ≠ []
  declarations : ∀ declaration ∈ rule.declarations, Stays .plain declaration

private theorem read_declarations (rules : List CssRule) (selector : Utf16)
    {declarations : List Utf16} :
    ∀ {declaration : Utf16} (before : List Utf16),
      (∀ text ∈ declaration :: declarations, Stays .plain text) →
      (within rules selector before).read
          ([59].intercalate (declaration :: declarations) ++ [125]) =
        between (rules ++ [⟨selector, before ++ declaration :: declarations⟩]) := by
  induction declarations with
  | nil =>
      intro declaration before stays
      rw [List.intercalate_singleton, read_append, stays declaration List.mem_cons_self _ rfl]
      rfl
  | cons next declarations inductionHypothesis =>
      intro declaration before stays
      obtain ⟨first, others⟩ := List.forall_mem_cons.mp stays
      have ended : ((within rules selector before).add declaration).step 59 =
          within rules selector (before ++ [declaration]) := rfl
      rw [List.intercalate_cons_cons, List.append_assoc, List.append_assoc, read_append,
        first _ rfl, List.singleton_append, read_cons, ended,
        inductionHypothesis _ others, List.append_assoc, List.singleton_append]

theorem Written.read {rule : CssRule} (written : Written rule) (rules : List CssRule) :
    (between rules).read rule.text = between (rules ++ [rule]) := by
  obtain ⟨selector, declarations⟩ := rule
  have opened : ((between rules).add selector).step 123 = within rules selector [] := rfl
  unfold CssRule.text
  rw [read_append, written.selector _ rfl, read_cons, opened]
  cases declarations with
  | nil => exact absurd rfl written.nonempty
  | cons declaration declarations => exact read_declarations rules selector [] written.declarations

/-- A sheet of rules is read as these rules. -/
theorem read_sheet {rules : List CssRule} (written : ∀ rule ∈ rules, Written rule)
    (before : List CssRule) :
    (between before).read ([newline].intercalate (rules.map CssRule.text)) =
      between (before ++ rules) := by
  induction rules generalizing before with
  | nil =>
      rw [List.append_nil]
      rfl
  | cons rule rules inductionHypothesis =>
      obtain ⟨first, others⟩ := List.forall_mem_cons.mp written
      cases rules with
      | nil =>
          rw [List.map_singleton, List.intercalate_singleton]
          exact first.read before
      | cons next rules =>
          have onward := inductionHypothesis others (before ++ [rule])
          have lineEnd : (between (before ++ [rule])).step newline = between (before ++ [rule]) :=
            rfl
          rw [List.append_assoc, List.singleton_append] at onward
          rw [List.map_cons, List.map_cons, List.intercalate_cons_cons, ← List.map_cons,
            List.append_assoc, read_append, first.read before, List.singleton_append, read_cons,
            lineEnd, onward]

end CssReader

/-! ### The style sheet of the cursors -/

open CssReader

def RemoteState.rules (state : RemoteState) : List CssRule :=
  [⟨unitsOf "." ++ selectionClass state.clientId,
      [unitsOf "background:" ++ state.shownColor ++ unitsOf "2f"]⟩,
    ⟨unitsOf "." ++ headClass state.clientId,
      [unitsOf "border-left:2px solid " ++ state.shownColor, unitsOf "height:1.25em",
        unitsOf "position:relative"]⟩,
    ⟨unitsOf "." ++ headClass state.clientId ++ unitsOf "::after",
      [unitsOf "background:" ++ state.shownColor, unitsOf "border-radius:4px 4px 4px 0",
        unitsOf "color:#fff", unitsOf "content:" ++ jsonStringify state.shownName,
        unitsOf "font:600 10px" ++ [47, 49] ++ unitsOf ".5 Inter,system-ui,sans-serif",
        unitsOf "left:-2px", unitsOf "padding:1px 5px", unitsOf "pointer-events:none",
        unitsOf "position:absolute", unitsOf "top:-1.65em", unitsOf "white-space:nowrap",
        unitsOf "z-index:20"]⟩]

private theorem styleRules_eq (state : RemoteState) :
    state.styleRules = state.rules.map CssRule.text := by
  have selection : unitsOf "\x7bbackground:" = 123 :: unitsOf "background:" := by decide +kernel
  have faded : unitsOf "2f\x7d" = unitsOf "2f" ++ [125] := by decide +kernel
  have cursor : unitsOf "\x7bborder-left:2px solid " = 123 :: unitsOf "border-left:2px solid " := by
    decide +kernel
  have placed : unitsOf ";height:1.25em;position:relative\x7d" =
      59 :: (unitsOf "height:1.25em" ++ 59 :: (unitsOf "position:relative" ++ [125])) := by
    decide +kernel
  have label : unitsOf "::after\x7bbackground:" =
      unitsOf "::after" ++ 123 :: unitsOf "background:" := by decide +kernel
  have content : unitsOf ";border-radius:4px 4px 4px 0;color:#fff;content:" =
      59 :: (unitsOf "border-radius:4px 4px 4px 0" ++ 59 :: (unitsOf "color:#fff" ++
        59 :: unitsOf "content:")) := by decide +kernel
  have looks : unitsOf (";font:600 10px/1.5 Inter,system-ui,sans-serif;" ++
      "left:-2px;padding:1px 5px;pointer-events:none;position:absolute;top:-1.65em;" ++
      "white-space:nowrap;z-index:20\x7d") =
      59 :: (unitsOf "font:600 10px" ++ 47 :: 49 :: (unitsOf ".5 Inter,system-ui,sans-serif" ++
        59 :: (unitsOf "left:-2px" ++ 59 :: (unitsOf "padding:1px 5px" ++
        59 :: (unitsOf "pointer-events:none" ++ 59 :: (unitsOf "position:absolute" ++
        59 :: (unitsOf "top:-1.65em" ++ 59 :: (unitsOf "white-space:nowrap" ++
        59 :: (unitsOf "z-index:20" ++ [125]))))))))) := by decide +kernel
  simp only [RemoteState.styleRules, RemoteState.rules, CssRule.text, List.map_cons, List.map_nil,
    List.intercalate_cons_cons, List.intercalate_singleton, List.append_assoc, List.cons_append,
    List.nil_append, selection, faded, cursor, placed, label, content, looks]

/-- A hexadecimal digit has no meaning in a style sheet. -/
theorem isPlainUnit_of_hex {unit : UInt16} (hex : isHexUnit unit = true) :
    isPlainUnit unit = true := by
  by_contra special
  rw [isPlainUnit, Bool.not_eq_true', Bool.not_eq_false] at special
  have member := List.contains_iff_mem.mp special
  have none : ([34, 39, 92, 47, 123, 125, 59, 10] : Utf16).all (!isHexUnit ·) = true := by decide
  have noDigit := List.all_eq_true.mp none unit member
  rw [hex] at noDigit
  exact Bool.false_ne_true noDigit

/-- No colour of another user has a meaning of its own. -/
theorem plain_shownColor (state : RemoteState) : state.shownColor.all isPlainUnit = true := by
  unfold RemoteState.shownColor
  cases found : state.color.filter (isColor ·) with
  | none => decide +kernel
  | some color =>
      have valid : isColor color = true := (Option.filter_eq_some_iff.mp found).2
      simp only [isColor, Bool.and_eq_true, decide_eq_true_eq] at valid
      obtain ⟨⟨hash, -⟩, digits⟩ := valid
      obtain ⟨rest, rfl⟩ := List.head?_eq_some_iff.mp hash
      rw [Option.getD_some, List.all_cons, Bool.and_eq_true]
      exact ⟨by decide, List.all_eq_true.mpr fun unit member =>
        isPlainUnit_of_hex (List.all_eq_true.mp digits unit member)⟩

private theorem plain_number (value : Nat) : (unitsOf (toString value)).all isPlainUnit = true := by
  apply List.all_eq_true.mpr
  intro unit member
  obtain ⟨char, shown, rfl⟩ := List.mem_map.mp member
  rw [Nat.toString_eq_repr, Nat.toList_repr] at shown
  have digit : char.isDigit = true := Nat.isDigit_of_mem_toDigits (by decide) (by decide) shown
  have each : ∀ value : Fin 10, isPlainUnit (UInt16.ofNat (48 + value.val)) = true := by decide
  obtain ⟨low, high⟩ : 48 ≤ char.toNat ∧ char.toNat ≤ 57 := by
    simp only [Char.isDigit, Bool.and_eq_true, decide_eq_true_eq, ge_iff_le,
      UInt32.le_iff_toNat_le] at digit
    exact digit
  have known := each ⟨char.toNat - 48, by omega⟩
  rwa [Nat.add_sub_cancel' low] at known

/-- Every rule of a cursor is read as it is written. -/
theorem written_rules (state : RemoteState) : ∀ rule ∈ state.rules, Written rule := by
  have number := plain_number state.clientId
  have color : Stays .plain state.shownColor := .plainText (plain_shownColor state)
  have fixed : ∀ text : String, (unitsOf text).all isPlainUnit = true →
      Stays .plain (unitsOf text) := fun _ => .plainText
  have selection : Stays .plain (unitsOf "." ++ selectionClass state.clientId) :=
    (fixed _ (by decide +kernel)).append ((fixed _ (by decide +kernel)).append (.plainText number))
  have head : Stays .plain (unitsOf "." ++ headClass state.clientId) :=
    (fixed _ (by decide +kernel)).append ((fixed _ (by decide +kernel)).append (.plainText number))
  unfold RemoteState.rules
  simp only [List.forall_mem_cons]
  refine ⟨⟨selection, List.cons_ne_nil _ _, ?_⟩, ⟨head, List.cons_ne_nil _ _, ?_⟩,
    ⟨head.append (fixed _ (by decide +kernel)), List.cons_ne_nil _ _, ?_⟩,
    fun _ member => absurd member List.not_mem_nil⟩
  · simp only [List.forall_mem_cons]
    exact ⟨((fixed _ (by decide +kernel)).append color).append (fixed _ (by decide +kernel)),
      fun _ member => absurd member List.not_mem_nil⟩
  · simp only [List.forall_mem_cons]
    exact ⟨(fixed _ (by decide +kernel)).append color, fixed _ (by decide +kernel),
      fixed _ (by decide +kernel), fun _ member => absurd member List.not_mem_nil⟩
  · have label := (fixed "content:" (by decide +kernel)).append (.jsonStringify state.shownName)
    have font := ((fixed "font:600 10px" (by decide +kernel)).append
      (.slash 49 (by decide) (by decide))).append
      (fixed ".5 Inter,system-ui,sans-serif" (by decide +kernel))
    simp only [List.forall_mem_cons]
    exact ⟨(fixed _ (by decide +kernel)).append color, fixed _ (by decide +kernel),
      fixed _ (by decide +kernel), label, font, fixed _ (by decide +kernel),
      fixed _ (by decide +kernel), fixed _ (by decide +kernel), fixed _ (by decide +kernel),
      fixed _ (by decide +kernel), fixed _ (by decide +kernel), fixed _ (by decide +kernel),
      fun _ member => absurd member List.not_mem_nil⟩

/-! ### What a browser shows of a name -/

def hexValueOf (digits : Utf16) : Nat :=
  digits.foldl (fun value unit => 16 * value +
    (if unit ≤ 57 then unit.toNat - 48 else if unit ≤ 70 then unit.toNat - 55
      else unit.toNat - 87)) 0

/-- A code point in UTF-16. One that is none is replaced. -/
def codePoint (value : Nat) : Utf16 :=
  if value = 0 ∨ (0xd800 ≤ value ∧ value < 0xe000) ∨ 0x10ffff < value then [0xfffd]
  else if value < 0x10000 then [UInt16.ofNat value]
  else [UInt16.ofNat (0xd800 + (value - 0x10000) / 0x400),
    UInt16.ofNat (0xdc00 + (value - 0x10000) % 0x400)]

/-- The value of a string of a style sheet: an escape is a code point of up to six digits
with a space behind it, a line end that is left out, or any other unit. -/
def cssText : Utf16 → Utf16
  | [] => []
  | [unit] => if unit = 92 then [] else [unit]
  | unit :: next :: rest =>
      if unit ≠ 92 then unit :: cssText (next :: rest)
      else if isHexUnit next then
        let digits := next :: (rest.take 5).takeWhile isHexUnit
        let after := rest.drop (digits.length - 1)
        codePoint (hexValueOf digits) ++
          cssText (if after.head? = some 32 then after.tail else after)
      else if next = newline then cssText rest
      else next :: cssText rest
  termination_by text => text.length
  decreasing_by
    · exact Nat.lt_succ_self _
    · split <;> simp <;> omega
    · exact Nat.lt_succ_of_lt (Nat.lt_succ_self _)
    · exact Nat.lt_succ_of_lt (Nat.lt_succ_self _)

/-- A text without control characters and halves of surrogate pairs. -/
def IsPrintable : Utf16 → Bool
  | [] => true
  | [unit] => !(isLead unit || isTrail unit) && 32 ≤ unit
  | unit :: next :: rest =>
      if isLead unit && isTrail next then IsPrintable rest
      else !(isLead unit || isTrail unit) && 32 ≤ unit && IsPrintable (next :: rest)

private theorem cssText_cons {unit : UInt16} (noEscape : unit ≠ 92) (rest : Utf16) :
    cssText (unit :: rest) = unit :: cssText rest := by
  cases rest with
  | nil => simp only [cssText, if_neg noEscape]
  | cons next rest => rw [cssText, if_pos noEscape]

private theorem cssText_escape {unit : UInt16} (special : unit = quotation ∨ unit = backslash)
    (rest : Utf16) : cssText (92 :: unit :: rest) = unit :: cssText rest := by
  have meaning : isHexUnit unit = false ∧ unit ≠ newline := by
    rcases special with rfl | rfl <;> decide
  rw [cssText, if_neg (fun other => other rfl), if_neg (Bool.eq_false_iff.mp meaning.1),
    if_neg meaning.2]

/-- A unit of a name is shown as it is. -/
theorem cssText_stringifyUnit {unit : UInt16} (printable : 32 ≤ unit) (rest : Utf16) :
    cssText (stringifyUnit unit ++ rest) = unit :: cssText rest := by
  unfold stringifyUnit
  split
  · next special => exact cssText_escape special rest
  next special =>
  have below : ∀ control : UInt16, control < 32 → unit ≠ control := by
    rintro control small rfl
    exact absurd printable (UInt16.not_le.mpr small)
  rw [if_neg (below 8 (by decide)), if_neg (below 9 (by decide)), if_neg (below 10 (by decide)),
    if_neg (below 12 (by decide)), if_neg (below 13 (by decide)),
    if_neg (UInt16.not_lt.mpr printable)]
  exact cssText_cons (not_or.mp special).2 rest

/-- A printable text is shown as it is. -/
theorem cssText_stringifyUnits {text : Utf16} (printable : IsPrintable text = true) :
    cssText (stringifyUnits text) = text := by
  induction text using stringifyUnits.induct with
  | case1 => rw [stringifyUnits, cssText]
  | case2 unit surrogate =>
      rw [IsPrintable, surrogate] at printable
      exact absurd printable (by simp)
  | case3 unit single =>
      rw [IsPrintable, Bool.and_eq_true, decide_eq_true_eq] at printable
      have shown := cssText_stringifyUnit printable.2 []
      rw [List.append_nil, cssText] at shown
      rw [stringifyUnits, if_neg single, shown]
  | case4 unit next rest pair inductionHypothesis =>
      rw [IsPrintable, if_pos pair] at printable
      obtain ⟨lead, trail⟩ := Bool.and_eq_true_iff.mp pair
      have first : unit ≠ 92 := by
        rintro rfl
        exact absurd lead (by decide)
      have second : next ≠ 92 := by
        rintro rfl
        exact absurd trail (by decide)
      rw [stringifyUnits, if_pos pair, cssText_cons first, cssText_cons second,
        inductionHypothesis printable]
  | case5 unit next rest pair surrogate inductionHypothesis =>
      rw [IsPrintable, if_neg pair, surrogate] at printable
      exact absurd printable (by simp)
  | case6 unit next rest pair single inductionHypothesis =>
      rw [IsPrintable, if_neg pair, Bool.and_eq_true, Bool.and_eq_true,
        decide_eq_true_eq] at printable
      rw [stringifyUnits, if_neg pair, if_neg single, cssText_stringifyUnit printable.1.2,
        inductionHypothesis printable.2]

/-- The rules of the states that are shown. -/
theorem renderDecorations_sheet (text : Utf16) (clientId : Nat) (states : List RemoteState) :
    (renderDecorations text clientId states).2 =
      [newline].intercalate (((states.filter fun state =>
        (state.shownSelection clientId).isSome).flatMap RemoteState.rules).map CssRule.text) := by
  have shown : ((states.filterMap fun state =>
      (state.shownSelection clientId).map fun selection => (state, selection)).flatMap
        fun shown => shown.1.styleRules) =
      ((states.filter fun state => (state.shownSelection clientId).isSome).flatMap
        RemoteState.rules).map CssRule.text := by
    induction states with
    | nil => rfl
    | cons state states inductionHypothesis =>
        cases found : state.shownSelection clientId with
        | none =>
            rw [List.filterMap_cons_none (by rw [found]; rfl),
              List.filter_cons_of_neg (by rw [found]; decide), inductionHypothesis]
        | some selection =>
            rw [List.filterMap_cons_some (by rw [found]; rfl),
              List.filter_cons_of_pos (by rw [found]; rfl), List.flatMap_cons, List.flatMap_cons,
              List.map_append, inductionHypothesis, styleRules_eq]
  exact congrArg [newline].intercalate shown

/-- **Another user cannot write into the style sheet.** Whatever names and colours the
other clients send, a browser reads the style sheet as three rules for each client that is
shown, with the selectors and the declarations that `renderDecorations` means to write: the
name is inside the string of its declaration. A name without control characters is shown
as it is. -/
theorem names_stay_in_their_strings (text : Utf16) (clientId : Nat) (states : List RemoteState) :
    (CssReader.between []).read (renderDecorations text clientId states).2 =
        .between ((states.filter fun state =>
          (state.shownSelection clientId).isSome).flatMap RemoteState.rules) ∧
      ∀ state ∈ states, IsPrintable state.shownName = true →
        cssText (stringifyUnits state.shownName) = state.shownName := by
  refine ⟨?_, fun state _ => cssText_stringifyUnits⟩
  rw [renderDecorations_sheet]
  refine read_sheet (fun rule member => ?_) []
  obtain ⟨state, -, own⟩ := List.mem_flatMap.mp member
  exact written_rules state rule own

/-- A client whose name and colour are written to leave their places. -/
def hostileState : RemoteState :=
  ⟨7, some (some ⟨1, true⟩, some ⟨3, true⟩), some (unitsOf "red;\x7d"),
    some (unitsOf "\"\x7d*\x7b\\")⟩

theorem names_stay_in_their_strings_hostile :
    ((CssReader.between []).read (renderDecorations [] 3 [hostileState]).2).rules.map
        CssRule.selector =
      [unitsOf ".yRemoteSelection-7", unitsOf ".yRemoteSelectionHead-7",
        unitsOf ".yRemoteSelectionHead-7::after"] ∧
      cssText (stringifyUnits hostileState.shownName) = unitsOf "\"\x7d*\x7b\\" := by
  obtain ⟨rules, shown⟩ := names_stay_in_their_strings [] 3 [hostileState]
  rw [rules, shown hostileState List.mem_cons_self (by decide +kernel)]
  decide +kernel

-- The cut after 32 units can leave a half of a surrogate pair, whose escape is not one of
-- style sheets: the name ends with the letter and the digits of the escape.
example :
    cssText (stringifyUnits (RemoteState.shownName ⟨7, none, none,
      some (List.replicate 31 97 ++ [0xd83d, 0xde00])⟩)) =
      List.replicate 31 97 ++ unitsOf "ud83d" := by decide +kernel

end Concord.Client
