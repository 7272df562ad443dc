import Mathlib.Data.List.Sort

/-!
Contract: JSON values and the text that a printer with ASCII output gives them.

Owns:
- `Json`, the values whose numbers are integers;
- `Style`, the separators of a printer, and `Json.print`;
- `Json.sortKeys`, the same value with the keys of every object in order.

Does not own: the reading of JSON text.
-/

set_option autoImplicit false

namespace Concord

/-- A JSON value. An object keeps the order of its fields. -/
inductive Json where
  | null
  | bool (value : Bool)
  | number (value : Int)
  | string (text : String)
  | array (items : List Json)
  | object (fields : List (String × Json))

namespace Json

def isSpace (char : Char) : Bool := char = ' ' || char = '\n' || char = '\t' || char = '\r'

/-- The white space that a printer puts behind its separators. -/
structure Style where
  item : List Char
  key : List Char
  item_space : item.all isSpace = true
  key_space : key.all isSpace = true

/-- `separators=(", ", ": ")`, the default. -/
def Style.spaced : Style := ⟨[' '], [' '], rfl, rfl⟩

/-- `separators=(",", ":")`. -/
def Style.compact : Style := ⟨[], [], rfl, rfl⟩

/-! ### Strings -/

def hexDigit (value : Nat) : Char :=
  if value < 10 then Char.ofNat ('0'.toNat + value) else Char.ofNat ('a'.toNat + (value - 10))

/-- `\uXXXX`. -/
def unicodeEscape (unit : Nat) : List Char :=
  ['\\', 'u', hexDigit (unit / 4096 % 16), hexDigit (unit / 256 % 16), hexDigit (unit / 16 % 16),
    hexDigit (unit % 16)]

/-- The escapes of one letter, by the character that they stand for. -/
def shortEscapes : List (Char × Char) :=
  [('"', '"'), ('\\', '\\'), ('\n', 'n'), ('\r', 'r'), ('\t', 't'), ('\x08', 'b'), ('\x0c', 'f')]

/-- One character in a string. What is not printable ASCII is escaped, in two halves
where it takes two units of UTF-16. -/
def escapeChar (char : Char) : List Char :=
  match shortEscapes.lookup char with
  | some letter => ['\\', letter]
  | none =>
      if ' ' ≤ char ∧ char ≤ '~' then [char]
      else if char.toNat < 0x10000 then unicodeEscape char.toNat
      else
        unicodeEscape (0xD800 + (char.toNat - 0x10000) / 0x400) ++
          unicodeEscape (0xDC00 + (char.toNat - 0x10000) % 0x400)

def printString (text : String) : List Char :=
  '"' :: (text.toList.flatMap escapeChar ++ ['"'])

/-! ### Values -/

def printNumber : Int → List Char
  | .ofNat value => Nat.toDigits 10 value
  | .negSucc value => '-' :: Nat.toDigits 10 (value + 1)

mutual

def print (style : Style) : Json → List Char
  | .null => ['n', 'u', 'l', 'l']
  | .bool true => ['t', 'r', 'u', 'e']
  | .bool false => ['f', 'a', 'l', 's', 'e']
  | .number value => printNumber value
  | .string text => printString text
  | .array [] => ['[', ']']
  | .array (first :: rest) => '[' :: (print style first ++ printItems style rest)
  | .object [] => ['{', '}']
  | .object ((key, first) :: rest) =>
      '{' :: (printString key ++ ':' :: style.key ++ print style first ++ printFields style rest)

def printItems (style : Style) : List Json → List Char
  | [] => [']']
  | item :: rest => ',' :: style.item ++ print style item ++ printItems style rest

def printFields (style : Style) : List (String × Json) → List Char
  | [] => ['}']
  | (key, value) :: rest =>
      ',' :: style.item ++ printString key ++ ':' :: style.key ++ print style value ++
        printFields style rest

end

/-! ### Sorted keys -/

/-- Whether a field comes before another. Strings compare by code points. -/
def FieldLe (left right : String × Json) : Prop := left.1 ≤ right.1

instance : DecidableRel FieldLe := fun left right =>
  inferInstanceAs (Decidable (left.1 ≤ right.1))

mutual

/-- `sort_keys=True`, at every depth. -/
def sortKeys : Json → Json
  | .array items => .array (sortItems items)
  | .object fields => .object ((sortFields fields).insertionSort FieldLe)
  | value => value

def sortItems : List Json → List Json
  | [] => []
  | item :: rest => sortKeys item :: sortItems rest

/-- The fields, each with the keys of its value in order. -/
def sortFields : List (String × Json) → List (String × Json)
  | [] => []
  | (key, value) :: rest => (key, sortKeys value) :: sortFields rest

end

/-- `json.dumps`. -/
def dumps (style : Style) (sorted : Bool) (value : Json) : String :=
  String.ofList (print style (if sorted then sortKeys value else value))

end Json

end Concord
