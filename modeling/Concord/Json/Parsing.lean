import Concord.Json.Printing

/-!
Contract: the reader of JSON text.

Owns:
- `Json.loads`, which takes the whole of a text or none of it;
- `Json.keepLast`: of a key that comes twice in an object, the last value counts;
- its round trip: what `Json.dumps` prints is read back, in every style.

The text is a list of characters, so no half of an escaped pair stands for a
character of its own. A text with one is refused. Numbers are integers.

Does not own: what a program does with the values.
-/

set_option autoImplicit false

namespace Concord.Json

/-! ### Strings -/

def hexValue (char : Char) : Option Nat :=
  if '0' ≤ char ∧ char ≤ '9' then some (char.toNat - '0'.toNat)
  else if 'a' ≤ char ∧ char ≤ 'f' then some (char.toNat - 'a'.toNat + 10)
  else if 'A' ≤ char ∧ char ≤ 'F' then some (char.toNat - 'A'.toNat + 10)
  else none

def readUnit : List Char → Option (Nat × List Char)
  | first :: second :: third :: fourth :: rest => do
      let first ← hexValue first
      let second ← hexValue second
      let third ← hexValue third
      let fourth ← hexValue fourth
      pure (first * 4096 + second * 256 + third * 16 + fourth, rest)
  | _ => none

/-- The second half of a pair, behind its first half. -/
def readLowUnit (high : Nat) : List Char → Option (Char × List Char)
  | '\\' :: 'u' :: rest => do
      let (low, rest) ← readUnit rest
      if 0xDC00 ≤ low ∧ low < 0xE000 then
        pure (Char.ofNat (0x10000 + (high - 0xD800) * 0x400 + (low - 0xDC00)), rest)
      else none
  | _ => none

def readUnicode (input : List Char) : Option (Char × List Char) := do
  let (unit, rest) ← readUnit input
  if 0xD800 ≤ unit ∧ unit < 0xDC00 then readLowUnit unit rest
  else if 0xDC00 ≤ unit ∧ unit < 0xE000 then none
  else pure (Char.ofNat unit, rest)

def readEscape : List Char → Option (Char × List Char)
  | [] => none
  | letter :: rest =>
      if letter = 'u' then readUnicode rest
      else if letter = '/' then some ('/', rest)
      else (shortEscapes.find? (·.2 = letter)).map fun escape => (escape.1, rest)

def readChar : List Char → Option (Char × List Char)
  | [] => none
  | char :: rest =>
      if char = '\\' then readEscape rest
      else if char.toNat < 0x20 then none
      else some (char, rest)

/-- A string behind its first quote, of fewer characters than a bound. -/
def readString : Nat → List Char → Option (List Char × List Char)
  | 0, _ => none
  | _ + 1, [] => none
  | fuel + 1, head :: rest =>
      if head = '"' then some ([], rest)
      else do
        let (char, rest) ← readChar (head :: rest)
        let (text, rest) ← readString fuel rest
        pure (char :: text, rest)

/-! ### Numbers -/

/-- The digits of a number without a sign. A zero stands alone. -/
def readNat : List Char → Option (Nat × List Char)
  | [] => none
  | head :: rest =>
      if head = '0' then some (0, rest)
      else if head.isDigit then
        some (Nat.ofDigitChars 10 (head :: rest.takeWhile Char.isDigit) 0,
          rest.dropWhile Char.isDigit)
      else none

def readNumber : List Char → Option (Int × List Char)
  | [] => none
  | head :: rest =>
      if head = '-' then (readNat rest).map fun (value, rest) => (-Int.ofNat value, rest)
      else (readNat (head :: rest)).map fun (value, rest) => (Int.ofNat value, rest)

/-! ### Values -/

/-- The white space in front of something is skipped. -/
def skipSpace (input : List Char) : List Char := input.dropWhile isSpace

def readWord (word : List Char) (value : Json) (input : List Char) : Option (Json × List Char) :=
  if word <+: input then some (value, input.drop word.length) else none

def readSign (sign : Char) (input : List Char) : Option (List Char) :=
  match skipSpace input with
  | [] => none
  | head :: rest => if head = sign then some rest else none

def readKey (fuel : Nat) (input : List Char) : Option (String × List Char) := do
  let rest ← readSign '"' input
  let (key, rest) ← readString fuel rest
  let rest ← readSign ':' rest
  pure (String.ofList key, rest)

mutual

/-- A value, of less depth and width than a bound. -/
def readValue : Nat → List Char → Option (Json × List Char)
  | 0, _ => none
  | fuel + 1, input =>
      match skipSpace input with
      | [] => none
      | head :: rest =>
          if head = 'n' then readWord ['u', 'l', 'l'] .null rest
          else if head = 't' then readWord ['r', 'u', 'e'] (.bool true) rest
          else if head = 'f' then readWord ['a', 'l', 's', 'e'] (.bool false) rest
          else if head = '"' then do
            let (text, rest) ← readString fuel rest
            pure (.string (String.ofList text), rest)
          else if head = '[' then
            match readSign ']' rest with
            | some rest => some (.array [], rest)
            | none => do
                let (first, rest) ← readValue fuel rest
                let (others, rest) ← readItems fuel rest
                pure (.array (first :: others), rest)
          else if head = '{' then
            match readSign '}' rest with
            | some rest => some (.object [], rest)
            | none => do
                let (key, rest) ← readKey fuel rest
                let (first, rest) ← readValue fuel rest
                let (others, rest) ← readFields fuel rest
                pure (.object ((key, first) :: others), rest)
          else do
            let (value, rest) ← readNumber (head :: rest)
            pure (.number value, rest)

/-- The items behind the first one, and the bracket. -/
def readItems : Nat → List Char → Option (List Json × List Char)
  | 0, _ => none
  | fuel + 1, input =>
      match readSign ']' input with
      | some rest => some ([], rest)
      | none => do
          let rest ← readSign ',' input
          let (item, rest) ← readValue fuel rest
          let (others, rest) ← readItems fuel rest
          pure (item :: others, rest)

/-- The fields behind the first one, and the bracket. -/
def readFields : Nat → List Char → Option (List (String × Json) × List Char)
  | 0, _ => none
  | fuel + 1, input =>
      match readSign '}' input with
      | some rest => some ([], rest)
      | none => do
          let rest ← readSign ',' input
          let (key, rest) ← readKey fuel rest
          let (value, rest) ← readValue fuel rest
          let (others, rest) ← readFields fuel rest
          pure ((key, value) :: others, rest)

end

/-! ### Keys that come twice -/

/-- Each key once, in the place of its first field and with the value of its last. -/
def lastOfKeys : List (String × Json) → List (String × Json)
  | [] => []
  | (key, value) :: rest =>
      (key, ((lastOfKeys rest).lookup key).getD value) :: (lastOfKeys rest).filter (·.1 ≠ key)

mutual

/-- A value whose objects are dictionaries. -/
def keepLast : Json → Json
  | .array items => .array (keepLastItems items)
  | .object fields => .object (lastOfKeys (keepLastFields fields))
  | value => value

def keepLastItems : List Json → List Json
  | [] => []
  | item :: rest => keepLast item :: keepLastItems rest

def keepLastFields : List (String × Json) → List (String × Json)
  | [] => []
  | (key, value) :: rest => (key, keepLast value) :: keepLastFields rest

end

/-- `json.loads`, or none where it raises. -/
def loads (text : String) : Option Json :=
  match readValue (text.toList.length + 1) text.toList with
  | some (value, rest) => if (skipSpace rest).isEmpty then some (keepLast value) else none
  | none => none

/-! ### Strings are read back -/

private theorem hexValue_hexDigit {value : Nat} (small : value < 16) :
    hexValue (hexDigit value) = some value := by
  have all : ∀ digit : Fin 16, hexValue (hexDigit digit) = some digit.val := by decide
  exact all ⟨value, small⟩

/-- The four digits of a unit of UTF-16. -/
theorem readUnit_digits {unit : Nat} (small : unit < 65536) (rest : List Char) :
    readUnit (hexDigit (unit / 4096 % 16) :: hexDigit (unit / 256 % 16) ::
      hexDigit (unit / 16 % 16) :: hexDigit (unit % 16) :: rest) = some (unit, rest) := by
  have digits : unit / 4096 % 16 * 4096 + unit / 256 % 16 * 256 + unit / 16 % 16 * 16 + unit % 16 =
      unit := by
    omega
  unfold readUnit
  simp only [hexValue_hexDigit (Nat.mod_lt _ (by decide : 0 < 16)), bind, Option.bind, pure]
  rw [digits]

/-- A character that takes one unit is escaped by its number. -/
theorem readUnicode_single {char : Char} (small : char.toNat < 0x10000) (rest : List Char) :
    readUnicode ((unicodeEscape char.toNat).drop 2 ++ rest) = some (char, rest) := by
  -- No character is half of a pair.
  have valid : char.toNat < 0xD800 ∨ 0xDFFF < char.toNat ∧ char.toNat < 0x110000 := char.valid
  have high : ¬(0xD800 ≤ char.toNat ∧ char.toNat < 0xDC00) := by omega
  have low : ¬(0xDC00 ≤ char.toNat ∧ char.toNat < 0xE000) := by omega
  unfold readUnicode
  simp only [unicodeEscape, List.drop_succ_cons, List.drop_zero, List.cons_append, List.nil_append,
    readUnit_digits small, bind, Option.bind, if_neg high, if_neg low, Char.ofNat_toNat, pure]

/-- The two halves of a pair stand for one character. -/
theorem readUnicode_pair {high low : Nat} {char : Char}
    (isHigh : 0xD800 ≤ high ∧ high < 0xDC00) (isLow : 0xDC00 ≤ low ∧ low < 0xE000)
    (together : 0x10000 + (high - 0xD800) * 0x400 + (low - 0xDC00) = char.toNat)
    (rest : List Char) :
    readUnicode ((unicodeEscape high).drop 2 ++ (unicodeEscape low ++ rest)) = some (char, rest) := by
  have highSmall : high < 65536 := by omega
  have lowSmall : low < 65536 := by omega
  unfold readUnicode
  simp only [unicodeEscape, List.drop_succ_cons, List.drop_zero, List.cons_append, List.nil_append,
    readUnit_digits highSmall, bind, Option.bind, if_pos isHigh, readLowUnit,
    readUnit_digits lowSmall, if_pos isLow, together, Char.ofNat_toNat, pure]

/-- The letters of the short escapes are different, and neither `u` nor `/`. -/
theorem readEscape_short {char letter : Char} (short : shortEscapes.lookup char = some letter)
    (rest : List Char) : readEscape (letter :: rest) = some (char, rest) := by
  have all : ∀ escape ∈ shortEscapes, escape.2 ≠ 'u' ∧ escape.2 ≠ '/' ∧
      shortEscapes.find? (·.2 = escape.2) = some escape := by
    decide
  obtain ⟨before, after, split, _⟩ := List.lookup_eq_some_iff.mp short
  have member : (char, letter) ∈ shortEscapes := split ▸ List.mem_append_right _ List.mem_cons_self
  obtain ⟨notUnicode, notSlash, found⟩ := all (char, letter) member
  simp only [readEscape, if_neg notUnicode, if_neg notSlash, found, Option.map_some]

private theorem readChar_escapeChar (char : Char) (rest : List Char) :
    readChar (escapeChar char ++ rest) = some (char, rest) := by
  unfold escapeChar
  split
  · next letter short =>
      show readEscape (letter :: rest) = some (char, rest)
      exact readEscape_short short rest
  · next long =>
      split
      · next printable =>
          have notBackslash : char ≠ '\\' := by
            rintro rfl
            cases long
          have notControl : ¬char.toNat < 0x20 := by
            have low : (0x20 : Nat) ≤ char.toNat := printable.1
            omega
          simp only [List.singleton_append, readChar, if_neg notBackslash, if_neg notControl]
      · split
        · next small => exact readUnicode_single small rest
        · next large =>
            have valid : char.toNat < 0xD800 ∨ 0xDFFF < char.toNat ∧ char.toNat < 0x110000 :=
              char.valid
            rw [List.append_assoc]
            exact readUnicode_pair (by omega) (by omega) (by omega) rest

/-- No character of a string is printed as the quote that ends it. -/
theorem escapeChar_head (char : Char) :
    ∃ head tail, escapeChar char = head :: tail ∧ head ≠ '"' := by
  unfold escapeChar
  split
  · exact ⟨'\\', _, rfl, by decide⟩
  · next long =>
      split
      · refine ⟨char, [], rfl, ?_⟩
        rintro rfl
        cases long
      · split
        · exact ⟨'\\', _, rfl, by decide⟩
        · exact ⟨'\\', _, rfl, by decide⟩

private theorem length_le_flatMap (text : List Char) :
    text.length ≤ (text.flatMap escapeChar).length := by
  induction text with
  | nil => exact Nat.le_refl _
  | cons char text inductionHypothesis =>
      obtain ⟨head, tail, shape, _⟩ := escapeChar_head char
      simp only [List.flatMap_cons, List.length_append, List.length_cons, shape]
      omega

private theorem readString_escaped (text rest : List Char) {fuel : Nat}
    (enough : text.length < fuel) :
    readString fuel (text.flatMap escapeChar ++ '"' :: rest) = some (text, rest) := by
  induction text generalizing fuel with
  | nil =>
      cases fuel with
      | zero => omega
      | succ fuel => rfl
  | cons char text inductionHypothesis =>
      cases fuel with
      | zero => omega
      | succ fuel =>
          obtain ⟨head, tail, shape, notQuote⟩ := escapeChar_head char
          have read := readChar_escapeChar char (text.flatMap escapeChar ++ '"' :: rest)
          rw [shape, List.cons_append] at read
          have shorter : text.length < fuel := by
            simp only [List.length_cons] at enough
            omega
          have others := inductionHypothesis shorter
          rw [List.flatMap_cons, shape, List.append_assoc, List.cons_append]
          simp only [readString, if_neg notQuote, read, others, bind, Option.bind, pure]

/-! ### Numbers are read back -/

/-- Nothing that would go on with a number. -/
def EndsNumber (rest : List Char) : Prop := rest.takeWhile Char.isDigit = []

theorem EndsNumber.cons {head : Char} {rest : List Char} (notDigit : head.isDigit = false) :
    EndsNumber (head :: rest) :=
  List.takeWhile_cons_of_neg (by simp [notDigit])

/-- A positive number does not begin with a zero. -/
theorem toDigits_head {value : Nat} (positive : 0 < value) :
    ∃ head tail, Nat.toDigits 10 value = head :: tail ∧ head ≠ '0' := by
  induction value using Nat.strongRecOn with
  | ind value inductionHypothesis =>
      by_cases small : value < 10
      · have all : ∀ digit : Fin 10, 0 < digit.val → digit.val.digitChar ≠ '0' := by decide
        exact ⟨value.digitChar, [], Nat.toDigits_of_lt_base small, all ⟨value, small⟩ positive⟩
      · have large : 10 ≤ value := by omega
        obtain ⟨head, tail, shape, notZero⟩ :=
          inductionHypothesis (value / 10) (by omega) (by omega)
        refine ⟨head, tail ++ [(value % 10).digitChar], ?_, notZero⟩
        rw [Nat.toDigits_of_base_le (by decide) large, shape, List.cons_append]

private theorem readNat_toDigits (value : Nat) {rest : List Char} (ends : EndsNumber rest) :
    readNat (Nat.toDigits 10 value ++ rest) = some (value, rest) := by
  have others : rest.dropWhile Char.isDigit = rest := by
    have whole := List.takeWhile_append_dropWhile (p := Char.isDigit) (l := rest)
    rw [ends, List.nil_append] at whole
    exact whole
  by_cases zero : value = 0
  · subst zero
    rfl
  · obtain ⟨head, tail, shape, notZero⟩ := toDigits_head (Nat.pos_of_ne_zero zero)
    have digits : ∀ char ∈ head :: tail, char.isDigit = true := by
      rw [← shape]
      exact fun char member => Nat.isDigit_of_mem_toDigits (by decide) (by decide) member
    have tailDigits : ∀ char ∈ tail, char.isDigit = true :=
      fun char member => digits char (List.mem_cons_of_mem _ member)
    have taken : (tail ++ rest).takeWhile Char.isDigit = tail := by
      rw [List.takeWhile_append_of_pos tailDigits, ends, List.append_nil]
    have left : (tail ++ rest).dropWhile Char.isDigit = rest := by
      rw [List.dropWhile_append_of_pos tailDigits, others]
    rw [shape, List.cons_append]
    simp only [readNat, if_neg notZero, if_pos (digits head List.mem_cons_self), taken, left]
    rw [← shape, Nat.ofDigitChars_ten_toDigits]

/-- A number begins with a digit or its sign. -/
theorem printNumber_head (value : Int) :
    ∃ head tail, printNumber value = head :: tail ∧ (head = '-' ∨ head.isDigit = true) := by
  cases value with
  | ofNat value =>
      obtain ⟨head, tail, shape⟩ := List.exists_cons_of_ne_nil (Nat.toDigits_ne_nil (n := value) (b := 10))
      refine ⟨head, tail, shape, .inr ?_⟩
      exact Nat.isDigit_of_mem_toDigits (by decide) (by decide) (shape ▸ List.mem_cons_self)
  | negSucc value => exact ⟨'-', _, rfl, .inl rfl⟩

theorem readNumber_printNumber (value : Int) {rest : List Char} (ends : EndsNumber rest) :
    readNumber (printNumber value ++ rest) = some (value, rest) := by
  cases value with
  | negSucc value =>
      show (readNat (Nat.toDigits 10 (value + 1) ++ rest)).map
        (fun (value, rest) => (-Int.ofNat value, rest)) = _
      rw [readNat_toDigits _ ends]
      rfl
  | ofNat value =>
      obtain ⟨head, tail, shape⟩ := List.exists_cons_of_ne_nil (Nat.toDigits_ne_nil (n := value) (b := 10))
      have digit : head.isDigit = true :=
        Nat.isDigit_of_mem_toDigits (by decide) (by decide) (shape ▸ List.mem_cons_self)
      have unsigned : head ≠ '-' := by
        rintro rfl
        cases digit
      have read := readNat_toDigits value ends
      rw [shape, List.cons_append] at read
      show readNumber (Nat.toDigits 10 value ++ rest) = _
      rw [shape, List.cons_append]
      simp only [readNumber, if_neg unsigned, read, Option.map_some]

/-! ### Values are read back -/

private theorem skipSpace_spaces {spaces : List Char} (white : spaces.all isSpace = true)
    (rest : List Char) : skipSpace (spaces ++ rest) = skipSpace rest :=
  List.dropWhile_append_of_pos (List.all_eq_true.mp white)

private theorem skipSpace_cons {head : Char} (black : isSpace head = false) (rest : List Char) :
    skipSpace (head :: rest) = head :: rest :=
  List.dropWhile_cons_of_neg (by simp [black])

private theorem readSign_self {sign : Char} (black : isSpace sign = false) (rest : List Char) :
    readSign sign (sign :: rest) = some rest := by
  simp only [readSign, skipSpace_cons black, if_true]

private theorem readSign_of_ne {sign head : Char} (black : isSpace head = false)
    (different : head ≠ sign)
    (rest : List Char) : readSign sign (head :: rest) = none := by
  simp only [readSign, skipSpace_cons black, if_neg different]

/-- A value begins with no white space, and does not end an array. -/
theorem print_head (style : Style) (value : Json) :
    ∃ head tail, print style value = head :: tail ∧ isSpace head = false ∧ head ≠ ']' := by
  cases value with
  | null => exact ⟨'n', _, by rw [print], rfl, by decide⟩
  | bool value =>
      cases value with
      | true => exact ⟨'t', _, by rw [print], rfl, by decide⟩
      | false => exact ⟨'f', _, by rw [print], rfl, by decide⟩
  | string text => exact ⟨'"', _, by rw [print, printString], rfl, by decide⟩
  | array items =>
      cases items with
      | nil => exact ⟨'[', _, by rw [print], rfl, by decide⟩
      | cons first rest => exact ⟨'[', _, by rw [print], rfl, by decide⟩
  | object fields =>
      cases fields with
      | nil => exact ⟨'\x7b', _, by rw [print], rfl, by decide⟩
      | cons first rest => exact ⟨'\x7b', _, by rw [print], rfl, by decide⟩
  | number value =>
      obtain ⟨head, tail, shape, sign⟩ := printNumber_head value
      refine ⟨head, tail, by rw [print, shape], ?_, ?_⟩
      · rcases sign with rfl | digit
        · rfl
        · simp only [isSpace, Bool.or_eq_false_iff, decide_eq_false_iff_not]
          refine ⟨⟨⟨?_, ?_⟩, ?_⟩, ?_⟩ <;> rintro rfl <;> cases digit
      · rintro rfl
        rcases sign with minus | digit
        · cases minus
        · cases digit

/-- A key with its colon. -/
theorem readKey_printString (style : Style) (key : String) (fuel : Nat)
    (enough : (printString key).length < fuel + 1) (rest : List Char) :
    readKey fuel (printString key ++ ':' :: style.key ++ rest) = some (key, style.key ++ rest) := by
  have chars : key.toList.length < fuel := by
    have bound := length_le_flatMap key.toList
    simp only [printString, List.length_cons, List.length_append, List.length_nil] at enough
    omega
  unfold readKey
  simp only [printString, List.cons_append, List.append_assoc, List.nil_append,
    readSign_self (show isSpace '"' = false from rfl), readString_escaped _ _ chars,
    readSign_self (show isSpace ':' = false from rfl), String.ofList_toList, bind, Option.bind, pure]

/-- Space in front of a value. -/
theorem readValue_spaces {spaces : List Char} (white : spaces.all isSpace = true) (fuel : Nat)
    (input : List Char) : readValue fuel (spaces ++ input) = readValue fuel input := by
  cases fuel with
  | zero => simp only [readValue]
  | succ fuel => simp only [readValue, skipSpace_spaces white]

private theorem readKey_spaces {spaces : List Char} (white : spaces.all isSpace = true) (fuel : Nat)
    (input : List Char) : readKey fuel (spaces ++ input) = readKey fuel input := by
  simp only [readKey, readSign, skipSpace_spaces white]

/-- What follows an item of an array ends a number. -/
theorem printItems_ends (style : Style) (items : List Json) (rest : List Char) :
    EndsNumber (printItems style items ++ rest) := by
  cases items with
  | nil =>
      rw [printItems]
      exact .cons rfl
  | cons item items =>
      rw [printItems]
      exact .cons rfl

private theorem printFields_ends (style : Style) (fields : List (String × Json))
    (rest : List Char) :
    EndsNumber (printFields style fields ++ rest) := by
  cases fields with
  | nil =>
      rw [printFields]
      exact .cons rfl
  | cons field fields =>
      rw [printFields]
      exact .cons rfl

mutual

/-- The bound on depth and width is the length of the text. -/
theorem readValue_print (style : Style) (value : Json) (fuel : Nat) (rest : List Char)
    (enough : (print style value).length < fuel) (ends : EndsNumber rest) :
    readValue fuel (print style value ++ rest) = some (value, rest) := by
  cases fuel with
  | zero => omega
  | succ fuel =>
      match value with
      | .null => simp [print, readValue, skipSpace_cons, isSpace, readWord]
      | .bool true => simp [print, readValue, skipSpace_cons, isSpace, readWord]
      | .bool false => simp [print, readValue, skipSpace_cons, isSpace, readWord]
      | .number value =>
          obtain ⟨head, tail, shape, sign⟩ := printNumber_head value
          obtain ⟨_, _, shape', black, _⟩ := print_head style (.number value)
          rw [print, shape] at shape'
          obtain ⟨rfl, rfl⟩ := List.cons.inj shape'
          have read := readNumber_printNumber value ends
          rw [shape, List.cons_append] at read
          have others : head ≠ 'n' ∧ head ≠ 't' ∧ head ≠ 'f' ∧ head ≠ '"' ∧ head ≠ '[' ∧
              head ≠ '\x7b' := by
            refine ⟨?_, ?_, ?_, ?_, ?_, ?_⟩ <;> rintro rfl <;> rcases sign with sign | sign <;>
              cases sign
          obtain ⟨notNull, notTrue, notFalse, notString, notArray, notObject⟩ := others
          rw [print, shape, List.cons_append]
          simp only [readValue, skipSpace_cons black, if_neg notNull, if_neg notTrue,
            if_neg notFalse, if_neg notString, if_neg notArray, if_neg notObject, read, bind,
            Option.bind, pure]
      | .string text =>
          have chars : text.toList.length < fuel := by
            have bound := length_le_flatMap text.toList
            simp only [print, printString, List.length_cons, List.length_append,
              List.length_nil] at enough
            omega
          simp [print, printString, readValue, skipSpace_cons, isSpace, readString_escaped _ _ chars]
      | .array [] => simp [print, readValue, skipSpace_cons, isSpace, readSign]
      | .array (first :: items) =>
          simp only [print, List.length_cons, List.length_append] at enough
          have readFirst := readValue_print style first fuel (printItems style items ++ rest) (by omega)
            (printItems_ends style items rest)
          have readRest := readItems_printItems style items fuel rest (by omega)
          obtain ⟨head, tail, shape, black, inside⟩ := print_head style first
          have opened : readSign ']' (print style first ++ (printItems style items ++ rest)) = none := by
            rw [shape, List.cons_append]
            exact readSign_of_ne black inside _
          simp [print, readValue, skipSpace_cons, isSpace, opened, readFirst, readRest]
      | .object [] => simp [print, readValue, skipSpace_cons, isSpace, readSign]
      | .object ((key, first) :: fields) =>
          simp only [print, List.length_cons, List.length_append] at enough
          have readFirst := readValue_print style first fuel (printFields style fields ++ rest) (by omega)
            (printFields_ends style fields rest)
          have readRest := readFields_printFields style fields fuel rest (by omega)
          have readTheKey := readKey_printString style key fuel (by omega)
            (print style first ++ (printFields style fields ++ rest))
          have opened : ∀ rest, readSign '\x7d' (printString key ++ rest) = none :=
            fun rest => readSign_of_ne (by rfl) (by decide) _
          simp only [List.append_assoc, List.cons_append] at readTheKey
          simp [print, readValue, skipSpace_cons, isSpace, opened, readTheKey,
            readValue_spaces style.key_space, readFirst, readRest]

private theorem readItems_printItems (style : Style) (items : List Json) (fuel : Nat)
    (rest : List Char)
    (enough : (printItems style items).length < fuel) :
    readItems fuel (printItems style items ++ rest) = some (items, rest) := by
  cases fuel with
  | zero => omega
  | succ fuel =>
      match items with
      | [] => simp [printItems, readItems, readSign, skipSpace_cons, isSpace]
      | item :: items =>
          simp only [printItems, List.length_cons, List.length_append] at enough
          have readItem := readValue_print style item fuel (printItems style items ++ rest) (by omega)
            (printItems_ends style items rest)
          have readRest := readItems_printItems style items fuel rest (by omega)
          simp [printItems, readItems, readSign, skipSpace_cons, isSpace,
            readValue_spaces style.item_space, readItem, readRest]

private theorem readFields_printFields (style : Style) (fields : List (String × Json)) (fuel : Nat)
    (rest : List Char) (enough : (printFields style fields).length < fuel) :
    readFields fuel (printFields style fields ++ rest) = some (fields, rest) := by
  cases fuel with
  | zero => omega
  | succ fuel =>
      match fields with
      | [] => simp [printFields, readFields, readSign, skipSpace_cons, isSpace]
      | (key, value) :: fields =>
          simp only [printFields, List.length_cons, List.length_append] at enough
          have readTheValue := readValue_print style value fuel (printFields style fields ++ rest) (by omega)
            (printFields_ends style fields rest)
          have readRest := readFields_printFields style fields fuel rest (by omega)
          have readTheKey := readKey_printString style key fuel (by omega)
            (print style value ++ (printFields style fields ++ rest))
          simp only [List.append_assoc, List.cons_append] at readTheKey
          simp [printFields, readFields, readSign, skipSpace_cons, isSpace,
            readKey_spaces style.item_space, readTheKey, readValue_spaces style.key_space,
            readTheValue, readRest]

end

theorem loads_dumps (style : Style) (sorted : Bool) (value : Json) :
    loads (dumps style sorted value) =
      some (keepLast (if sorted then sortKeys value else value)) := by
  have ends : EndsNumber [] := rfl
  have read := readValue_print style (if sorted then sortKeys value else value) _ []
    (Nat.lt_succ_self _) ends
  rw [List.append_nil] at read
  unfold loads dumps
  rw [String.toList_ofList, read]
  rfl

end Concord.Json
