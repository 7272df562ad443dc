import Concord.Collaboration.Protocol

/-!
Contract: the output of a program as text.

Owns:
- `decodeReplacing`, decoding UTF-8 with one replacement character for each
  maximal part of an ill-formed sequence;
- `bounded`, the output as it is stored.

Does not own: where the output comes from.
-/

set_option autoImplicit false

namespace Concord.Execution

def replacementCharacter : Char := Char.ofNat 0xFFFD

def isContinuation (byte : UInt8) : Bool := 0x80 ≤ byte && byte ≤ 0xBF

/-- The bytes that may follow a first byte of three or four: not every
continuation, so that no code point has two encodings. -/
def continues (first second : UInt8) : Bool :=
  if first = 0xE0 then 0xA0 ≤ second && second ≤ 0xBF
  else if first = 0xED then 0x80 ≤ second && second ≤ 0x9F
  else if first = 0xF0 then 0x90 ≤ second && second ≤ 0xBF
  else if first = 0xF4 then 0x80 ≤ second && second ≤ 0x8F
  else isContinuation second

def payloadBits (byte : UInt8) : Nat := byte.toNat % 64

/-- The next character, and the bytes after it. -/
def decodeNext (first : UInt8) (rest : List UInt8) : Char × List UInt8 :=
  if first ≤ 0x7F then (Char.ofNat first.toNat, rest)
  else if 0xC2 ≤ first && first ≤ 0xDF then
    match rest with
    | second :: rest' =>
        if isContinuation second then
          (Char.ofNat (first.toNat % 32 * 64 + payloadBits second), rest')
        else (replacementCharacter, rest)
    | [] => (replacementCharacter, [])
  else if 0xE0 ≤ first && first ≤ 0xEF then
    match rest with
    | second :: rest' =>
        if continues first second then
          match rest' with
          | third :: rest'' =>
              if isContinuation third then
                (Char.ofNat ((first.toNat % 16 * 64 + payloadBits second) * 64 + payloadBits third),
                  rest'')
              else (replacementCharacter, rest')
          | [] => (replacementCharacter, [])
        else (replacementCharacter, rest)
    | [] => (replacementCharacter, [])
  else if 0xF0 ≤ first && first ≤ 0xF4 then
    match rest with
    | second :: rest' =>
        if continues first second then
          match rest' with
          | third :: rest'' =>
              if isContinuation third then
                match rest'' with
                | fourth :: rest''' =>
                    if isContinuation fourth then
                      (Char.ofNat (((first.toNat % 8 * 64 + payloadBits second) * 64 +
                        payloadBits third) * 64 + payloadBits fourth), rest''')
                    else (replacementCharacter, rest'')
                | [] => (replacementCharacter, [])
              else (replacementCharacter, rest')
          | [] => (replacementCharacter, [])
        else (replacementCharacter, rest)
    | [] => (replacementCharacter, [])
  else (replacementCharacter, rest)

/-- The characters of some bytes, at most `count` of them. -/
def decodeCharacters : Nat → List UInt8 → List Char
  | 0, _ => []
  | _, [] => []
  | count + 1, first :: rest =>
      let (character, rest) := decodeNext first rest
      character :: decodeCharacters count rest

/-- `bytes.decode(errors="replace")`. A byte starts at most one character. -/
def decodeReplacing (bytes : List UInt8) : String :=
  String.ofList (decodeCharacters bytes.length bytes)

/-- The notice at the end of an output that was cut. -/
def truncationNotice : List UInt8 := Collaboration.encodeText "\n[output truncated]\n"

def bounded (limit : Nat) (data : List UInt8) : String :=
  if limit < data.length then
    decodeReplacing (data.take (limit - truncationNotice.length) ++ truncationNotice)
  else decodeReplacing data

end Concord.Execution
