import SchemaAssembly.Text.Hex

/-!
# Reading UTF-8

A decoder that goes through the bytes once. Between two bytes it holds the character it has begun:
the bytes read so far, how many are still owed, and the bounds of the next one. The bounds rule out
overlong forms, surrogates and numbers beyond the last code point. What it reports as wrong is the
longest beginning of a character that the bytes hold.
-/

namespace SchemaAssembly.Text

/-- Why bytes are no UTF-8. -/
inductive Utf8Fault where
  /-- a byte that starts no character -/
  | invalidStart
  /-- a character broken off by a byte that does not continue it -/
  | invalidContinuation
  /-- a character broken off by the end of the bytes -/
  | unexpectedEnd
  deriving DecidableEq, Repr

/-- The place and the reason at which decoding stops. -/
structure Utf8Error where
  /-- the offset of the first byte of the faulty sequence -/
  position : Nat
  /-- the faulty sequence -/
  bytes : List UInt8
  /-- what is wrong with it -/
  fault : Utf8Fault
  deriving DecidableEq, Repr

/-- The reason in words. -/
def Utf8Fault.text : Utf8Fault → String
  | .invalidStart => "invalid start byte"
  | .invalidContinuation => "invalid continuation byte"
  | .unexpectedEnd => "unexpected end of data"

/-- The error in words; a sequence of one byte is shown, a longer one given by its offsets. -/
def Utf8Error.message (e : Utf8Error) : String :=
  let place :=
    match e.bytes with
    | [byte] =>
      "byte 0x" ++ String.ofList (hex 2 byte.toNat) ++ " in position " ++ toString e.position
    | bytes =>
      "bytes in position " ++ toString e.position ++ "-" ++ toString (e.position + bytes.length - 1)
  "'utf-8' codec can't decode " ++ place ++ ": " ++ e.fault.text

/-- A character of which some bytes have been read. -/
structure Utf8Begun where
  /-- the bytes read, the last one first -/
  bytes : List UInt8
  /-- how many bytes are owed, at least one -/
  owed : Nat
  /-- the least value of the next byte -/
  low : UInt8
  /-- the greatest value of the next byte -/
  high : UInt8
  /-- the bits read so far -/
  bits : Nat

/-- The character begun by a first byte beyond ASCII, if it starts one. -/
def Utf8Begun.ofFirst? (b : UInt8) : Option Utf8Begun :=
  if 0xC2 ≤ b ∧ b ≤ 0xDF then some ⟨[b], 1, 0x80, 0xBF, b.toNat - 0xC0⟩
  else if b = 0xE0 then some ⟨[b], 2, 0xA0, 0xBF, 0⟩
  else if b = 0xED then some ⟨[b], 2, 0x80, 0x9F, 0xD⟩
  else if 0xE1 ≤ b ∧ b ≤ 0xEF then some ⟨[b], 2, 0x80, 0xBF, b.toNat - 0xE0⟩
  else if b = 0xF0 then some ⟨[b], 3, 0x90, 0xBF, 0⟩
  else if 0xF1 ≤ b ∧ b ≤ 0xF3 then some ⟨[b], 3, 0x80, 0xBF, b.toNat - 0xF0⟩
  else if b = 0xF4 then some ⟨[b], 3, 0x80, 0x8F, 4⟩
  else none

/-- Decodes bytes from an offset on, inside the character begun if there is one. -/
def decodeFrom (position : Nat) : Option Utf8Begun → List UInt8 → Except Utf8Error (List Char)
  | none, [] => .ok []
  | some begun, [] => .error ⟨position, begun.bytes.reverse, .unexpectedEnd⟩
  | none, b :: rest =>
    if b < 0x80 then (decodeFrom (position + 1) none rest).map (Char.ofNat b.toNat :: ·)
    else match Utf8Begun.ofFirst? b with
      | some begun => decodeFrom position (some begun) rest
      | none => .error ⟨position, [b], .invalidStart⟩
  | some begun, b :: rest =>
    if begun.low ≤ b ∧ b ≤ begun.high then
      let bits := begun.bits * 64 + (b.toNat - 0x80)
      if begun.owed ≤ 1 then
        (decodeFrom (position + begun.bytes.length + 1) none rest).map (Char.ofNat bits :: ·)
      else
        decodeFrom position (some ⟨b :: begun.bytes, begun.owed - 1, 0x80, 0xBF, bits⟩) rest
    else .error ⟨position, begun.bytes.reverse, .invalidContinuation⟩

/-- **Decoding** of a whole file's bytes. -/
def decodeUtf8 (bytes : List UInt8) : Except Utf8Error (List Char) :=
  decodeFrom 0 none bytes

/-- The bytes of a text. -/
def encodeUtf8 (text : String) : List UInt8 :=
  text.toUTF8.data.toList

end SchemaAssembly.Text
