import SchemaAssembly.Text.Quoted

/-!
# Bytes in texts

Bytes can be written as letters of an alphabet of sixty-four, four letters for three bytes. Equals
signs fill up the last group. Where bytes are shown, those that are no characters of their own are
escaped.

- `base64Bytes?` reads such letters.
- `quotedBytes` shows bytes between quotes.
-/

namespace SchemaAssembly.Text

/-- The value of a letter in the alphabet of sixty-four. -/
def letterValue? (c : Char) : Option Nat :=
  if 'A' ≤ c && c ≤ 'Z' then some (c.toNat - 'A'.toNat)
  else if 'a' ≤ c && c ≤ 'z' then some (c.toNat - 'a'.toNat + 26)
  else if c.isDigit then some (c.toNat - '0'.toNat + 52)
  else if c = '+' then some 62
  else if c = '/' then some 63
  else none

/-- The bytes that letters stand for, four letters for three bytes. `place` letters of a group have
been read, `left` is what they have left over, and `pads` equals signs follow them. Other characters
do not count, and a whole padding ends the bytes. -/
def base64BytesFrom (place left pads : Nat) : List Char → Option (List UInt8)
  | [] => if place = 0 then some [] else none
  | '=' :: rest =>
    if 2 ≤ place then
      if 4 ≤ place + pads + 1 then some [] else base64BytesFrom place left (pads + 1) rest
    else base64BytesFrom place left pads rest
  | c :: rest =>
    match letterValue? c with
    | none => base64BytesFrom place left pads rest
    | some n =>
      match place with
      | 0 => base64BytesFrom 1 n 0 rest
      | 1 => (base64BytesFrom 2 (n % 16) 0 rest).map ((left * 4 + n / 16).toUInt8 :: ·)
      | 2 => (base64BytesFrom 3 (n % 4) 0 rest).map ((left * 16 + n / 4).toUInt8 :: ·)
      | _ => (base64BytesFrom 0 0 0 rest).map ((left * 64 + n).toUInt8 :: ·)

/-- **Bytes**, if the text has only ASCII characters and no group of letters is incomplete. -/
def base64Bytes? (text : List Char) : Option (List UInt8) :=
  if text.all (·.toNat < 128) then base64BytesFrom 0 0 0 text else none

/-- A byte as it is shown between quotes. -/
def shownByte (quote : Char) (b : UInt8) : List Char :=
  let c := Char.ofNat b.toNat
  if 0x20 ≤ b.toNat && b.toNat < 0x7F || c == '\n' || c == '\r' || c == '\t' then quotedChar quote c
  else '\\' :: 'x' :: hex 2 b.toNat

/-- **Bytes as they are shown**: between quotes, with a mark in front. -/
def quotedBytes (content : List UInt8) : String :=
  let quote := quoteFor (content.map fun b => Char.ofNat b.toNat)
  String.ofList ('b' :: quote :: content.flatMap (shownByte quote) ++ [quote])

end SchemaAssembly.Text
