import SchemaAssembly.Text.Hex
import SchemaAssembly.Text.Printable

/-!
# Quoted texts

The form in which a message shows a text it quotes: between single quotes, or between double quotes
if the text holds a single quote and no double one. The quote in use, the backslash and characters
that cannot be printed are escaped.
-/

namespace SchemaAssembly.Text

/-- One character of a quoted text, given the quote in use. -/
def quotedChar (quote c : Char) : List Char :=
  if c == quote || c == '\\' then ['\\', c]
  else if c == '\n' then ['\\', 'n']
  else if c == '\r' then ['\\', 'r']
  else if c == '\t' then ['\\', 't']
  else if isPrintable c then [c]
  else if c.toNat < 0x100 then '\\' :: 'x' :: hex 2 c.toNat
  else if c.toNat < 0x10000 then '\\' :: 'u' :: hex 4 c.toNat
  else '\\' :: 'U' :: hex 8 c.toNat

/-- The quote that a text is shown with. -/
def quoteFor (cs : List Char) : Char :=
  if cs.contains '\'' && !cs.contains '"' then '"' else '\''

/-- **A text as a message quotes it.** -/
def quoted (text : String) : String :=
  let cs := text.toList
  let quote := quoteFor cs
  String.ofList (quote :: cs.flatMap (quotedChar quote) ++ [quote])

end SchemaAssembly.Text
