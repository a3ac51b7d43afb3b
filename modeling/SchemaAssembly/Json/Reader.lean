import SchemaAssembly.Json.Value
import SchemaAssembly.Text.Hex

/-!
# Reading JSON

What a JSON text stands for, numbers aside. The text is cut into tokens, between which blanks say
nothing, and the tokens are read as a value: lists and objects hold values between brackets, with
commas between them and none at the end.

- `JsonToken.ofChars` cuts a text into tokens. In a string an escape stands for a sixteen-bit unit,
  and two surrogates for one character.
- `JsonValue.read` reads a whole text.
-/

namespace SchemaAssembly

/-- A token of a JSON text. -/
inductive JsonToken where
  /-- an opening square bracket -/
  | openList
  /-- a closing square bracket -/
  | closeList
  /-- an opening curly bracket -/
  | openObject
  /-- a closing curly bracket -/
  | closeObject
  /-- a comma -/
  | comma
  /-- a colon -/
  | colon
  /-- the word for nothing -/
  | null
  /-- the word for a truth value -/
  | bool (value : Bool)
  /-- a string -/
  | text (value : String)
  deriving DecidableEq, Repr

namespace JsonToken

/-- Whether a character says nothing between tokens. -/
def isBlank (c : Char) : Bool :=
  c == ' ' || c == '\t' || c == '\n' || c == '\r'

/-- What a character stands for behind a backslash. -/
def escaped? : Char → Option Char
  | '"' => some '"'
  | '\\' => some '\\'
  | '/' => some '/'
  | 'b' => some '\x08'
  | 'f' => some '\x0c'
  | 'n' => some '\n'
  | 'r' => some '\r'
  | 't' => some '\t'
  | _ => none

/-- The number that hexadecimal digits stand for. -/
def number? (digits : List Char) : Option Nat :=
  digits.foldlM (fun n c => (Text.hexValue? c).map (16 * n + ·)) 0

/-- One unit more before those that have been read. -/
def withUnit (unit : Nat) (units : List Nat × List Char) : List Nat × List Char :=
  (unit :: units.1, units.2)

/-- What the rest of a string stands for, up to its quote, and what follows. Characters stand for
their code points, escapes with four digits for sixteen-bit units. -/
def readUnits : List Char → Option (List Nat × List Char)
  | [] => none
  | '"' :: rest => some ([], rest)
  | '\\' :: 'u' :: a :: b :: c :: d :: rest =>
    (number? [a, b, c, d]).bind fun unit => (readUnits rest).map (withUnit unit)
  | '\\' :: c :: rest =>
    (escaped? c).bind fun c => (readUnits rest).map (withUnit c.toNat)
  | c :: rest =>
    if c = '\\' ∨ c < ' ' then none else (readUnits rest).map (withUnit c.toNat)

/-- The characters that units stand for: a high surrogate has to be followed by a low one. -/
def ofUnits : List Nat → Option (List Char)
  | [] => some []
  | unit :: rest =>
    if 0xD800 ≤ unit ∧ unit < 0xDC00 then
      match rest with
      | [] => none
      | low :: rest =>
        if 0xDC00 ≤ low ∧ low < 0xE000 then
          let beyond := 0x400 * (unit - 0xD800) + (low - 0xDC00)
          (ofUnits rest).map (Char.ofNat (0x10000 + beyond) :: ·)
        else none
    else if 0xDC00 ≤ unit ∧ unit < 0xE000 then none
    else (ofUnits rest).map (Char.ofNat unit :: ·)

/-- A string is followed by less than it begins with. -/
theorem length_lt_of_readUnits {cs after : List Char} {units : List Nat}
    (h : readUnits cs = some (units, after)) : after.length < cs.length := by
  fun_induction readUnits cs generalizing units with
  | case1 => cases h
  | case2 =>
    cases h
    exact Nat.lt_succ_self _
  | case3 a b c d rest ih =>
    obtain ⟨unit, -, h⟩ := Option.bind_eq_some_iff.1 h
    obtain ⟨⟨units, after⟩, hrest, h⟩ := Option.map_eq_some_iff.1 h
    cases h
    have hless : after.length < rest.length := ih hrest
    simp only [List.length_cons]
    omega
  | case4 c rest _ ih =>
    obtain ⟨unit, -, h⟩ := Option.bind_eq_some_iff.1 h
    obtain ⟨⟨units, after⟩, hrest, h⟩ := Option.map_eq_some_iff.1 h
    cases h
    have hless : after.length < rest.length := ih hrest
    simp only [List.length_cons]
    omega
  | case5 => cases h
  | case6 c rest _ _ _ _ ih =>
    obtain ⟨⟨units, after⟩, hrest, h⟩ := Option.map_eq_some_iff.1 h
    cases h
    exact Nat.lt_succ_of_lt (ih hrest)

/-- **The tokens** of a text. -/
def ofChars (cs : List Char) : Option (List JsonToken) :=
  match cs with
  | [] => some []
  | '[' :: rest => (ofChars rest).map (openList :: ·)
  | ']' :: rest => (ofChars rest).map (closeList :: ·)
  | '\x7b' :: rest => (ofChars rest).map (openObject :: ·)
  | '\x7d' :: rest => (ofChars rest).map (closeObject :: ·)
  | ',' :: rest => (ofChars rest).map (comma :: ·)
  | ':' :: rest => (ofChars rest).map (colon :: ·)
  | 'n' :: 'u' :: 'l' :: 'l' :: rest => (ofChars rest).map (null :: ·)
  | 't' :: 'r' :: 'u' :: 'e' :: rest => (ofChars rest).map (bool true :: ·)
  | 'f' :: 'a' :: 'l' :: 's' :: 'e' :: rest => (ofChars rest).map (bool false :: ·)
  | '"' :: rest =>
    match _hstring : readUnits rest with
    | none => none
    | some (units, after) => do
      let value ← ofUnits units
      let tokens ← ofChars after
      return text (String.ofList value) :: tokens
  | c :: rest => if isBlank c then ofChars rest else none
termination_by cs.length
decreasing_by
  all_goals simp only [List.length_cons]
  all_goals try omega
  have := length_lt_of_readUnits _hstring
  omega

end JsonToken

namespace JsonValue

open JsonToken

/-- What follows a token is less than it is found in. -/
theorem length_lt_of_drop {tokens rest : List JsonToken} {token : JsonToken} {n : Nat}
    (h : tokens.drop n = token :: rest) : rest.length < tokens.length := by
  have hlength := congrArg List.length h
  rw [List.length_drop, List.length_cons] at hlength
  omega

mutual

/-- The value that tokens begin with, and how many of them it takes. -/
def readValue : (tokens : List JsonToken) → Option (JsonValue × Nat)
  | .null :: _ => some (null, 1)
  | .bool value :: _ => some (bool value, 1)
  | .text value :: _ => some (text value, 1)
  | .openList :: .closeList :: _ => some (list [], 2)
  | .openList :: rest => (readItems rest).map fun (items, n) => (list items, n + 1)
  | .openObject :: .closeObject :: _ => some (object [], 2)
  | .openObject :: rest => (readMembers rest).map fun (members, n) => (object members, n + 1)
  | _ => none
termination_by tokens => (tokens.length, 0)

/-- Items up to the bracket behind the last one, and how many tokens they take with it. -/
def readItems (tokens : List JsonToken) : Option (List JsonValue × Nat) := do
  let (item, n) ← readValue tokens
  match _hnext : tokens.drop n with
  | .closeList :: _ => return ([item], n + 1)
  | .comma :: rest =>
    let (items, k) ← readItems rest
    return (item :: items, n + 1 + k)
  | _ => none
termination_by (tokens.length, 1)
decreasing_by
  · exact Prod.Lex.right _ Nat.zero_lt_one
  · exact Prod.Lex.left _ _ (length_lt_of_drop _hnext)

/-- Members up to the bracket behind the last one, and how many tokens they take with it. -/
def readMembers : (tokens : List JsonToken) → Option (List (String × JsonValue) × Nat)
  | .text name :: .colon :: tokens => do
    let (value, n) ← readValue tokens
    match _hnext : tokens.drop n with
    | .closeObject :: _ => return ([(name, value)], n + 3)
    | .comma :: rest =>
      let (members, k) ← readMembers rest
      return ((name, value) :: members, n + 3 + k)
    | _ => none
  | _ => none
termination_by tokens => (tokens.length, 1)
decreasing_by
  · exact Prod.Lex.left _ _ (Nat.lt_add_of_pos_right Nat.two_pos)
  · have hless := length_lt_of_drop _hnext
    exact Prod.Lex.left _ _ (by simp only [List.length_cons]; omega)

end

/-- **Reading** a JSON text as a whole. -/
def read (text : String) : Option JsonValue := do
  let tokens ← JsonToken.ofChars text.toList
  let (value, n) ← readValue tokens
  if n = tokens.length then some value else none

end JsonValue

end SchemaAssembly
