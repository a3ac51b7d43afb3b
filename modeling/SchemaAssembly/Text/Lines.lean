/-!
# Lines

Line ends of a text file, a text without the line feed at its end, a text put together from lines,
and the fields that a separator takes it apart into.
-/

namespace SchemaAssembly.Text

/-- Every line end, a carriage return with or without a line feed, becomes one line feed. -/
def normalizeNewlines : List Char → List Char
  | [] => []
  | '\r' :: '\n' :: rest => '\n' :: normalizeNewlines rest
  | c :: rest => (if c = '\r' then '\n' else c) :: normalizeNewlines rest

/-- A text without the line feed at its end, if there is one. -/
def withoutLineFeed (cs : List Char) : List Char :=
  if cs.getLast? = some '\n' then cs.dropLast else cs

/-- The lines joined by line feeds, with none at the end. -/
def joinLines (lines : List String) : String :=
  "\n".intercalate lines

/-- The texts between separators, empty ones included. -/
def fields (separator : Char) (text : String) : List String :=
  (text.toList.splitOn separator).map String.ofList

/-- A text without the separator is one field. -/
theorem fields_of_not_mem {separator : Char} {text : String} (h : separator ∉ text.toList) :
    fields separator text = [text] := by
  rw [fields, List.splitOn_eq_singleton h, List.map_singleton, String.ofList_toList]

/-- Texts that do not hold the separator are the fields between separators. -/
theorem fields_intercalate {separator : Char} {texts : List String} (hne : texts ≠ [])
    (h : ∀ text ∈ texts, separator ∉ text.toList) :
    fields separator ((String.singleton separator).intercalate texts) = texts := by
  have hsplit : ([separator].intercalate (texts.map String.toList)).splitOn separator =
      texts.map String.toList :=
    List.splitOn_intercalate separator (by simpa using h) (by simpa using hne)
  rw [fields, String.toList_intercalate, String.toList_singleton, hsplit, List.map_map]
  simp

/-- The characters that end a line when lines are counted: line and paragraph ends of any kind. -/
def endsLine (c : Char) : Bool :=
  c == '\n' || c == '\r' || c == '\x0b' || c == '\x0c' || c == '\x1c' || c == '\x1d' ||
    c == '\x1e' || c == '\u0085' || c == '\u2028' || c == '\u2029'

/-- Every character with the number of its line, counted from `line`. A line includes its end. -/
def numberLines (line : Nat) : List Char → List (Char × Nat)
  | [] => []
  | '\r' :: '\n' :: rest => ('\r', line) :: ('\n', line) :: numberLines (line + 1) rest
  | c :: rest => (c, line) :: numberLines (if endsLine c then line + 1 else line) rest

end SchemaAssembly.Text
