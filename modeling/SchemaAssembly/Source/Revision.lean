import SchemaAssembly.Source.Piece
import SchemaAssembly.Text.Word

/-!
# Revisions

The revision of a schema document is the greatest date that some `revision` statement gives. The
statements are looked for in the text without comments and strings, so that a date in a description
does not count, while a quoted date that follows the keyword does.
-/

namespace SchemaAssembly.Source

/-- The length of a date. -/
def dateLength : Nat := 10

/-- The date that follows the keyword: after one blank at least, and not run into another word. -/
def dateAfterKeyword (cs : List Char) : Option (List Char) :=
  let rest := Text.trimStart cs
  let date := rest.take dateLength
  let ends := match (rest.drop dateLength).head? with
    | some c => !Text.isWord c
    | none => true
  if rest.length < cs.length && isDate date && ends then some date else none

/-- The date of the statement at the beginning of a text. -/
def revisionAt (cs : List Char) : Option (List Char) :=
  let keyword := "revision".toList
  if keyword.isPrefixOf cs then dateAfterKeyword (cs.drop keyword.length) else none

/-- The dates of all statements of a text, given whether a word may begin with it. -/
def revisionsFrom (wordMayBegin : Bool) : List Char → List (List Char)
  | [] => []
  | c :: rest =>
    let here := if wordMayBegin then (revisionAt (c :: rest)).toList else []
    here ++ revisionsFrom (!Text.isWord c) rest

/-- The dates that the revision statements of a document give, in order. -/
def revisionDates (text : String) : List String :=
  (revisionsFrom true (stripStrings text.toList)).map String.ofList

/-- The greatest of some texts. -/
def greatest? : List String → Option String
  | [] => none
  | text :: rest => some (rest.foldl (fun best next => if best < next then next else best) text)

/-- **The revision** of a document. -/
def revision? (text : String) : Option String :=
  greatest? (revisionDates text)

end SchemaAssembly.Source
