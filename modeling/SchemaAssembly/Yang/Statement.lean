import SchemaAssembly.Feature.Basic

/-!
# YANG statements

A YANG text is one statement. A statement has a keyword, an argument unless the keyword takes none,
and the statements in its body. The statements of a text are numbered in the order in which they
begin, so that a number tells a statement from the others of its text.
-/

namespace SchemaAssembly.Yang

/-- A statement. -/
structure Statement where
  /-- what kind of statement it is; an extension's keyword is qualified -/
  keyword : String
  /-- what it is about -/
  argument : Option String
  /-- the line it stands on -/
  line : Nat
  /-- its number in the text -/
  number : Nat
  /-- the statements in it, in order -/
  body : List Statement
  deriving Inhabited

/-- The name and the short name in front of it, if a text has a colon. -/
def splitQualified (text : String) : Option (String × String) :=
  (Feature.splitColon text.toList).map fun (before, after) =>
    (String.ofList before, String.ofList after)

namespace Statement

/-- The argument of a statement that must have one. An argument that is missing is shown as None. -/
def name (s : Statement) : String :=
  s.argument.getD "None"

/-- The short name and the keyword of an extension's statement. -/
def qualifiedKeyword? (s : Statement) : Option (String × String) :=
  splitQualified s.keyword

/-- Whether the keyword belongs to an extension. -/
def isExtension (s : Statement) : Bool :=
  s.qualifiedKeyword?.isSome

/-- The statements with a keyword in the body. -/
def all (s : Statement) (keyword : String) : List Statement :=
  s.body.filter (·.keyword = keyword)

/-- The first statement with a keyword in the body. -/
def first? (s : Statement) (keyword : String) : Option Statement :=
  s.body.find? (·.keyword = keyword)

/-- The argument of the first statement with a keyword. -/
def argument? (s : Statement) (keyword : String) : Option String :=
  (s.first? keyword).bind (·.argument)

/-- The arguments of the statements with a keyword, in order. -/
def arguments (s : Statement) (keyword : String) : List String :=
  (s.all keyword).map (·.name)

end Statement

end SchemaAssembly.Yang
