import SchemaAssembly.Text.Quoted

/-!
# Faults of file access

What can go wrong when a path is followed or what it leads to is used. Most faults have the number
and the words under which operating systems report them. A path that the system cannot even be asked
for has words only; nobody expects this fault, so it breaks down whatever runs into it.
-/

namespace SchemaAssembly

/-- Why a path cannot be used. -/
inductive Fault where
  /-- a name on the way, or the last one, does not exist -/
  | notFound
  /-- a file stands where a directory is needed -/
  | notDirectory
  /-- a directory stands where a file is needed -/
  | isDirectory
  /-- a name or the whole path is longer than the system allows -/
  | nameTooLong
  /-- more links on the way than the system follows -/
  | tooManyLinks
  /-- the path cannot be handed to the system -/
  | unusable
  deriving DecidableEq, Repr

namespace Fault

/-- The number of the fault, if it is the system that reports it. -/
def number? : Fault → Option Nat
  | notFound => some 2
  | notDirectory => some 20
  | isDirectory => some 21
  | nameTooLong => some 36
  | tooManyLinks => some 40
  | unusable => none

/-- The fault in words. -/
def text : Fault → String
  | notFound => "No such file or directory"
  | notDirectory => "Not a directory"
  | isDirectory => "Is a directory"
  | nameTooLong => "File name too long"
  | tooManyLinks => "Too many levels of symbolic links"
  | unusable => "embedded null byte"

/-- The fault as reported for a path. -/
def message (fault : Fault) (path : String) : String :=
  match fault.number? with
  | some number => "[Errno " ++ toString number ++ "] " ++ fault.text ++ ": " ++ Text.quoted path
  | none => fault.text

end Fault

end SchemaAssembly
