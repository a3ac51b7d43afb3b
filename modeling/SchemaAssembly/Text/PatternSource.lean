import SchemaAssembly.Text.Category
import SchemaAssembly.Text.Pattern

/-!
# Written patterns

Patterns as schema languages write them: branches between bars, pieces with a number of repetitions,
classes in brackets and classes behind a backslash. Such a pattern is about a whole text.

- `Pattern.ofText?` reads a pattern.
-/

namespace SchemaAssembly.Text

namespace Pattern

/-! ### Classes -/

/-- Whether a character may be part of a word: it is no punctuation, no separator and nothing else
that has no shape. -/
def isShaped (c : Char) : Bool :=
  (category c).toList.head?.all fun kind => !"PZC".toList.contains kind

/-- Whether a character may begin a name. -/
def beginsName (c : Char) : Bool :=
  (category c).startsWith "L" || c == '_' || c == ':'

/-- Whether a character may stand in a name. -/
def continuesName (c : Char) : Bool :=
  let kind := category c
  beginsName c || kind.startsWith "M" || kind = "Nd" || c == '-' || c == '.' || c == '·'

/-- Whether a character separates words. -/
def isSeparator (c : Char) : Bool :=
  [' ', '\t', '\n', '\r'].contains c

/-- What a character stands for behind a backslash: a class, or itself. -/
def escapedClass? : Char → Option (Char → Bool)
  | 'n' => some (· == '\n')
  | 't' => some (· == '\t')
  | 'r' => some (· == '\r')
  | 'd' => some fun c => category c = "Nd"
  | 'D' => some fun c => category c != "Nd"
  | 's' => some isSeparator
  | 'S' => some fun c => !isSeparator c
  | 'w' => some isShaped
  | 'W' => some fun c => !isShaped c
  | 'i' => some beginsName
  | 'I' => some fun c => !beginsName c
  | 'c' => some continuesName
  | 'C' => some fun c => !continuesName c
  | c => if c.isAlphanum || isSeparator c then none else some (· == c)

/-- The class that the name of a category or of a row of characters stands for. A row that is not
known has all characters. -/
def propertyClass? (name : List Char) : Option (Char → Bool) :=
  match name with
  | 'I' :: 's' :: row => some ((blockOf? (String.ofList row)).getD fun _ => true)
  | first :: second => do
    let seconds ← categoryKinds.lookup first
    match second with
    | [] => return fun c => (category c).startsWith (String.singleton first)
    | [second] =>
      if seconds.toList.contains second then
        return fun c => category c = String.ofList [first, second]
      else none
    | _ => none
  | [] => none

/-- The class behind a backslash that a text begins with, whether it is what a property excludes,
and what stands behind it. -/
def escape? : List Char → Option ((Char → Bool) × Bool × List Char)
  | 'p' :: '\x7b' :: rest => do
    let isIn ← propertyClass? (rest.takeWhile (· != '\x7d'))
    return (isIn, false, ← (rest.dropWhile (· != '\x7d')).tail?)
  | 'P' :: '\x7b' :: rest => do
    let isIn ← propertyClass? (rest.takeWhile (· != '\x7d'))
    return (isIn, true, ← (rest.dropWhile (· != '\x7d')).tail?)
  | c :: rest => do return (← escapedClass? c, false, rest)
  | [] => none

/-! ### Classes in brackets -/

/-- What a part of a class in brackets says about the characters that it names. -/
inductive Role where
  /-- they are in the class -/
  | included
  /-- they are not in the class, and all others are -/
  | negated
  /-- they are not in the class -/
  | excluded
  deriving DecidableEq, Repr

/-- The role behind a circumflex. -/
def Role.turned : Role → Role
  | included => negated
  | negated | excluded => included

/-- Some characters that a class in brackets names. -/
structure ClassPart where
  /-- what is said about them -/
  role : Role
  /-- which characters they are -/
  isIn : Char → Bool

/-- Whether a character is in the class that some parts make up, given whether it is by the parts
before them. -/
def isInParts (before : Bool) (c : Char) : List ClassPart → Bool
  | [] => before
  | part :: rest =>
    match part.role, part.isIn c with
    | .included, true => isInParts true c rest
    | .included, false => isInParts before c rest
    | .negated, true | .excluded, true => false
    | .negated, false => isInParts true c rest
    | .excluded, false => isInParts before c rest

/-- The character that a class in brackets names, behind a backslash or by itself, and what stands
behind it. -/
def classChar? : List Char → Option (Char × List Char)
  | '\\' :: c :: rest =>
    match [('n', '\n'), ('t', '\t'), ('r', '\r')].lookup c with
    | some c => some (c, rest)
    | none => if "\\|.-^?*+\x7b\x7d()[]".toList.contains c then some (c, rest) else none
  | c :: rest => if "\\[]".toList.contains c then none else some (c, rest)
  | [] => none

/-- The characters that stand by themselves or as an interval where a text begins, and what stands
behind them. A minus between other parts names nothing. -/
def classRange? (previous : Char) (cs : List Char) : Option (Option (Char → Bool) × List Char) := do
  let (first, rest) ← classChar? cs
  match rest with
  | '-' :: next :: more =>
    if first = '-' && !"[^".toList.contains previous then return (none, rest)
    else if "[]".toList.contains next then return (some (· == first), rest)
    else
      let (last, rest) ← classChar? (next :: more)
      if last < first then none
      else return (some fun c => first ≤ c && c ≤ last, rest)
  | ['-'] => none
  | next :: _ =>
    if first = '-' && next != ']' && !"[^".toList.contains previous then return (none, rest)
    else return (some (· == first), rest)
  | [] => return (some (· == first), rest)

/-- The character before what a text leaves, which is the one before the text if it leaves all. -/
def lastBefore (previous : Char) (cs behind : List Char) : Char :=
  ((cs.take (cs.length - behind.length)).getLast?).getD previous

/-- The parts of a class in brackets up to the closing bracket, and what stands behind it. The parts
up to a minus have the role of those before, the others that of the whole class. Behind a circumflex
there is at least one part. At most `length` parts are read. -/
def classParts? : (length : Nat) → (isTurned : Bool) → (role whole : Role) → (previous : Char) →
    List Char → Option (List ClassPart × List Char)
  | 0, _, _, _, _, _ => none
  | length + 1, isTurned, role, whole, previous, cs =>
    match cs, isTurned with
    | [], _ => none
    | ']' :: rest, false => some ([], rest)
    | '\\' :: rest, _ => do
      let (isIn, isExcluded, behind) ← escape? rest
      let part : ClassPart := ⟨if isExcluded then .negated else role, isIn⟩
      let role := if isExcluded then .included else role
      let (parts, end?) ←
        classParts? length false role whole (lastBefore previous rest behind) behind
      return (part :: parts, end?)
    | '-' :: '[' :: rest, false => do
      let (parts, behind) ← match rest with
        | '^' :: rest => classParts? length true Role.excluded.turned .excluded '^' rest
        | rest => classParts? length false .excluded .excluded '[' rest
      match behind with
      | ']' :: rest => return (parts, rest)
      | _ => none
    | c :: _, isTurned => do
      let role := if c = '-' && !isTurned then whole else role
      let (range, behind) ← classRange? previous cs
      let (parts, rest) ←
        classParts? length false role whole (lastBefore previous cs behind) behind
      return ((range.map fun isIn => ⟨role, isIn⟩).toList ++ parts, rest)

/-- The class in brackets whose inside a text begins with, and what stands behind it. -/
def bracketClass? (cs : List Char) : Option ((Char → Bool) × List Char) := do
  let (parts, behind) ← match cs with
    | '^' :: rest => classParts? cs.length true .negated .included '^' rest
    | rest => classParts? (cs.length + 1) false .included .included '[' rest
  return (fun c => isInParts false c parts, behind)

/-! ### Patterns -/

/-- The number that a text begins with. -/
def leadingNumber? (cs : List Char) : Option (Nat × List Char) :=
  ((String.ofList (cs.takeWhile Char.isDigit)).toNat?).map fun n => (n, cs.dropWhile Char.isDigit)

/-- A pattern with the number of repetitions that a text begins with, and what stands behind it. -/
def repeated? (p : Pattern) : List Char → Option (Pattern × List Char)
  | '*' :: rest => some (many p, rest)
  | '+' :: rest => some (atLeastOne p, rest)
  | '?' :: rest => some (optional p, rest)
  | '\x7b' :: rest => do
    let (least, rest) ← leadingNumber? rest
    match rest with
    | '\x7d' :: rest => return (p.times least, rest)
    | ',' :: '\x7d' :: rest => return (followed (p.times least) (many p), rest)
    | ',' :: rest =>
      let (most, rest) ← leadingNumber? rest
      match rest with
      | '\x7d' :: rest => return (p.between least (if most = 0 then least else most), rest)
      | _ => none
    | _ => none
  | rest => some (p, rest)

mutual

/-- The branches that a text begins with. Nothing in them is nested deeper than `depth`. -/
def branches? : (depth : Nat) → List Char → Option (Pattern × List Char)
  | 0, _ => none
  | depth + 1, cs => do
    let (first, rest) ← pieces? depth cs
    match rest with
    | '|' :: rest =>
      let (second, rest) ← branches? depth rest
      return (either first second, rest)
    | rest => return (first, rest)

/-- The pieces of a branch that a text begins with. -/
def pieces? : (depth : Nat) → List Char → Option (Pattern × List Char)
  | 0, _ => none
  | depth + 1, cs => do
    match cs with
    | [] => return (empty, [])
    | '|' :: _ => return (empty, cs)
    | ')' :: _ => return (empty, cs)
    | cs =>
      let (atom, rest) ← atom? depth cs
      let (piece, rest) ← repeated? atom rest
      let (more, rest) ← pieces? depth rest
      return (followed piece more, rest)

/-- The smallest pattern that a text begins with. -/
def atom? : (depth : Nat) → List Char → Option (Pattern × List Char)
  | 0, _ => none
  | depth + 1, cs => do
    match cs with
    | '(' :: rest =>
      match ← branches? depth rest with
      | (inner, ')' :: rest) => return (inner, rest)
      | _ => none
    | '[' :: rest =>
      let (isIn, rest) ← bracketClass? rest
      return (one isIn, rest)
    | '.' :: rest => return (one fun c => c != '\n' && c != '\r', rest)
    | '\\' :: rest =>
      let (isIn, isExcluded, rest) ← escape? rest
      return (one fun c => isIn c != isExcluded, rest)
    | c :: rest => if "*+?]".toList.contains c then none else return (one (· == c), rest)
    | [] => none

end

/-- **Reading a pattern**, if it is written correctly. -/
def ofText? (text : String) : Option Pattern :=
  let cs := text.toList
  match branches? (3 * cs.length + 3) cs with
  | some (p, []) => some p
  | _ => none

end Pattern

end SchemaAssembly.Text
