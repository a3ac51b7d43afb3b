import SchemaAssembly.Text.Blank
import SchemaAssembly.Yang.Reader
import SchemaAssembly.Yang.Reference

/-!
# Feature expressions

The condition of an `if-feature` statement: features joined by `or` and by the tighter `and`,
negated by `not`, and grouped by parentheses.

- `FeatureExpression.ofText?` reads a condition.
- `FeatureExpression.holds` decides it. The right side of a connective is looked at first, and the
  left side only if it matters; a feature that is not looked at need not exist. -/

namespace SchemaAssembly.Yang

/-- A condition on features. -/
inductive FeatureExpression where
  /-- a feature is enabled -/
  | enabled (feature : Reference)
  /-- a condition does not hold -/
  | negation (inner : FeatureExpression)
  /-- two conditions hold -/
  | both (left right : FeatureExpression)
  /-- one of two conditions holds -/
  | either (left right : FeatureExpression)
  deriving DecidableEq, Repr

namespace FeatureExpression

/-- A part of a condition as it is written. -/
inductive Part where
  /-- an opening parenthesis -/
  | opening
  /-- a closing parenthesis -/
  | closing
  /-- a connective or a feature -/
  | word (text : List Char)
  deriving DecidableEq, Repr

/-- The parts of a text; `word` is what has been read of a word. -/
def partsAfter (word : List Char) : List Char → List Part
  | [] => ended word
  | c :: rest =>
    if Text.isBlank c then ended word ++ partsAfter [] rest
    else if c = '(' then ended word ++ .opening :: partsAfter [] rest
    else if c = ')' then ended word ++ .closing :: partsAfter [] rest
    else partsAfter (word ++ [c]) rest
where
  /-- A word that has come to its end, if there is one. -/
  ended (word : List Char) : List Part :=
    if word.isEmpty then [] else [.word word]

/-- Whether a text is an identifier. -/
def isIdentifier : List Char → Bool
  | [] => false
  | c :: rest => Read.beginsIdentifier c && rest.all Read.continuesIdentifier

/-- The feature that a word names. -/
def feature? (word : List Char) : Option Reference :=
  let r := Reference.ofText (String.ofList word)
  if isIdentifier r.name.toList && r.qualifier.all (isIdentifier ·.toList) then some r else none

mutual

/-- The condition that some parts begin with, and the parts behind it. Nothing in it is nested
deeper than `depth`. -/
def either? : (depth : Nat) → List Part → Option (FeatureExpression × List Part)
  | 0, _ => none
  | depth + 1, parts => do
    let (left, rest) ← both? depth parts
    match rest with
    | .word ['o', 'r'] :: rest =>
      let (right, rest) ← either? depth rest
      return (either left right, rest)
    | rest => return (left, rest)

/-- The condition without a loose `or`. -/
def both? : (depth : Nat) → List Part → Option (FeatureExpression × List Part)
  | 0, _ => none
  | depth + 1, parts => do
    let (left, rest) ← single? depth parts
    match rest with
    | .word ['a', 'n', 'd'] :: rest =>
      let (right, rest) ← both? depth rest
      return (both left right, rest)
    | rest => return (left, rest)

/-- The condition without a loose connective. -/
def single? : (depth : Nat) → List Part → Option (FeatureExpression × List Part)
  | 0, _ => none
  | depth + 1, parts =>
    match parts with
    | .word ['n', 'o', 't'] :: rest => do
      let (inner, rest) ← single? depth rest
      return (negation inner, rest)
    | .opening :: rest => do
      match ← either? depth rest with
      | (inner, .closing :: rest) => return (inner, rest)
      | _ => none
    | .word word :: rest => do return (enabled (← feature? word), rest)
    | _ => none

end

/-- **Reading a condition.** -/
def ofText? (text : String) : Option FeatureExpression :=
  let parts := partsAfter [] text.toList
  match either? (3 * parts.length + 3) parts with
  | some (e, []) => some e
  | _ => none

/-- Whether a condition is the name of a feature. -/
def isName : FeatureExpression → Bool
  | enabled _ => true
  | _ => false

/-- **Whether a condition holds**, given how to find out which features are enabled. -/
def holds {m : Type → Type} [Monad m] (isEnabled : Reference → m Bool) : FeatureExpression → m Bool
  | enabled feature => isEnabled feature
  | negation inner => do return !(← inner.holds isEnabled)
  | both left right => do if ← right.holds isEnabled then left.holds isEnabled else return false
  | either left right => do if ← right.holds isEnabled then return true else left.holds isEnabled

end FeatureExpression

end SchemaAssembly.Yang
