import SchemaAssembly.Distinct
import SchemaAssembly.Path
import SchemaAssembly.Yang.Argument
import SchemaAssembly.Yang.Reference

/-!
# Problems

What can be wrong with YANG modules, and where. A problem that is found again at the same place, in
the same reading of a document, is the same problem.

- `Problem.messages` are the messages of some problems.
-/

namespace SchemaAssembly.Yang

/-- A line of a document, as some reading of the document knows it. A statement that stands where a
grouping is used is on the line of the grouping, and is shown with the place of its use. -/
structure Position where
  /-- the document -/
  path : Path
  /-- the line -/
  line : Nat
  /-- which reading of a document it is, once a statement has begun -/
  reading : Option Nat
  /-- where the grouping is used -/
  usedAt : Option (Path × Nat) := none
  deriving DecidableEq, Repr

/-- A line of a document in words. -/
def lineText (path : Path) (line : Nat) : String :=
  path.text ++ ":" ++ toString line

namespace Position

/-- The position as a message names it. -/
def text (p : Position) : String :=
  match p.usedAt with
  | none => lineText p.path p.line
  | some (path, line) => lineText path line ++ " (at " ++ lineText p.path p.line ++ ")"

/-- The same line where a grouping is used at another one. -/
def usedFrom (p uses : Position) : Position :=
  { p with usedAt := some (uses.path, uses.line) }

end Position

/-- A text between double quotes. -/
def inQuotes (text : String) : String :=
  "\"" ++ text ++ "\""

/-! ### Families of defects -/

/-- What is wrong with the statements in a body. -/
inductive GrammarDefect where
  /-- a statement stands where it may not -/
  | unexpected (keyword : String)
  /-- a statement stands where another one is still missing -/
  | unexpectedBefore (keyword expected : String)
  /-- no statement has the keyword -/
  | unknownKeyword (keyword : String)
  /-- a document is not a module -/
  | noModule (keyword : String)
  /-- a statement is missing -/
  | missing (keyword parent : String)
  /-- no node is defined where one must be -/
  | missingNode (parent : String)
  /-- an argument is missing -/
  | noArgument (keyword : String)
  /-- an argument is given to a statement that takes none -/
  | needlessArgument (argument : String)
  /-- an argument is not of its kind -/
  | badArgument (argument : String) (kind : String)
  /-- a name is kept for other uses -/
  | reservedName (name : String)

/-- The defect in words. -/
def GrammarDefect.text : GrammarDefect → String
  | unexpected keyword => "unexpected keyword " ++ inQuotes keyword
  | unexpectedBefore keyword expected =>
    "unexpected keyword " ++ inQuotes keyword ++ ", expected " ++ inQuotes expected
  | unknownKeyword keyword => "unknown keyword " ++ inQuotes keyword
  | noModule keyword =>
    "unexpected keyword " ++ inQuotes keyword ++ ", expected one of ['module', 'submodule']"
  | missing keyword parent =>
    "expected keyword " ++ inQuotes keyword ++ " as child to " ++ inQuotes parent
  | missingNode parent =>
    "expected a data definition statement as child to " ++ inQuotes parent
  | noArgument keyword => "expected an argument for keyword " ++ inQuotes keyword
  | needlessArgument argument => "did not expect an argument, got " ++ inQuotes argument
  | badArgument argument kind =>
    "bad value " ++ inQuotes argument ++ " (should be " ++ kind ++ ")"
  | reservedName name =>
    "illegal identifier " ++ inQuotes name ++ ", must not start with [xX][mM][lL]"

/-- What is wrong with how modules refer to each other. -/
inductive ModuleDefect where
  /-- no document declares a module of the name -/
  | notFound (name : String)
  /-- no document declares that revision of a module -/
  | noRevision (name revision : String)
  /-- a module needs itself -/
  | circular (name : String)
  /-- a document declares another module than it is looked up for -/
  | otherName (name : String) (document : Path) (expected : String)
  /-- something else than a module is imported -/
  | notImportable (keyword name : String)
  /-- an older module imports a revision of a newer one -/
  | newerImport (importer imported : String)
  /-- something else than a submodule is included -/
  | notIncludable (keyword name : String)
  /-- a submodule and the module that includes it have different versions of the language -/
  | otherVersion (included including : String)
  /-- a submodule does not belong to what includes it -/
  | otherOwner (including submodule : String)
  /-- a module does not include what its submodule includes -/
  | missingInclude (included submodule name : String)
  /-- a short name already stands for another module -/
  | qualifierTaken (qualifier holder : String)
  /-- a module does not know the short name -/
  | unknownQualifier (qualifier : String)
  /-- modules have one namespace -/
  | sameNamespace (uri : String) (names : List String)

/-- The defect in words. -/
def ModuleDefect.text : ModuleDefect → String
  | notFound name => "module " ++ inQuotes name ++ " not found in search path"
  | noRevision name revision =>
    "module " ++ inQuotes name ++ " revision " ++ inQuotes revision ++ " not found in search path"
  | circular name => "circular dependency for module " ++ inQuotes name
  | otherName name document expected =>
    "unexpected modulename " ++ inQuotes name ++ " in " ++ document.text ++ ", should be " ++
      expected
  | notImportable keyword name =>
    "cannot import " ++ keyword ++ " " ++ inQuotes name ++ ", must be a module"
  | newerImport importer imported =>
    "a version " ++ importer ++ " module cannot import a version " ++ imported ++
      " module by revision"
  | notIncludable keyword name =>
    "cannot include " ++ keyword ++ " " ++ inQuotes name ++ ", must be a submodule"
  | otherVersion included including =>
    "cannot include a version " ++ included ++ " submodule in a version " ++ including ++ " module"
  | otherOwner including submodule =>
    "module " ++ including ++ " includes " ++ submodule ++ ", but " ++ submodule ++
      " does not specify a correct belongs-to"
  | missingInclude included submodule name =>
    "submodule " ++ included ++ " is included by " ++ submodule ++ ", but not by the module " ++
      name
  | qualifierTaken qualifier holder =>
    "prefix " ++ inQuotes qualifier ++ " already used for module " ++ holder
  | unknownQualifier qualifier =>
    "prefix " ++ inQuotes qualifier ++ " is not defined (reported only once)"
  | sameNamespace uri names =>
    "duplicate namespace uri " ++ inQuotes uri ++ " found in modules " ++
      inQuotes (" ".intercalate names)

/-- What is wrong with definitions and with references to them. -/
inductive DefinitionDefect where
  /-- a module does not define what is referred to -/
  | undefined (kind : DefinitionKind) (name inModule : String)
  /-- a module does not define an extension -/
  | undefinedExtension (name inModule : String)
  /-- a name has a definition already -/
  | alreadyDefined (kind : DefinitionKind) (name : String) (first : Position)
  /-- a definition needs itself -/
  | circular (kind : String) (name : String)
  /-- a built-in type cannot be defined -/
  | reservedType (name : String)
  /-- an extension takes no argument -/
  | needlessArgument (extension : String)
  /-- an extension takes an argument -/
  | noArgument (extension : String)

/-- The defect in words. -/
def DefinitionDefect.text : DefinitionDefect → String
  | undefined kind name inModule =>
    kind.text ++ " " ++ inQuotes name ++ " not found in module " ++ inQuotes inModule
  | undefinedExtension name inModule =>
    "extension " ++ inQuotes name ++ " is not defined in module " ++ inModule
  | alreadyDefined kind name first =>
    kind.text ++ " name " ++ inQuotes name ++ " is already defined at " ++ first.text
  | circular kind name => "circular dependency for " ++ kind ++ " " ++ inQuotes name
  | reservedType name => "illegal type name " ++ inQuotes name
  | needlessArgument extension => "unexpected argument for extension " ++ inQuotes extension
  | noArgument extension => "expected argument for extension " ++ inQuotes extension

/-- What is wrong with types and values. -/
inductive TypeDefect where
  /-- a type cannot be restricted in this way -/
  | badRestriction (restriction : String)
  /-- a type needs a statement -/
  | missing (type keyword : String)
  /-- a type needs at least one statement -/
  | missingAny (type keyword : String)
  /-- a bound of a range is not larger than the one before -/
  | rangeBounds (high low : String)
  /-- a bound of a length is not larger than the one before -/
  | lengthBounds (high low : String)
  /-- a value is none of its type; the type is named by the place of its restriction -/
  | badValue (value definition reason : String)
  /-- a type has no values that could be a default -/
  | noDefault (type : String)
  /-- two values of an enumeration have one name -/
  | sameEnumName (name : String) (first : Position)
  /-- two values of an enumeration have one number -/
  | sameEnumValue (value : Int) (first : Position)
  /-- the number of a value is out of bounds -/
  | badEnumValue (value : String)
  /-- two bits have one name -/
  | sameBitName (name : String) (first : Position)
  /-- two bits have one position -/
  | sameBitPosition (position : Int) (first : Position)
  /-- the position of a bit is out of bounds -/
  | badBitPosition (position : String)
  /-- a type cannot be in a union -/
  | badMember (type : String) (position : Position)
  /-- a pattern cannot be read -/
  | badPattern (pattern : String)
  /-- the number of a value differs from that in the base type -/
  | otherEnumValue (value : String) (inBase : Int)
  /-- the position of a bit differs from that in the base type -/
  | otherBitPosition (position : String) (inBase : Int)
  /-- a default value is there on a condition only -/
  | conditionalDefault
  /-- a default value is given to what must be there -/
  | defaultAndMandatory
  /-- default values are given to what must have entries -/
  | defaultAndEntries
  /-- a default value is given twice -/
  | sameDefault (value : String)

/-- The defect in words. -/
def TypeDefect.text : TypeDefect → String
  | badRestriction restriction =>
    "restriction " ++ inQuotes restriction ++ " not allowed for this base type"
  | missing type keyword =>
    "a type " ++ inQuotes type ++ " must have a " ++ inQuotes keyword ++ " statement"
  | missingAny type keyword =>
    "a type " ++ inQuotes type ++ " must have at least one " ++ inQuotes keyword ++ " statement"
  | rangeBounds high low =>
    "range error: " ++ inQuotes high ++ " is not larger than " ++ inQuotes low
  | lengthBounds high low =>
    "length error: " ++ inQuotes high ++ " is not larger than " ++ inQuotes low
  | badValue value definition reason =>
    "the value " ++ inQuotes value ++ " does not match its base type " ++ definition ++ "- " ++
      reason
  | noDefault type => "the type " ++ inQuotes type ++ " cannot have a default value"
  | sameEnumName name first =>
    "the enum name " ++ inQuotes name ++ " has already been used for the enumeration at " ++
      first.text
  | sameEnumValue value first =>
    "the integer value " ++ inQuotes (toString value) ++
      " has already been used for the enumeration at " ++ first.text
  | badEnumValue value => "the enumeration value " ++ inQuotes value ++ " is not an 32 bit integer"
  | sameBitName name first =>
    "the bit name " ++ inQuotes name ++ " has already been used for the bit at " ++ first.text
  | sameBitPosition position first =>
    "the position " ++ inQuotes (toString position) ++ " has already been used for the bit at " ++
      first.text
  | badBitPosition position => "the position value " ++ inQuotes position ++ " is not valid"
  | badMember type position =>
    "the type " ++ inQuotes type ++ " (defined at " ++ position.text ++
      ") cannot be part of a union"
  | badPattern pattern =>
    "syntax error in pattern: The value '" ++ pattern ++
      "' of the facet 'pattern' is not a valid regular expression."
  | otherEnumValue value inBase =>
    "the given value " ++ inQuotes value ++ " does not match the base enum value " ++
      inQuotes (toString inBase)
  | otherBitPosition position inBase =>
    "the given position " ++ inQuotes position ++ " does not match the base bit position " ++
      inQuotes (toString inBase)
  | conditionalDefault =>
    "a 'default' value cannot be given in leaf node when 'if-feature' is existing"
  | defaultAndMandatory =>
    "a 'default' value cannot be given when 'mandatory' is \"true\""
  | defaultAndEntries =>
    "a 'default' value cannot be given when 'min-elements' is greater than 0"
  | sameDefault value =>
    "the default value " ++ inQuotes value ++ " is given twice in the leaf list"

/-- What is wrong with the nodes of a tree. -/
inductive NodeDefect where
  /-- a path leads nowhere -/
  | notFound (inModule name : String)
  /-- a node takes no children -/
  | notAugmentable (inModule name keyword : String)
  /-- another module cannot be given a node that must be there -/
  | mandatoryAugment (name : String)
  /-- two nodes have the same name and the same parent -/
  | sameName (parent : String) (parentPosition : Position) (name : String) (first : Position)
  /-- a node is refined already -/
  | refinedTwice (name : String) (first : Position)
  /-- a node cannot be refined in this way -/
  | badRefinement (node inModule name keyword : String)
  /-- what cannot be changed cannot have what can -/
  | configBelowState
  /-- a property is there already -/
  | propertyExists (keyword inModule name : String)
  /-- a property is not there -/
  | noProperty (keyword inModule name : String)
  /-- a node cannot have a property -/
  | badProperty (keyword : String)
  /-- something else is said of a node that is left out -/
  | otherDeviate
  /-- an operation or notification is in a list without a key -/
  | inListWithoutKey (keyword : String)
  /-- an operation or notification is in another one -/
  | inOperation (keyword outer : String)
  /-- a key cannot be left out -/
  | keyNotSupported (inModule name : String)

/-- The defect in words. -/
def NodeDefect.text : NodeDefect → String
  | notFound inModule name => "node " ++ inModule ++ "::" ++ name ++ " is not found"
  | notAugmentable inModule name keyword =>
    "node " ++ inModule ++ "::" ++ name ++ " of type " ++ keyword ++ " cannot be augmented"
  | mandatoryAugment name => "cannot augment with mandatory node " ++ inQuotes name
  | sameName parent parentPosition name first =>
    "there is already a child node to " ++ inQuotes parent ++ " at " ++ parentPosition.text ++
      " with the name " ++ inQuotes name ++ " defined at " ++ first.text
  | refinedTwice name first =>
    "the node " ++ inQuotes name ++ " is already refined at " ++ first.text
  | badRefinement node inModule name keyword =>
    inQuotes node ++ " node " ++ inQuotes (inModule ++ "::" ++ name) ++
      " cannot be refined with " ++ inQuotes keyword
  | configBelowState => "config true cannot be set when the parent is config false"
  | propertyExists keyword inModule name =>
    "the " ++ keyword ++ " property already exists in node " ++
      inQuotes (inModule ++ "::" ++ name)
  | noProperty keyword inModule name =>
    "the " ++ keyword ++ " property does not exist in node " ++
      inQuotes (inModule ++ "::" ++ name)
  | badProperty keyword => "the " ++ keyword ++ " property cannot be added"
  | otherDeviate => "cannot have other deviate statement together with \"not-supported\""
  | inListWithoutKey keyword =>
    inQuotes keyword ++ " node cannot have an ancestor list node without a key"
  | inOperation keyword outer =>
    inQuotes keyword ++ " node cannot have an ancestor " ++ inQuotes outer ++ " node"
  | keyNotSupported inModule name =>
    "key node " ++ inQuotes (inModule ++ "::" ++ name) ++
      " cannot be deviated with \"not-supported\""

/-- What is wrong with references from one node to another. -/
inductive ReferenceDefect where
  /-- a list that can be changed has no key -/
  | noKey
  /-- a list that can be changed where its grouping is used has no key -/
  | noKeyWhereUsed (list : Position)
  /-- a key is no leaf of its list -/
  | badKey (name : String)
  /-- a key is listed twice -/
  | sameKey (name : String)
  /-- a key has a statement that keys cannot have -/
  | badKeyStatement (keyword : String)
  /-- a key can be changed and its list cannot, or the other way round -/
  | badKeyConfig (name : String)
  /-- a key has a type that keys cannot have -/
  | badKeyType (type leaf : String)
  /-- a step of a unique path leads nowhere -/
  | badUniquePart (step : String)
  /-- a unique path goes through a list -/
  | uniqueThroughList (step : String)
  /-- a unique path leads to no leaf -/
  | badUnique (path : String)
  /-- a unique path is listed twice -/
  | sameUnique (path : String)
  /-- of the leaves of a unique statement some can be changed and some cannot -/
  | badUniqueConfig (path : String)
  /-- no case has the name -/
  | noDefaultCase (name : String)
  /-- a node that must be there is in the default case -/
  | mandatoryInDefaultCase
  /-- a path goes up too far -/
  | tooFarUp (leaf : String) (position : Position)
  /-- a step of a path leads nowhere -/
  | noStep (inModule name leaf : String) (position : Position)
  /-- a step of a path leaves a node without children -/
  | badStep (inModule name leaf : String) (position : Position) (keyword : String)
  /-- a path leads to no leaf -/
  | notLeaf (leaf : String) (position : Position)
  /-- what can be changed points to what cannot -/
  | badConfig (leaf target : String) (position : Position)
  /-- a leaf points to itself -/
  | circularPath (path : String)
  /-- a path goes on from a leaf that does not point to another one -/
  | noPointer (leaf : String) (position : Position)
  /-- a path goes on from a leaf that does not point to a key -/
  | noKeyPointer (leaf : String) (position : Position) (target : String)
    (targetPosition : Position)
  /-- a condition in a path is on no list -/
  | badCondition (inModule name leaf : String) (position : Position)
  /-- a condition in a path is about no key -/
  | noKeyLeaf (inModule name leaf : String) (position : Position)
  /-- two conditions on a list are about one key -/
  | sameKeyLeaf (inModule name leaf : String) (position : Position)
  /-- a condition in a path compares a key with no leaf -/
  | badComparison (inModule name node : String) (position : Position)
  /-- an expression cannot be read -/
  | badExpression
  /-- a path in an expression goes up too far -/
  | expressionTooFarUp
  /-- a function has not so many arguments -/
  | argumentCount (function expected : String) (given : Nat)
  /-- a path goes on from a function that does not lead to nodes -/
  | noNodes (function : String)
  /-- a function is not known -/
  | unknownFunction (name : String)
  /-- a variable is not known -/
  | unknownVariable (name : String)

/-- The defect in words. -/
def ReferenceDefect.text : ReferenceDefect → String
  | noKey => "the list needs at least one key"
  | noKeyWhereUsed list =>
    "the list at " ++ inQuotes list.text ++ " needs at least one key because it is used as config"
  | badKey name => "the key " ++ inQuotes name ++ " does not reference an existing leaf"
  | sameKey name => "the key " ++ inQuotes name ++ " must not be listed more than once"
  | badKeyStatement keyword =>
    "the statement " ++ inQuotes keyword ++ " cannot be given for a key"
  | badKeyConfig name =>
    "the key " ++ inQuotes name ++ " does not have same \"config\" as its list"
  | badKeyType type leaf =>
    "the type " ++ inQuotes type ++ " cannot be part of a key, used by leaf " ++ inQuotes leaf
  | badUniquePart step =>
    "the identifier " ++ inQuotes step ++
      " in the unique argument does not reference an existing container"
  | uniqueThroughList step =>
    "the identifier " ++ inQuotes step ++
      " in the unique argument references a list; this is not legal"
  | badUnique path =>
    "the unique argument " ++ inQuotes path ++ " does not reference an existing leaf"
  | sameUnique path =>
    "the leaf " ++ inQuotes path ++ " occurs more than once in the unique expression"
  | badUniqueConfig path =>
    "the identifer " ++ inQuotes path ++
      " has not the same config property as the other nodes in the unique expression"
  | noDefaultCase name => "the default case " ++ inQuotes name ++ " is not found\""
  | mandatoryInDefaultCase => "mandatory node in default case"
  | tooFarUp leaf position =>
    "the path for " ++ leaf ++ " at " ++ position.text ++ " has too many \"..\""
  | noStep inModule name leaf position =>
    inModule ++ ":" ++ name ++ " in the path for " ++ leaf ++ " at " ++ position.text ++
      " is not found"
  | badStep inModule name leaf position keyword =>
    inModule ++ ":" ++ name ++ " in the path for " ++ leaf ++ " at " ++ position.text ++
      " references a " ++ keyword ++ " node"
  | notLeaf leaf position =>
    "the path for " ++ leaf ++ " at " ++ position.text ++ " does not refer to a leaf"
  | badConfig leaf target position =>
    "the path for " ++ leaf ++ " is config but refers to a non-config leaf " ++ target ++
      " defined at " ++ position.text
  | circularPath path => "circular dependency for leafref " ++ inQuotes path
  | noPointer leaf position =>
    "the deref argument refers to node " ++ leaf ++ " at " ++ position.text ++
      " which is not a leafref leaf"
  | noKeyPointer leaf position target targetPosition =>
    "the deref argument refers to node " ++ leaf ++ " at " ++ position.text ++
      " which does not refer to a key (" ++ target ++ " at " ++ targetPosition.text ++ ")"
  | badCondition inModule name leaf position =>
    inModule ++ ":" ++ name ++ " in the path for " ++ leaf ++ " at " ++ position.text ++
      " has a predicate, but is not a list"
  | noKeyLeaf inModule name leaf position =>
    inModule ++ ":" ++ name ++ " in the path for " ++ leaf ++ " at " ++ position.text ++
      " is not the name of a key leaf"
  | sameKeyLeaf inModule name leaf position =>
    inModule ++ ":" ++ name ++ " in the path for " ++ leaf ++ " at " ++ position.text ++
      " is referenced more than once"
  | badComparison inModule name node position =>
    inModule ++ ":" ++ name ++ " in the path's predicate for " ++ node ++ " at " ++
      position.text ++ " is compared with a node that is not a leaf"
  | badExpression => "XPath syntax error"
  | expressionTooFarUp => "the path has too many \"..\""
  | argumentCount function expected given =>
    "XPath function " ++ inQuotes function ++ " takes " ++ expected ++
      " arguments but called with " ++ toString given ++ "."
  | noNodes function => "XPath function " ++ inQuotes function ++ " does not return a node-set"
  | unknownFunction name =>
    "XPath function " ++ inQuotes name ++ " is not defined in the XPath context"
  | unknownVariable name =>
    "XPath variable " ++ inQuotes name ++ " is not defined in the XPath context"

/-! ### Problems -/

/-- What is wrong. -/
inductive Defect where
  /-- the text has not the form of a statement -/
  | form (fault : FormFault)
  /-- a statement does not fit where it stands -/
  | grammar (defect : GrammarDefect)
  /-- modules do not fit together -/
  | linking (defect : ModuleDefect)
  /-- a definition, or a reference to one -/
  | definition (defect : DefinitionDefect)
  /-- a type or a value -/
  | typing (defect : TypeDefect)
  /-- the tree of nodes -/
  | node (defect : NodeDefect)
  /-- a reference to a node -/
  | reference (defect : ReferenceDefect)

/-- The defect in words. -/
def Defect.text : Defect → String
  | form fault => fault.text
  | grammar defect => defect.text
  | linking defect => defect.text
  | definition defect => defect.text
  | typing defect => defect.text
  | node defect => defect.text
  | reference defect => defect.text

/-- A defect and where it is. -/
structure Problem where
  /-- where it is -/
  position : Position
  /-- what is wrong -/
  defect : Defect

namespace Problem

/-- The message of a problem. -/
def message (p : Problem) : String :=
  p.position.text ++ ": " ++ p.defect.text

/-- What makes two problems the same one. Where a grouping is used does not matter. -/
def identity (p : Problem) : Position × String :=
  ({ p.position with usedAt := none }, p.defect.text)

/-- **The messages** of some problems, in order and each problem once. -/
def messages (problems : List Problem) : List String :=
  (distinctOn identity problems).map message

end Problem

end SchemaAssembly.Yang
