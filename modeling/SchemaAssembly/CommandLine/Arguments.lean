import SchemaAssembly.CommandLine.Options
import SchemaAssembly.Text.Digit
import SchemaAssembly.Text.Lines

/-!
# Reading arguments

The arguments of a command line are first told apart: those that start with a dash are options,
unless they look like negative numbers or hold a space, and behind two dashes everything is a file.
A long option may be shortened as long as only one begins with it; short options may be written
together and with their argument. Then options take the arguments that follow them, and the first
files that come in a row are the files under test.

- `Options.ofArguments` reads a command line.
-/

namespace SchemaAssembly

/-- An argument that names an option. -/
structure OptionWord where
  /-- the argument as it is written -/
  written : String
  /-- the option, if there is one, and whether it is spelled with one dash -/
  option : Option (CommandOption × Bool)
  /-- what follows it in the same argument -/
  attached : Option (List Char)
  deriving DecidableEq, Repr

/-- An argument, told apart from the others. -/
inductive Word where
  /-- a file, or an argument of an option -/
  | operand (text : String)
  /-- the two dashes behind which there are no options -/
  | separator
  /-- an option -/
  | option (word : OptionWord)
  deriving DecidableEq, Repr

namespace Word

/-- The argument as it is written. -/
def written : Word → String
  | operand text => text
  | separator => "--"
  | option word => word.written

/-- Whether the word is an option. -/
def isOption : Word → Bool
  | option _ => true
  | _ => false

/-- The text of an operand. -/
def operand? : Word → Option String
  | operand text => some text
  | _ => none

/-- What comes before an equals sign and what comes after it, if there is one. -/
def splitEquals (cs : List Char) : List Char × Option (List Char) :=
  match cs.dropWhile (· != '=') with
  | [] => (cs, none)
  | _ :: value => (cs.takeWhile (· != '='), some value)

/-- Whether a text is a negative number, perhaps with a line feed behind it. -/
def looksNegative (cs : List Char) : Bool :=
  match Text.withoutLineFeed cs with
  | '-' :: digits =>
    let whole := digits.takeWhile Text.isDecimal
    match digits.drop whole.length with
    | [] => !whole.isEmpty
    | '.' :: fraction => !fraction.isEmpty && fraction.all Text.isDecimal
    | _ => false
  | _ => false

/-- Whether a spelling has one dash only. -/
def isShort (spelling : String) : Bool :=
  (spelling.toList.drop 1).head? != some '-'

/-- The readings of an argument that is no spelling of an option: as the beginning of a long one, or
as a short one with something attached. -/
def candidates (cs : List Char) : List (String × CommandOption × Option (List Char)) :=
  match cs with
  | '-' :: '-' :: _ =>
    let (name, attached) := splitEquals cs
    (CommandOption.table.filter fun (spelling, _) => name.isPrefixOf spelling.toList).map
      fun (spelling, o) => (spelling, o, attached)
  | '-' :: c :: rest =>
    (CommandOption.table.filter fun (spelling, _) => spelling.toList = ['-', c]).map
      fun (spelling, o) => (spelling, o, some rest)
  | _ => []

/-- The word of an argument that starts with a dash and is no spelling of an option. -/
def ofDashed (text : String) : Except UsageError Word :=
  let cs := text.toList
  let (name, attached) := splitEquals cs
  match attached, CommandOption.ofSpelling? (String.ofList name) with
  | some attached, some o =>
    .ok (.option ⟨text, some (o, isShort (String.ofList name)), some attached⟩)
  | _, _ =>
    match candidates cs with
    | [(spelling, o, attached)] => .ok (.option ⟨text, some (o, isShort spelling), attached⟩)
    | [] =>
      if looksNegative cs || cs.contains ' ' then .ok (.operand text)
      else .ok (.option ⟨text, none, none⟩)
    | several => .error (.ambiguous text (several.map (·.1)))

/-- The word of an argument before any separator. -/
def ofArgument (text : String) : Except UsageError Word :=
  if text.toList.head? != some '-' || text = "-" then .ok (.operand text)
  else match CommandOption.ofSpelling? text with
    | some o => .ok (.option ⟨text, some (o, isShort text), none⟩)
    | none => ofDashed text

/-- **The words** of a command line. -/
def ofArguments : List String → Except UsageError (List Word)
  | [] => .ok []
  | "--" :: rest => .ok (.separator :: rest.map .operand)
  | text :: rest => do return (← ofArgument text) :: (← ofArguments rest)

end Word

/-! ### What options take -/

/-- The options of one word with their arguments, how many of the operands behind the word they
take, and what is left over. -/
structure Taken where
  /-- the options, in order -/
  options : List (CommandOption × List String)
  /-- how many operands are taken -/
  operands : Nat := 0
  /-- what is left over of the word -/
  leftOver : List String := []
  deriving DecidableEq, Repr

namespace Taken

/-- One more option before the others. -/
def cons (o : CommandOption) (t : Taken) : Taken :=
  { t with options := (o, []) :: t.options }

/-- What an option without anything attached takes of the operands behind it. -/
def ofOperands (o : CommandOption) (operands : List String) : Except UsageError Taken :=
  match o.arity, operands with
  | .none, _ => .ok { options := [(o, [])] }
  | .one, argument :: _ => .ok { options := [(o, [argument])], operands := 1 }
  | .one, [] => .error (.expectedOne o)
  | .many, argument :: rest =>
    .ok { options := [(o, argument :: rest)], operands := rest.length + 1 }
  | .many, [] => .error (.expectedSome o)

/-- What an option with something attached takes. Behind a short option without arguments more of
them may follow, each one letter; what is attached to the last of them is its argument. -/
def ofAttached (o : CommandOption) (short : Bool) (operands : List String) :
    (attached : List Char) → Except UsageError Taken
  | [] =>
    if o.arity = .none then .error (.ignoredArgument o "") else .ok { options := [(o, [""])] }
  | c :: rest =>
    if o.arity ≠ .none then .ok { options := [(o, [String.ofList (c :: rest)])] }
    else
      match if short then CommandOption.ofSpelling? (String.ofList ['-', c]) else none with
      | none => .error (.ignoredArgument o (String.ofList (c :: rest)))
      | some next =>
        (if rest.isEmpty then ofOperands next operands
          else ofAttached next true operands rest).map (cons o)

/-- What a word takes. -/
def ofWord (word : OptionWord) (operands : List String) : Except UsageError Taken :=
  match word.option, word.attached with
  | none, _ => .ok { options := [], leftOver := [word.written] }
  | some (o, _), none => ofOperands o operands
  | some (o, short), some attached =>
    ofAttached o short operands attached

end Taken

/-! ### The whole line -/

/-- What has been read of a command line. -/
structure Reading where
  /-- what it says so far -/
  options : Options := {}
  /-- whether the files under test have been read -/
  filesRead : Bool := false
  /-- what is left over -/
  leftOver : List String := []
  deriving DecidableEq, Repr

namespace Reading

/-- A row of words that are no options: the files under test, if it is the first, and otherwise left
over. The first separator among files is dropped. -/
def addRow (s : Reading) (row : List Word) : Reading :=
  if s.filesRead then { s with leftOver := s.leftOver ++ row.map (·.written) }
  else
    { s with
      options := { s.options with files := (row.erase .separator).map (·.written) }
      filesRead := true }

/-- What a word's options have taken. -/
def addTaken (s : Reading) (taken : Taken) : Except Refusal Reading := do
  let options ← taken.options.foldlM (fun options (o, arguments) => options.apply o arguments)
    s.options
  return { s with options, leftOver := s.leftOver ++ taken.leftOver }

/-- Reads words. -/
def readWords (s : Reading) : List Word → Except Refusal Reading
  | [] => .ok s
  | .option word :: rest =>
    let operands := (rest.takeWhile (·.operand?.isSome)).filterMap (·.operand?)
    match Taken.ofWord word operands with
    | .error e => .error (.usage e)
    | .ok taken =>
      match s.addTaken taken with
      | .error refusal => .error refusal
      | .ok s => s.readWords (rest.drop taken.operands)
  | w :: rest =>
    (s.addRow (w :: rest.takeWhile (!·.isOption))).readWords (rest.dropWhile (!·.isOption))
termination_by words => words.length
decreasing_by
  · rw [List.length_cons, List.length_drop]
    omega
  · have h := (List.dropWhile_sublist (fun w : Word => !w.isOption) (l := rest)).length_le
    rw [List.length_cons]
    omega

end Reading

/-- **Reading a command line.** -/
def Options.ofArguments (arguments : List String) : Except Refusal Options :=
  match Word.ofArguments arguments with
  | .error e => .error (.usage e)
  | .ok words =>
    match Reading.readWords {} words with
    | .error refusal => .error refusal
    | .ok reading =>
      if reading.leftOver.isEmpty then .ok reading.options
      else .error (.usage (.unrecognized reading.leftOver))

end SchemaAssembly
