import SchemaAssembly.Yaml.Scalar
import SchemaAssembly.Yaml.Tree

/-!
# From nodes to values

A node stands for a value of its kind. In a mapping a key that comes again takes the later value,
and mappings that are merged in give way to its own keys. Values are made level by level, a
collection before what is in it; so of several faults the one on the uppermost level counts, and on
one level the first.

- `load` is the value of a text.
-/

namespace SchemaAssembly.Yaml

/-- Why a text has no value. -/
inductive LoadFault where
  /-- it is no YAML, or holds what is not supported -/
  | notYaml
  /-- a scalar is not what its tag or its spelling says -/
  | scalar (fault : ScalarFault)
  deriving DecidableEq, Repr

/-- What is made of a node: a value that counts only if there is no fault, and the level of the
fault. -/
structure Made (α : Type) where
  /-- the value -/
  value : α
  /-- the fault and its level -/
  fault : Option (Nat × LoadFault) := none

namespace Made

/-- What is made if nothing else goes wrong. -/
def ofExcept {α : Type} [Inhabited α] (level : Nat) : Except LoadFault α → Made α
  | .ok value => ⟨value, none⟩
  | .error fault => ⟨default, some (level, fault)⟩

/-- Which of two faults counts. -/
def firstFault : Option (Nat × LoadFault) → Option (Nat × LoadFault) → Option (Nat × LoadFault)
  | some (m, first), some (n, second) => some (if n < m then (n, second) else (m, first))
  | some fault, none => some fault
  | none, fault => fault

/-- What is made of two nodes, one behind the other. -/
def and {α β γ : Type} (first : Made α) (second : Made β) (f : α → β → γ) : Made γ :=
  ⟨f first.value second.value, firstFault first.fault second.fault⟩

/-- The result with a fault before it, if there is one. -/
def behind {α : Type} (made : Made α) (fault : Option (Nat × LoadFault)) : Made α :=
  { made with fault := firstFault fault made.fault }

end Made

/-- What is made of an entry of a mapping. -/
abbrev MadeEntry := Made Value × Made Value

/-- A fault unless a key can be one. -/
def keyFault? (level : Nat) (key : Made Value) : Option (Nat × LoadFault) :=
  if key.value.isKey then none else some (level, .notYaml)

/-- Entries in order, each with its key before its value. -/
def entriesOf (level : Nat) : List MadeEntry → Made (List (Value × Value))
  | [] => ⟨[], none⟩
  | (key, value) :: rest =>
    let rest := entriesOf level rest
    let entry := (value.behind (keyFault? level key))
    key.and (entry.and rest fun value rest => (value, rest)) fun key (value, rest) =>
      (key, value) :: rest

/-- Entries with one more: a key that is there keeps its place and takes the new value. -/
def withEntry (entries : List (Value × Value)) (key value : Value) : List (Value × Value) :=
  if entries.any (key.sameKey ·.1) then
    entries.map fun e => if key.sameKey e.1 then (e.1, value) else e
  else entries ++ [(key, value)]

/-- Entries among which no key comes again. -/
def distinctEntries (entries : List (Value × Value)) : List (Value × Value) :=
  entries.foldl (fun entries (key, value) => withEntry entries key value) []

/-- The value of a text of some kind. -/
def scalarValue (kind : Kind) (text : String) : Except LoadFault Value :=
  match kind with
  | .null => .ok .null
  | .bool => ((Scalar.truth text).map .bool).mapError .scalar
  | .int => ((Scalar.integer text.toList).map .integer).mapError .scalar
  | .float => ((Scalar.decimal text.toList).map .decimal).mapError .scalar
  | .timestamp => ((Scalar.moment text.toList).map .moment).mapError .scalar
  | .str => .ok (.text text)
  | .binary =>
    match Text.base64Bytes? text.toList with
    | some bytes => .ok (.bytes bytes)
    | none => .error .notYaml
  | _ => .error .notYaml

/-- Whether nodes of a kind are made from other nodes. -/
def Kind.isCollection : Kind → Bool
  | seq | omap | pairs | set | map => true
  | _ => false

/-- What is not supported on a level. -/
def unsupported (level : Nat) : Made Value :=
  ⟨.null, some (level, .notYaml)⟩

mutual

/-- What is made of a node that is met on a level. What is in it is met on the next level. -/
def made (level : Nat) (tree : Tree) : Made Value :=
  match tree.kind? with
  | none => unsupported level
  | some kind =>
    if !kind.isCollection then
      .ofExcept level ((tree.scalarText?.elim (.error .notYaml) (scalarValue kind)))
    else
      match kind, tree with
      | .seq, .sequence _ items =>
        let items := madeItems (level + 1) items
        ⟨.list items.value, items.fault⟩
      | .omap, .sequence _ items | .pairs, .sequence _ items =>
        let items := madePairs (level + 1) items
        ⟨.list items.value, items.fault⟩
      | .set, .mapping _ entries =>
        let entries := madeMapping (level + 1) entries
        ⟨.set (entries.value.map (·.1)), entries.fault⟩
      | .map, .mapping _ entries =>
        let entries := madeMapping (level + 1) entries
        ⟨.map entries.value, entries.fault⟩
      | _, _ => unsupported (level + 1)

/-- What is made of the items of a sequence. -/
def madeItems (level : Nat) : List Tree → Made (List Value)
  | [] => ⟨[], none⟩
  | item :: rest => (made level item).and (madeItems level rest) (· :: ·)

/-- What is made of the items of an ordered mapping, each of which has one entry. -/
def madePairs (level : Nat) : List Tree → Made (List Value)
  | [] => ⟨[], none⟩
  | .mapping _ [(key, value)] :: rest =>
    let entry := (made level key).and (made level value) Value.pair
    entry.and (madePairs level rest) (· :: ·)
  | _ :: _ => ⟨[], some (level, .notYaml)⟩

/-- What is made of the entries of a mapping. -/
def madeMapping (level : Nat) (entries : List (Tree × Tree)) : Made (List (Value × Value)) :=
  match madeEntries level entries with
  | none => ⟨[], some (level, .notYaml)⟩
  | some (merged, own) =>
    let entries := entriesOf level (merged ++ own)
    ⟨distinctEntries entries.value, entries.fault⟩

/-- What is made of the entries that are merged in, and of the mapping's own entries; nothing if
something else than mappings is merged in. -/
def madeEntries (level : Nat) :
    List (Tree × Tree) → Option (List MadeEntry × List MadeEntry)
  | [] => some ([], [])
  | (key, value) :: rest =>
    if key.kind? = some .merge then do
      let here ← madeMerged level value
      let (merged, own) ← madeEntries level rest
      return (here ++ merged, own)
    else do
      let madeKey :=
        if key.kind? = some .value then
          .ofExcept level (key.scalarText?.elim (.error .notYaml) fun text => .ok (.text text))
        else made level key
      let (merged, own) ← madeEntries level rest
      return (merged, (madeKey, made level value) :: own)

/-- What is made of the entries of what is merged in: a mapping, or mappings of which earlier ones
give way to none. -/
def madeMerged (level : Nat) : Tree → Option (List MadeEntry)
  | .mapping _ entries => do
    let (merged, own) ← madeEntries level entries
    return merged ++ own
  | .sequence _ items => madeMergedItems level items
  | .scalar .. => none

/-- What is made of the entries of mappings that are merged in together. -/
def madeMergedItems (level : Nat) : List Tree → Option (List MadeEntry)
  | [] => some []
  | .mapping _ entries :: rest => do
    let (merged, own) ← madeEntries level entries
    return (← madeMergedItems level rest) ++ (merged ++ own)
  | _ :: _ => none

end

/-- **The value of a YAML text**, nothing if it holds no document. -/
def load (text : String) : Except LoadFault Value :=
  match Node.ofText? text with
  | none => .error .notYaml
  | some none => .ok .null
  | some (some node) =>
    match Tree.ofNode? node with
    | none => .error .notYaml
    | some tree =>
      match made 0 tree with
      | ⟨value, none⟩ => .ok value
      | ⟨_, some (_, fault)⟩ => .error fault

end SchemaAssembly.Yaml
