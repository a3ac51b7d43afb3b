import SchemaAssembly.Settings.Basic

/-!
# Checking settings

A value is checked against the settings it should stand for. All complaints are collected: those
about known settings in the order in which these are declared, then those about keys that are
unknown or no texts in the order of the value.

- `Settings.check` checks a value; relative paths are followed from the base directory, if there is
  one.
-/

namespace SchemaAssembly

/-- The result of a check: what was checked for, or all that is wrong. -/
abbrev Checked (α : Type) := Except (List Complaint) α

/-- Both results of two checks, or the complaints of both. -/
def Checked.both {α β : Type} : Checked α → Checked β → Checked (α × β)
  | .ok a, .ok b => .ok (a, b)
  | .ok _, .error complaints => .error complaints
  | .error complaints, .ok _ => .error complaints
  | .error first, .error second => .error (first ++ second)

namespace Settings

/-- The names of the settings. -/
def keys : List String :=
  ["lib_dirs", "test_files", "features", "recursive", "use_all_files", "strict_extensions",
    "require_tested_match"]

/-- The complaints about the items of a list, counted from `i`, that are no texts. -/
def complaintsAbout (key : String) (i : Nat) : List Value → List Complaint
  | [] => []
  | item :: rest =>
    match item.text? with
    | some _ => complaintsAbout key (i + 1) rest
    | none => ⟨[.key key, .index i], .notText⟩ :: complaintsAbout key (i + 1) rest

/-- The texts among the items of a list setting, if there is nothing else. -/
def checkItems (key : String) (items : List Value) : Checked (List String) :=
  match complaintsAbout key 0 items with
  | [] => .ok (items.filterMap Value.text?)
  | complaints => .error complaints

/-- The texts of a list setting. Nothing is the empty list, a text alone a list of one. -/
def checkTexts (key : String) : Option Value → Checked (List String)
  | none => .ok []
  | some .null => .ok []
  | some (.text value) => .ok [value]
  | some (.list items) => checkItems key items
  | some (.set items) => checkItems key items
  | some _ => .error [⟨[.key key], .notList⟩]

/-- A relative path as seen from the base directory; an absolute one stays as it is spelled. -/
def fromBase (base : Option Path) (path : String) : String :=
  match base with
  | none => path
  | some b =>
    let p := Path.ofText path
    if p.isAbsolute then path else (b.join p).text

/-- The paths of a list setting. -/
def checkPaths (base : Option Path) (key : String) (value : Option Value) :
    Checked (List String) :=
  (checkTexts key value).map fun paths => paths.map (fromBase base)

/-- The features of a list setting: only the first bad one is objected to. -/
def checkFeatures (key : String) (value : Option Value) : Checked (List String) :=
  match checkTexts key value with
  | .error complaints => .error complaints
  | .ok identifiers =>
    match FeatureSet.parse identifiers with
    | .ok _ => .ok identifiers
    | .error e => .error [⟨[.key key], .badFeature e⟩]

/-- A flag, off unless it is given. -/
def checkFlag (key : String) : Option Value → Checked Bool
  | none => .ok false
  | some (.bool value) => .ok value
  | some _ => .error [⟨[.key key], .notBool⟩]

/-- The place of a key that is not a text: a number stands for itself unless it is too large, and
what else a key may be is shown. -/
def placeOfKey (key : Value) : PlaceStep :=
  let number := match key with
    | .decimal _ => none
    | key => key.wholeNumber?
  match number with
  | some n => if -(Nat.pow 2 63 : Nat) ≤ n ∧ n < Nat.pow 2 63 then .index n else .key key.shownKey
  | none => .key key.shownKey

/-- What is wrong with a key, if anything is. -/
def complaintAboutKey? (key : Value) : Option Complaint :=
  match key.text? with
  | some name => if name ∈ keys then none else some ⟨[.key name], .unknownKey⟩
  | none => some ⟨[placeOfKey key], .notTextKey⟩

/-- What follows if all keys name settings. -/
def checkKeys (entries : List (Value × Value)) : Checked Unit :=
  match entries.filterMap fun (key, _) => complaintAboutKey? key with
  | [] => .ok ()
  | complaints => .error complaints

/-- The value of a key. -/
def lookup (entries : List (Value × Value)) (key : String) : Option Value :=
  (entries.find? (·.1.text? = some key)).map (·.2)

/-- Checks the entries of a map. -/
def checkEntries (base : Option Path) (entries : List (Value × Value)) : Checked Settings :=
  let flag := fun key => checkFlag key (lookup entries key)
  let checked :=
    (checkPaths base "lib_dirs" (lookup entries "lib_dirs")).both <|
    (checkPaths base "test_files" (lookup entries "test_files")).both <|
    (checkFeatures "features" (lookup entries "features")).both <|
    (flag "recursive").both <| (flag "use_all_files").both <| (flag "strict_extensions").both <|
    (flag "require_tested_match").both (checkKeys entries)
  checked.map fun (libraries, tests, features, recursive, useAllFiles, strictExtensions,
      requireTestedMatch, _) =>
    { libraries, tests, features, recursive, useAllFiles, strictExtensions, requireTestedMatch }

/-- **Checking** a value. -/
def check (base : Option Path) : Value → Checked Settings
  | .map entries => checkEntries base entries
  | _ => .error [⟨[], .notMap⟩]

end Settings

end SchemaAssembly
