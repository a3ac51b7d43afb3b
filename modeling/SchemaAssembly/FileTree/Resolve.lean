import SchemaAssembly.FileTree.Basic
import SchemaAssembly.FileTree.Fault

/-!
# Following paths

Two ways of following a path through a tree with links.

- `FileTree.resolve` is what the system does when it opens a path: every directory on the way must
  exist, and it gives up after `maxLinks` links. For a path that is not usable the system is not even
  asked (`FileTree.resolveAs_eq_unusable_iff`).
- `FileTree.realPath` spells a path without links: names that do not exist are kept, and a link that
  leads back into itself stays where it is met.
-/

namespace SchemaAssembly

/-- How many links the system follows on the way of one path. -/
def maxLinks : Nat := 40

/-- The longest name, in bytes. -/
def maxNameBytes : Nat := 255

/-- The longest path, in bytes. -/
def maxPathBytes : Nat := 4095

namespace FileTree

/-- Where following a text starts, given where it is met: at the root if it begins with a slash. -/
def startOf (text : String) (loc : Location) : Location :=
  if text.toList.head? = some '/' then [] else loc

/-- Follows names from a location, with a number of links left to follow. If `creating` is set, the
last name need not exist. -/
def follow (t : FileTree) (creating : Bool) (links : Nat) (loc : Location)
    (names : List String) : Except Fault Location :=
  match names with
  | [] => .ok loc
  | name :: rest =>
    if t.node? loc ≠ some .directory then .error .notDirectory
    else if name = "" ∨ name = "." then t.follow creating links loc rest
    else if name = ".." then t.follow creating links loc.dropLast rest
    else if name.utf8ByteSize > maxNameBytes then .error .nameTooLong
    else match t.node? (loc ++ [name]) with
      | none => if creating ∧ rest = [] then .ok (loc ++ [name]) else .error .notFound
      | some (.link target) =>
        match links with
        | 0 => .error .tooManyLinks
        | links + 1 => t.follow creating links (startOf target loc) (slashFields target ++ rest)
      | some _ => t.follow creating links (loc ++ [name]) rest
termination_by (links, names.length)

/-- Where a path starts. -/
def start (t : FileTree) (p : Path) : Location :=
  if p.isAbsolute then [] else t.workingDirectory

/-- Follows a path, if it is one that the system can be asked for and not too long. -/
def resolveAs (t : FileTree) (creating : Bool) (p : Path) : Except Fault Location :=
  if p.isUsable then
    if p.text.utf8ByteSize > maxPathBytes then .error .nameTooLong
    else t.follow creating maxLinks (t.start p) p.names
  else .error .unusable

/-- **Resolving** a path to the location it leads to. -/
def resolve (t : FileTree) (p : Path) : Except Fault Location :=
  t.resolveAs false p

/-- The location that writing to a path writes to; its last name need not exist yet. -/
def resolveForWriting (t : FileTree) (p : Path) : Except Fault Location :=
  t.resolveAs true p

/-- Following names never ends with a path that the system cannot be asked for. -/
theorem follow_ne_unusable (t : FileTree) (creating : Bool) (links : Nat) (loc : Location)
    (names : List String) : t.follow creating links loc names ≠ .error .unusable := by
  fun_induction follow t creating links loc names with
  | case1 | case2 | case5 | case6 | case7 | case8 => simp
  | case3 _ _ _ _ _ _ ih | case4 _ _ _ _ _ ih | case9 _ _ _ _ _ _ _ _ _ _ ih
  | case10 _ _ _ _ _ _ _ _ _ _ _ ih => exact ih

section

variable {t : FileTree} {creating : Bool} {p : Path} {loc : Location}

/-- A path is resolved if the system can be asked for it, it is not too long, and its names can be
followed. -/
theorem resolveAs_eq_ok_iff :
    t.resolveAs creating p = .ok loc ↔ p.isUsable = true ∧ p.text.utf8ByteSize ≤ maxPathBytes ∧
      t.follow creating maxLinks (t.start p) p.names = .ok loc := by
  rw [resolveAs]
  by_cases husable : p.isUsable = true
  · by_cases hlong : p.text.utf8ByteSize > maxPathBytes
    · simp [husable, hlong, Nat.not_le.2 hlong]
    · simp [husable, hlong, Nat.not_lt.1 hlong]
  · simp [husable]

/-- **Paths that the system cannot be asked for** are the ones that are not usable. -/
theorem resolveAs_eq_unusable_iff :
    t.resolveAs creating p = .error .unusable ↔ p.isUsable = false := by
  rw [resolveAs]
  by_cases husable : p.isUsable = true
  · by_cases hlong : p.text.utf8ByteSize > maxPathBytes
    · simp [husable, hlong]
    · simp [husable, hlong, follow_ne_unusable]
  · simp [husable]

end

/-- The links that are not being resolved already. -/
def idleLinks (t : FileTree) (active : List Location) : List Location :=
  t.links.filter (· ∉ active)

/-- Resolving one more link leaves fewer idle ones. -/
theorem length_idleLinks_cons_lt {t : FileTree} {active : List Location} {loc : Location}
    {target : String} (hlink : t.node? loc = some (.link target)) (hidle : loc ∉ active) :
    (t.idleLinks (loc :: active)).length < (t.idleLinks active).length := by
  have hmem : loc ∈ t.idleLinks active :=
    List.mem_filter.2 ⟨mem_links_iff.2 ⟨target, hlink⟩, by simpa using hidle⟩
  have hsub : t.idleLinks (loc :: active) = (t.idleLinks active).filter (· ≠ loc) := by
    simp only [idleLinks, List.filter_filter]
    refine List.filter_congr fun a _ => ?_
    simp [not_or]
  rw [hsub]
  exact List.length_filter_lt_length_iff_exists.2 ⟨loc, hmem, by simp⟩

/-- Follows names by what links say, while the links of `active` are being resolved. The flag tells
whether no link led back into itself. -/
def realFollow (t : FileTree) (active : List Location) (loc : Location) :
    (names : List String) → Location × Bool
  | [] => (loc, true)
  | name :: rest =>
    if name = ".." then t.realFollow active loc.dropLast rest
    else match _hnode : t.node? (loc ++ [name]) with
      | some (.link target) =>
        if _hactive : loc ++ [name] ∈ active then
          (Path.collapse [] (loc ++ name :: rest), false)
        else
          match t.realFollow ((loc ++ [name]) :: active) (startOf target loc)
              (Path.ofText target).names with
          | (place, true) => t.realFollow active place rest
          | (place, false) => (Path.collapse [] (place ++ rest), false)
      | _ => t.realFollow active (loc ++ [name]) rest
termination_by names => ((t.idleLinks active).length, names.length)
decreasing_by
  all_goals first
    | exact Prod.Lex.left _ _ (length_idleLinks_cons_lt _hnode _hactive)
    | exact Prod.Lex.right _ (by simp)

/-- **The real location** of a path, whether or not anything lies there. -/
def realPath (t : FileTree) (p : Path) : Location :=
  (t.realFollow [] (t.start p) p.names).1

end FileTree

end SchemaAssembly
