import Mathlib
import SchemaAssembly.Proofs.Following
import SchemaAssembly.Proofs.Visits

/-!
# Scanning all the way down

A scan meets directories as paths, and the same directory under many of them: a link may lead up the
tree or into another branch of it. What the scan is to find is said in terms of locations and without
a walk. A directory is `FileTree.Reached` from the root if there are steps into subdirectories that
lead to it, links followed.

- `reached_of_mem_visits`: every directory visited is reached, by as many steps as the visit says;
- `sourcesBelow_eq_flatMap_flat`: a scan is made of scans of single directories;
- `mem_map_placed_sourcesBelow_iff`: what a scan finds are the schema files of the directories it
  visits, and without a depth limit those of the directories reached (`mem_map_placed_deep_iff`);
- `recursive_scan`: without a depth limit every directory reached is visited, once, and the files are
  those of the scans of the single directories.
-/

namespace SchemaAssembly

/-- Scanning one directory. -/
def ScanOptions.flat (extension : String) : ScanOptions where
  extension := extension

/-- Scanning all the way down. -/
def ScanOptions.deep (extension : String) : ScanOptions where
  recursive := true
  extension := extension

/-- The scan of one directory does not descend. -/
@[simp] theorem ScanOptions.descends_flat (extension : String) (depth : Nat) :
    (flat extension).descends depth = false := by
  simp [descends, limit, flat]

/-- The scan all the way down descends everywhere. -/
@[simp] theorem ScanOptions.descends_deep (extension : String) (depth : Nat) :
    (deep extension).descends depth = true :=
  rfl

namespace FileTree

/-- A step into a subdirectory: an entry leads to a directory. -/
def Below (t : FileTree) (loc sub : Location) : Prop :=
  ∃ name ∈ t.entries loc, t.Leads loc [name] sub ∧ t.node? sub = some .directory

/-- **Reached directories**: the one a path leads to, and those below it, with the number of
steps. -/
inductive Reached (t : FileTree) (root : Path) : Nat → Location → Prop
  /-- the path leads to the directory -/
  | here {loc : Location} : t.Leads (t.start root) root.names loc →
    t.node? loc = some .directory → Reached t root 0 loc
  /-- a step further -/
  | further {steps : Nat} {loc sub : Location} : Reached t root steps loc → t.Below loc sub →
    Reached t root (steps + 1) sub

/-- Reached by some number of steps. -/
def Reachable (t : FileTree) (root : Path) (loc : Location) : Prop :=
  ∃ steps, t.Reached root steps loc

/-- The paths that a scan forms: its root, and every entry of the directories it visits. -/
def scanPaths (t : FileTree) (o : ScanOptions) (root : Path) : List Path :=
  root :: (t.visits o root).flatMap fun v => (t.entries v.location).map v.path.child

/-- A schema file in a directory: an entry with the right name that leads to a file. -/
def HoldsSource (t : FileTree) (extension : String) (loc : Location) (name : String) : Prop :=
  name ∈ t.entries loc ∧ isSchemaName extension name = true ∧
    ∃ dest bytes, t.Leads loc [name] dest ∧ t.node? dest = some (.file bytes)

/-- **A file as a pair**: the real directory it was found in, and its name there. -/
def placed (t : FileTree) (p : Path) : Except Fault Location × String :=
  (t.resolve p.parent, p.name)

section

variable {t : FileTree} {o : ScanOptions} {extension : String} {root dir : Path} {loc : Location}
  {v : Visit}

/-! ### Visits and steps -/

/-- **Every visit is reached**, by as many steps as it says; its path leads to its location. -/
theorem reached_of_mem_visits (hv : v ∈ t.visits o root) :
    t.resolve v.path = .ok v.location ∧ v.location ∈ t.directories ∧
      t.Reached root v.depth v.location := by
  obtain ⟨hresolve, hdir, hreached⟩ :=
    @visitStack_induction t o [] [(root, 0)]
      (fun x => ∀ loc ∈ t.directories, t.resolve x.1 = .ok loc → t.Reached root x.2 loc)
      (fun x hx loc hdir hresolve => by
        obtain rfl := List.mem_singleton.1 hx
        exact .here (leads_of_resolve hresolve) (mem_directories_iff.1 hdir))
      (fun v hresolve hdir hreached x hx sub hsub hchild => by
        obtain ⟨-, name, hname, -, rfl⟩ := mem_stacked.1 hx
        have hleads := (leads_child_iff hresolve name).1 (leads_of_resolve hchild)
        exact .further (hreached v.location hdir hresolve)
          ⟨name, hname, hleads, mem_directories_iff.1 hsub⟩)
      v hv
  exact ⟨hresolve, hdir, hreached v.location hdir hresolve⟩

/-- Every entry of a directory visited is looked at under the path of the visit. -/
theorem child_mem_scanPaths {name : String} (hv : v ∈ t.visits o root)
    (hname : name ∈ t.entries v.location) : v.path.child name ∈ t.scanPaths o root :=
  List.mem_cons_of_mem _ (List.mem_flatMap.2 ⟨v, hv, List.mem_map_of_mem hname⟩)

/-- The root is visited if nothing hinders its path. -/
theorem exists_visit_of_root (hunhindered : t.Unhindered root)
    (hleads : t.Leads (t.start root) root.names loc) (hnode : t.node? loc = some .directory) :
    ∃ v ∈ t.visits o root, v.location = loc := by
  obtain hvisited | hvisit := @exists_visit_of_mem_stack t o [] [(root, 0)] (root, 0)
    ⟨loc, mem_directories_iff.2 hnode⟩ (List.mem_singleton_self _)
    (directoryAt_eq_ok_iff.2 (hunhindered loc hleads))
  · cases hvisited
  · exact hvisit

/-- **A step further**: what lies below a directory visited is visited, unless it lies too deep. -/
theorem exists_visit_of_below {sub : Location}
    (hunhindered : ∀ p ∈ t.scanPaths o root, t.Unhindered p) (hv : v ∈ t.visits o root)
    (hdescends : o.descends v.depth = true) (hbelow : t.Below v.location sub) :
    ∃ w ∈ t.visits o root, w.location = sub := by
  obtain ⟨name, hname, hleads, hnode⟩ := hbelow
  have hresolve := hunhindered _ (child_mem_scanPaths hv hname) sub
    ((leads_child_iff (reached_of_mem_visits hv).1 name).2 hleads)
  have hstacked : (v.path.child name, v.depth + 1) ∈ t.stacked o v :=
    mem_stacked.2 ⟨hdescends, name, hname, nodeAt_eq_ok_iff.2 ⟨sub, hresolve, hnode⟩, rfl⟩
  obtain hvisited | hvisit := @exists_visit_of_mem_stacked t o [] [(root, 0)] v _
    ⟨sub, mem_directories_iff.2 hnode⟩ hv hstacked (directoryAt_eq_ok_iff.2 hresolve)
  · cases hvisited
  · exact hvisit

/-- **Every directory reached is visited** if nothing hinders the scan. -/
theorem exists_visit_of_reached {steps : Nat}
    (hunhindered : ∀ p ∈ t.scanPaths (.deep extension) root, t.Unhindered p)
    (h : t.Reached root steps loc) : ∃ v ∈ t.visits (.deep extension) root, v.location = loc := by
  induction h with
  | here hleads hnode =>
    exact exists_visit_of_root (hunhindered root List.mem_cons_self) hleads hnode
  | further _ hbelow ih =>
    obtain ⟨v, hv, rfl⟩ := ih
    exact exists_visit_of_below hunhindered hv (ScanOptions.descends_deep extension v.depth) hbelow

/-- **What is visited is what is reachable**, if nothing hinders the scan. -/
theorem exists_visit_iff_reachable
    (hunhindered : ∀ p ∈ t.scanPaths (.deep extension) root, t.Unhindered p) :
    (∃ v ∈ t.visits (.deep extension) root, v.location = loc) ↔ t.Reachable root loc := by
  constructor
  · rintro ⟨v, hv, rfl⟩
    exact ⟨v.depth, (reached_of_mem_visits hv).2.2⟩
  · rintro ⟨steps, hreached⟩
    exact exists_visit_of_reached hunhindered hreached

/-- A scan has at most as many visits as there are directories. -/
theorem length_visits_le (t : FileTree) (o : ScanOptions) (root : Path) :
    (t.visits o root).length ≤ t.directories.length := by
  have hsub : (t.visits o root).map (·.location) ⊆ t.directories := by
    intro loc hloc
    obtain ⟨v, hv, rfl⟩ := List.mem_map.1 hloc
    exact (reached_of_mem_visits hv).2.1
  have hle := (List.subperm_of_subset (nodup_visitStack t o [] [(root, 0)]).1 hsub).length_le
  rwa [List.length_map] at hle

/-! ### Files as pairs -/

/-- A root that the system cannot be asked for is not visited. -/
theorem visits_of_not_isUsable (t : FileTree) (o : ScanOptions) (h : root.isUsable = false) :
    t.visits o root = [] := by
  have hresolve : t.resolve root = .error .unusable := resolveAs_eq_unusable_iff.2 h
  have hplace : t.directoryAt root = .error .unusable := by rw [directoryAt, hresolve]
  rw [visits, visitStack]
  simp only [hplace, visitStack]

/-- The files that a scan finds are those of the directories it visits, one after the other. -/
theorem sourcesBelow_eq_flatMap (t : FileTree) (o : ScanOptions) (root : Path) :
    t.sourcesBelow o root =
      (t.visits o root).flatMap fun v => t.filesAt o.extension v.location v.path := by
  rw [sourcesBelow, scan]
  cases husable : root.isUsable with
  | true =>
    rw [if_pos rfl]
    exact filterMap_file?_scanStack t o [] [(root, 0)]
  | false =>
    rw [if_neg Bool.false_ne_true, visits_of_not_isUsable t o husable]
    rfl

/-- The scan of one directory finds the files it holds. -/
theorem sourcesBelow_flat (hresolve : t.resolve dir = .ok loc) (hdir : loc ∈ t.directories) :
    t.sourcesBelow (.flat extension) dir = t.filesAt extension loc dir := by
  have hplace : t.directoryAt dir = .ok ⟨loc, hdir⟩ := directoryAt_eq_ok_iff.2 hresolve
  have hstacked : t.stacked (.flat extension) ⟨dir, 0, loc⟩ = [] := by
    rw [stacked, if_neg (by simp), List.map_nil]
  rw [sourcesBelow_eq_flatMap, visits, visitStack]
  simp only [hplace, List.not_mem_nil, dite_false, hstacked, visitStack,
    List.flatMap_cons, List.flatMap_nil, List.append_nil]
  rfl

/-- **A scan is made of scans of single directories**, those it visits. -/
theorem sourcesBelow_eq_flatMap_flat (t : FileTree) (o : ScanOptions) (root : Path) :
    t.sourcesBelow o root =
      (t.visits o root).flatMap fun v => t.sourcesBelow (.flat o.extension) v.path := by
  rw [sourcesBelow_eq_flatMap]
  refine List.flatMap_congr fun v hv => ?_
  obtain ⟨hresolve, hdir, -⟩ := reached_of_mem_visits hv
  exact (sourcesBelow_flat hresolve hdir).symm

/-- An entry of a directory as a pair. -/
theorem placed_child (hresolve : t.resolve dir = .ok loc) (name : String) :
    t.placed (dir.child name) = (.ok loc, name) := by
  rw [placed, Path.parent_child, Path.name_child, hresolve]

/-- The files of one directory as pairs: they share the directory, and their names are some of its
entries. -/
theorem map_placed_filesAt (hresolve : t.resolve dir = .ok loc) :
    (t.filesAt extension loc dir).map t.placed =
      ((t.entries loc).filter fun name =>
        t.entryAt extension (dir.child name) = .found (.file (dir.child name))).map
          fun name => (.ok loc, name) := by
  rw [filesAt_eq, List.map_map]
  exact List.map_congr_left fun name _ => placed_child hresolve name

/-- A pair of the scan of one directory: its directory, and an entry that is a schema file. -/
theorem mem_map_placed_filesAt {x : Except Fault Location × String}
    (hresolve : t.resolve dir = .ok loc) :
    x ∈ (t.filesAt extension loc dir).map t.placed ↔
      ∃ name ∈ t.entries loc, isSchemaName extension name = true ∧
        (∃ bytes, t.nodeAt (dir.child name) = .ok (.file bytes)) ∧ x = (.ok loc, name) := by
  simp only [List.mem_map, mem_filesAt]
  constructor
  · rintro ⟨p, ⟨name, hname, rfl, hschema, hfile⟩, rfl⟩
    exact ⟨name, hname, hschema, hfile, placed_child hresolve name⟩
  · rintro ⟨name, hname, hschema, hfile, rfl⟩
    exact ⟨_, ⟨name, hname, rfl, hschema, hfile⟩, placed_child hresolve name⟩

/-- The files of a directory are schema files that it holds. -/
theorem exists_holdsSource_of_mem_filesAt {p : Path} (hresolve : t.resolve dir = .ok loc)
    (hp : p ∈ t.filesAt extension loc dir) :
    ∃ name, t.HoldsSource extension loc name ∧ p = dir.child name := by
  obtain ⟨name, hname, rfl, hschema, bytes, hfile⟩ := mem_filesAt.1 hp
  obtain ⟨dest, hdest, hnode⟩ := nodeAt_eq_ok_iff.1 hfile
  have hleads := (leads_child_iff hresolve name).1 (leads_of_resolve hdest)
  exact ⟨name, ⟨hname, hschema, dest, bytes, hleads, hnode⟩, rfl⟩

/-- A schema file is among them unless its path is hindered. -/
theorem child_mem_filesAt {name : String} (hresolve : t.resolve dir = .ok loc)
    (hunhindered : t.Unhindered (dir.child name)) (hholds : t.HoldsSource extension loc name) :
    dir.child name ∈ t.filesAt extension loc dir := by
  obtain ⟨hname, hschema, dest, bytes, hleads, hnode⟩ := hholds
  have hdest := hunhindered dest ((leads_child_iff hresolve name).2 hleads)
  exact mem_filesAt.2 ⟨name, hname, rfl, hschema, bytes, nodeAt_eq_ok_iff.2 ⟨dest, hdest, hnode⟩⟩

/-- What a scan finds is a schema file of a directory it visits. -/
theorem exists_visit_of_mem_sourcesBelow {p : Path} (hp : p ∈ t.sourcesBelow o root) :
    ∃ v ∈ t.visits o root, ∃ name, t.HoldsSource o.extension v.location name ∧
      p = v.path.child name := by
  rw [sourcesBelow_eq_flatMap, List.mem_flatMap] at hp
  obtain ⟨v, hv, hp⟩ := hp
  exact ⟨v, hv, exists_holdsSource_of_mem_filesAt (reached_of_mem_visits hv).1 hp⟩

/-- A scan that nothing hinders finds the schema files of the directories it visits. -/
theorem child_mem_sourcesBelow {name : String}
    (hunhindered : ∀ p ∈ t.scanPaths o root, t.Unhindered p) (hv : v ∈ t.visits o root)
    (hholds : t.HoldsSource o.extension v.location name) :
    v.path.child name ∈ t.sourcesBelow o root := by
  rw [sourcesBelow_eq_flatMap, List.mem_flatMap]
  exact ⟨v, hv, child_mem_filesAt (reached_of_mem_visits hv).1
    (hunhindered _ (child_mem_scanPaths hv hholds.1)) hholds⟩

/-- What a scan finds lies in a directory it visits. -/
theorem exists_visit_of_mem_map_placed {x : Except Fault Location × String}
    (hx : x ∈ (t.sourcesBelow o root).map t.placed) :
    ∃ v ∈ t.visits o root, ∃ name, t.HoldsSource o.extension v.location name ∧
      x = (.ok v.location, name) := by
  obtain ⟨p, hp, rfl⟩ := List.mem_map.1 hx
  obtain ⟨v, hv, name, hholds, rfl⟩ := exists_visit_of_mem_sourcesBelow hp
  exact ⟨v, hv, name, hholds, placed_child (reached_of_mem_visits hv).1 name⟩

/-- **What a scan finds** are the schema files of the directories it visits. -/
theorem mem_map_placed_sourcesBelow_iff {x : Except Fault Location × String}
    (hunhindered : ∀ p ∈ t.scanPaths o root, t.Unhindered p) :
    x ∈ (t.sourcesBelow o root).map t.placed ↔
      ∃ v ∈ t.visits o root, ∃ name, t.HoldsSource o.extension v.location name ∧
        x = (.ok v.location, name) := by
  refine ⟨exists_visit_of_mem_map_placed, ?_⟩
  rintro ⟨v, hv, name, hholds, rfl⟩
  rw [← placed_child (reached_of_mem_visits hv).1 name]
  exact List.mem_map_of_mem (child_mem_sourcesBelow hunhindered hv hholds)

/-- What an entry leads to under one path of a directory, it leads to under any other that is
unhindered. -/
theorem nodeAt_child_of_unhindered {q : Path} {name : String} {node : Node}
    (hdir : t.resolve dir = .ok loc) (hq : t.resolve q = .ok loc)
    (hunhindered : t.Unhindered (dir.child name)) (h : t.nodeAt (q.child name) = .ok node) :
    t.nodeAt (dir.child name) = .ok node := by
  obtain ⟨dest, hresolve, hnode⟩ := nodeAt_eq_ok_iff.1 h
  have hleads := (leads_child_iff hq name).1 (leads_of_resolve hresolve)
  exact nodeAt_eq_ok_iff.2 ⟨dest, hunhindered dest ((leads_child_iff hdir name).2 hleads), hnode⟩

/-- **The path of a directory does not matter**: under an unhindered path its scan finds every pair
that it finds under any other. -/
theorem mem_map_placed_flat_of_unhindered {q : Path} {x : Except Fault Location × String}
    (hdir : loc ∈ t.directories) (hresolve : t.resolve dir = .ok loc) (hq : t.resolve q = .ok loc)
    (hunhindered : ∀ name ∈ t.entries loc, t.Unhindered (dir.child name))
    (hx : x ∈ (t.sourcesBelow (.flat extension) q).map t.placed) :
    x ∈ (t.sourcesBelow (.flat extension) dir).map t.placed := by
  rw [sourcesBelow_flat hq hdir, mem_map_placed_filesAt hq] at hx
  rw [sourcesBelow_flat hresolve hdir, mem_map_placed_filesAt hresolve]
  obtain ⟨name, hname, hschema, ⟨bytes, hnode⟩, rfl⟩ := hx
  exact ⟨name, hname, hschema,
    ⟨bytes, nodeAt_child_of_unhindered hresolve hq (hunhindered name hname) hnode⟩, rfl⟩

section

variable {x : Except Fault Location × String}
  (hunhindered : ∀ p ∈ t.scanPaths (.deep extension) root, t.Unhindered p)

include hunhindered

/-- **A scan all the way down** finds what the scans of the directories that can be reached find, under
whatever paths they are scanned. -/
theorem mem_map_placed_deep_iff_flat :
    x ∈ (t.sourcesBelow (.deep extension) root).map t.placed ↔
      ∃ loc q, t.Reachable root loc ∧ t.resolve q = .ok loc ∧
        x ∈ (t.sourcesBelow (.flat extension) q).map t.placed := by
  rw [sourcesBelow_eq_flatMap_flat, List.map_flatMap, List.mem_flatMap]
  constructor
  · rintro ⟨v, hv, hx⟩
    obtain ⟨hresolve, -, hreached⟩ := reached_of_mem_visits hv
    exact ⟨v.location, v.path, ⟨v.depth, hreached⟩, hresolve, hx⟩
  · rintro ⟨loc, q, hreachable, hq, hx⟩
    -- the directory has been visited under a path of its own, and its entries are the same there
    obtain ⟨v, hv, rfl⟩ := (exists_visit_iff_reachable hunhindered).2 hreachable
    obtain ⟨hresolve, hdir, -⟩ := reached_of_mem_visits hv
    exact ⟨v, hv, mem_map_placed_flat_of_unhindered hdir hresolve hq
      (fun name hname => hunhindered _ (child_mem_scanPaths hv hname)) hx⟩

/-- So it finds the schema files of these directories. -/
theorem mem_map_placed_deep_iff :
    x ∈ (t.sourcesBelow (.deep extension) root).map t.placed ↔
      ∃ loc name, t.Reachable root loc ∧ t.HoldsSource extension loc name ∧ x = (.ok loc, name) := by
  rw [mem_map_placed_sourcesBelow_iff hunhindered]
  constructor
  · rintro ⟨v, hv, name, hholds, rfl⟩
    exact ⟨v.location, name, ⟨v.depth, (reached_of_mem_visits hv).2.2⟩, hholds, rfl⟩
  · rintro ⟨loc, name, hreachable, hholds, rfl⟩
    obtain ⟨v, hv, rfl⟩ := (exists_visit_iff_reachable hunhindered).2 hreachable
    exact ⟨v, hv, name, hholds, rfl⟩

end

/-- No file is found twice, if files are told apart by their real directory and their name. -/
theorem nodup_map_placed_sourcesBelow (t : FileTree) (o : ScanOptions) (root : Path) :
    ((t.sourcesBelow o root).map t.placed).Nodup := by
  rw [sourcesBelow_eq_flatMap, List.map_flatMap, List.nodup_flatMap]
  have hlocations : ((t.visits o root).map (·.location)).Nodup :=
    (nodup_visitStack t o [] [(root, 0)]).1
  -- names differ within a directory, locations between two of them
  refine ⟨fun v hv => ?_, (List.pairwise_map.1 hlocations).imp_of_mem ?_⟩
  · rw [map_placed_filesAt (reached_of_mem_visits hv).1]
    refine ((nodup_entries t v.location).filter _).map fun name name' h => ?_
    exact (Prod.mk.inj h).2
  · intro v w hv hw hne x hxv hxw
    change x ∈ (t.filesAt o.extension v.location v.path).map t.placed at hxv
    change x ∈ (t.filesAt o.extension w.location w.path).map t.placed at hxw
    rw [map_placed_filesAt (reached_of_mem_visits hv).1] at hxv
    rw [map_placed_filesAt (reached_of_mem_visits hw).1] at hxw
    obtain ⟨name, -, rfl⟩ := List.mem_map.1 hxv
    obtain ⟨name', -, heq⟩ := List.mem_map.1 hxw
    exact hne (Except.ok.inj (Prod.mk.inj heq).1).symm

/-- What comes of a scan besides files: that its root cannot be opened, and entries with a name that
is too long; or it breaks off with its root. -/
theorem eq_of_mem_scan {finding : Finding} (h : finding ∈ t.scan o root) :
    (∃ p, finding = .file p) ∨ (∃ fault, finding = .unreadableDirectory root fault) ∨
      (∃ p, finding = .unreadableEntry p .nameTooLong) ∨
        root.isUsable = false ∧ finding = .unusableRoot root := by
  rw [scan] at h
  split at h
  · obtain ⟨x, hx, fault, -, rfl⟩ | ⟨v, -, hfinding⟩ := mem_scanStack h
    · obtain rfl := List.mem_singleton.1 hx
      exact Or.inr (Or.inl ⟨fault, rfl⟩)
    · obtain ⟨name, -, hentry⟩ := mem_findings_entriesAt.1 hfinding
      obtain rfl | rfl := eq_of_entryAt_eq_found hentry
      · exact Or.inl ⟨_, rfl⟩
      · exact Or.inr (Or.inr (Or.inl ⟨_, rfl⟩))
  · rename_i husable
    exact Or.inr (Or.inr (Or.inr ⟨Bool.eq_false_iff.2 husable, List.mem_singleton.1 h⟩))

/-- **Scanning all the way down.** If nothing hinders the scan, it visits every directory that can
be reached from its root, each once, and no others.

* What comes of the scan are the files at the visits, in their order. Each visit contributes the scan
  of its directory alone, which finds the schema files in it and nothing else.
* As pairs of a directory and a name the files are all different, and they are the same whatever paths
  the directories have: the schema files of the directories that can be reached.
* What does not exist, is no directory or leads back into itself is passed over: nothing but the root
  and overlong names is reported, and the scan breaks off only if the system cannot be asked for its
  root. -/
theorem recursive_scan (t : FileTree) (extension : String) (root : Path)
    (hunhindered : ∀ p ∈ t.scanPaths (.deep extension) root, t.Unhindered p) :
    ((t.visits (.deep extension) root).map (·.location)).Nodup ∧
    (t.visits (.deep extension) root).length ≤ t.directories.length ∧
    (∀ loc, (∃ v ∈ t.visits (.deep extension) root, v.location = loc) ↔ t.Reachable root loc) ∧
    (∀ v ∈ t.visits (.deep extension) root, t.resolve v.path = .ok v.location) ∧
    (t.scan (.deep extension) root).filterMap Finding.file? =
      ((t.visits (.deep extension) root).flatMap fun v =>
        t.filesAt extension v.location v.path) ∧
    t.sourcesBelow (.deep extension) root =
      ((t.visits (.deep extension) root).flatMap fun v =>
        t.sourcesBelow (.flat extension) v.path) ∧
    (∀ v ∈ t.visits (.deep extension) root, ∀ p, p ∈ t.sourcesBelow (.flat extension) v.path ↔
      ∃ name, t.HoldsSource extension v.location name ∧ p = v.path.child name) ∧
    ((t.sourcesBelow (.deep extension) root).map t.placed).Nodup ∧
    (∀ x, x ∈ (t.sourcesBelow (.deep extension) root).map t.placed ↔
      ∃ loc q, t.Reachable root loc ∧ t.resolve q = .ok loc ∧
        x ∈ (t.sourcesBelow (.flat extension) q).map t.placed) ∧
    (∀ x, x ∈ (t.sourcesBelow (.deep extension) root).map t.placed ↔
      ∃ loc name, t.Reachable root loc ∧ t.HoldsSource extension loc name ∧ x = (.ok loc, name)) ∧
    ∀ finding ∈ t.scan (.deep extension) root, (∃ p, finding = .file p) ∨
      (∃ fault, finding = .unreadableDirectory root fault) ∨
        (∃ p, finding = .unreadableEntry p .nameTooLong) ∨
          root.isUsable = false ∧ finding = .unusableRoot root := by
  refine ⟨(nodup_visitStack t _ [] [(root, 0)]).1, length_visits_le t _ root,
    fun loc => exists_visit_iff_reachable hunhindered,
    fun v hv => (reached_of_mem_visits hv).1, sourcesBelow_eq_flatMap t (.deep extension) root,
    sourcesBelow_eq_flatMap_flat t (.deep extension) root, fun v hv p => ?_,
    nodup_map_placed_sourcesBelow t _ root, fun x => mem_map_placed_deep_iff_flat hunhindered,
    fun x => mem_map_placed_deep_iff hunhindered, fun finding => eq_of_mem_scan⟩
  obtain ⟨hresolve, hdir, -⟩ := reached_of_mem_visits hv
  rw [sourcesBelow_flat hresolve hdir]
  refine ⟨exists_holdsSource_of_mem_filesAt hresolve, ?_⟩
  rintro ⟨name, hholds, rfl⟩
  exact child_mem_filesAt hresolve (hunhindered _ (child_mem_scanPaths hv hholds.1)) hholds

end

/-! ### A tree with links of all kinds -/

/-- A directory with a file and a link up the tree; next to it a link to itself, two links to each
other and a broken one. -/
def knotted : FileTree where
  nodes := [(["d"], .directory), (["d", "a.y"], .file []), (["d", "up"], .link ".."),
    (["gone"], .link "no"), (["self"], .link "self"), (["x"], .link "y"), (["y"], .link "x")]
  workingDirectory := []

theorem visits_knotted : knotted.visits (.deep ".y") (.ofText ".") =
    [⟨.ofText ".", 0, []⟩, ⟨.ofText "d", 1, ["d"]⟩] := by
  cbv

theorem scanPaths_knotted : knotted.scanPaths (.deep ".y") (.ofText ".") =
    [".", "d", "gone", "self", "x", "y", "d/a.y", "d/up"].map Path.ofText := by
  rw [scanPaths, visits_knotted]
  cbv

/-- The links that lead back to themselves lead nowhere. -/
theorem not_leads_knotted {name : String} {dest : Location}
    (h : name = "self" ∨ name = "x" ∨ name = "y") : ¬ knotted.Leads [] [name] dest := by
  refine @not_leads_of_circle knotted [] dest name
    (fun loc name => loc = [] ∧ (name = "self" ∨ name = "x" ∨ name = "y"))
    (fun loc name hname => ?_) ⟨rfl, h⟩ []
  obtain ⟨rfl, rfl | rfl | rfl⟩ := hname
  · exact ⟨[], "self", [], by decide +kernel, rfl, Or.inl rfl⟩
  · exact ⟨[], "y", [], by decide +kernel, rfl, Or.inr (Or.inr rfl)⟩
  · exact ⟨[], "x", [], by decide +kernel, rfl, Or.inr (Or.inl rfl)⟩

/-- The scan of the tree reaches the root and the one directory below it, each once. -/
theorem recursive_scan_knotted :
    (∀ p ∈ knotted.scanPaths (.deep ".y") (.ofText "."), knotted.Unhindered p) ∧
    (∀ loc, knotted.Reachable (.ofText ".") loc ↔ loc = [] ∨ loc = ["d"]) ∧
    ∀ x, x ∈ (knotted.sourcesBelow (.deep ".y") (.ofText ".")).map knotted.placed ↔
      ∃ loc q, (loc = [] ∨ loc = ["d"]) ∧ knotted.resolve q = .ok loc ∧
        x ∈ (knotted.sourcesBelow (.flat ".y") q).map knotted.placed := by
  have hunhindered : ∀ p ∈ knotted.scanPaths (.deep ".y") (.ofText "."), knotted.Unhindered p := by
    rw [scanPaths_knotted]
    simp only [List.map_cons, List.map_nil, List.forall_mem_cons, List.not_mem_nil, false_imp_iff,
      implies_true, and_true]
    refine ⟨@unhindered_of_resolve _ [] _ ?_, @unhindered_of_resolve _ ["d"] _ ?_,
      @unhindered_of_resolve_error _ _ .notFound (by decide) (by decide) (by decide) ?_,
      fun _ h => (not_leads_knotted (Or.inl rfl) h).elim,
      fun _ h => (not_leads_knotted (Or.inr (Or.inl rfl)) h).elim,
      fun _ h => (not_leads_knotted (Or.inr (Or.inr rfl)) h).elim,
      @unhindered_of_resolve _ ["d", "a.y"] _ ?_, @unhindered_of_resolve _ [] _ ?_⟩
    · cbv
    · cbv
    · cbv
    · cbv
    · cbv
  obtain ⟨-, -, hreach, -, -, -, -, -, hpairs, -, -⟩ :=
    recursive_scan knotted ".y" (.ofText ".") hunhindered
  have hdirs : ∀ loc, knotted.Reachable (.ofText ".") loc ↔ loc = [] ∨ loc = ["d"] := by
    intro loc
    rw [← hreach, visits_knotted]
    simp [eq_comm]
  refine ⟨hunhindered, hdirs, fun x => ?_⟩
  rw [hpairs]
  simp only [hdirs]

end FileTree

end SchemaAssembly
