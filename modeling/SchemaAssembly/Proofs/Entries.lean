import SchemaAssembly.Scan

/-!
# What one directory holds

A scan makes something of each entry of a directory it lists: a schema file, a subdirectory to
visit, a report, or nothing. Which it is depends on what the entry's path leads to.

- `mem_filesAt`: the schema files are the entries with the right name that lead to a file.
- `mem_subdirectories_entriesAt`: the subdirectories are the entries that lead to a directory.
- `eq_of_mem_findings`: of all that can go wrong with an entry, only an overlong name is reported.
-/

namespace SchemaAssembly.FileTree

variable {t : FileTree} {extension : String} {p q dir : Path} {loc : Location}

/-- A path has a node exactly if it is resolved to where that node lies. -/
theorem nodeAt_eq_ok_iff {node : Node} :
    t.nodeAt p = .ok node ↔ ∃ loc, t.resolve p = .ok loc ∧ t.node? loc = some node := by
  rw [nodeAt]
  rcases hresolve : t.resolve p with fault | loc
  · simp [bind, Except.bind]
  · rcases hnode : t.node? loc with _ | node'
    · simp [bind, Except.bind, hnode]
    · simp [bind, Except.bind, hnode]

/-- The system can be asked for a path that has a node. -/
theorem isUsable_of_nodeAt {node : Node} (h : t.nodeAt p = .ok node) : p.isUsable = true := by
  obtain ⟨loc, hresolve, -⟩ := nodeAt_eq_ok_iff.1 h
  exact (resolveAs_eq_ok_iff.1 hresolve).1

/-- A path can be opened as a directory exactly if it is resolved to one. -/
theorem directoryAt_eq_ok_iff {place : { loc : Location // loc ∈ t.directories }} :
    t.directoryAt p = .ok place ↔ t.resolve p = .ok place.1 := by
  rw [directoryAt]
  rcases t.resolve p with fault | loc
  · exact iff_of_false (fun h => by cases h) (fun h => by cases h)
  · by_cases hdir : loc ∈ t.directories
    · simp only [dif_pos hdir, Except.ok.injEq, Subtype.ext_iff]
    · simp only [dif_neg hdir, Except.ok.injEq, reduceCtorEq, false_iff]
      rintro rfl
      exact hdir place.2

/-- An entry is a subdirectory if it leads to a directory. -/
theorem entryAt_eq_subdirectory_iff :
    t.entryAt extension p = .subdirectory q ↔ q = p ∧ t.nodeAt p = .ok .directory := by
  rcases hnode : t.nodeAt p with fault | _ | bytes | target
  · cases fault <;> simp [entryAt, hnode]
  · simp [entryAt, hnode, eq_comm]
  · by_cases hname : isSchemaName extension p.name <;> simp [entryAt, hnode, hname]
  · simp [entryAt, hnode]

/-- An entry is a schema file if it has the name of one and leads to a file. -/
theorem entryAt_eq_file_iff :
    t.entryAt extension p = .found (.file q) ↔
      q = p ∧ isSchemaName extension p.name = true ∧ ∃ bytes, t.nodeAt p = .ok (.file bytes) := by
  rcases hnode : t.nodeAt p with fault | _ | bytes | target
  · cases fault <;> simp [entryAt, hnode]
  · simp [entryAt, hnode]
  · by_cases hname : isSchemaName extension p.name <;> simp [entryAt, hnode, hname, eq_comm]
  · simp [entryAt, hnode]

/-- Of an entry that is no schema file, all that is found is that a name is too long. -/
theorem eq_of_entryAt_eq_found {finding : Finding}
    (h : t.entryAt extension p = .found finding) :
    finding = .file p ∨ finding = .unreadableEntry p .nameTooLong := by
  rcases hnode : t.nodeAt p with fault | _ | bytes | target
  · cases fault <;> simp_all [entryAt]
  · simp [entryAt, hnode] at h
  · by_cases hname : isSchemaName extension p.name <;> simp_all [entryAt]
  · simp [entryAt, hnode] at h

/-! ### All entries -/

/-- The schema files in a directory, under the path by which it was reached. -/
def filesAt (t : FileTree) (extension : String) (loc : Location) (dir : Path) : List Path :=
  (findings (t.entriesAt extension loc dir)).filterMap Finding.file?

/-- Something is found in a directory if it is found at an entry. -/
theorem mem_findings_entriesAt {finding : Finding} :
    finding ∈ findings (t.entriesAt extension loc dir) ↔
      ∃ name ∈ t.entries loc, t.entryAt extension (dir.child name) = .found finding := by
  rw [findings, entriesAt, List.filterMap_map, List.mem_filterMap]
  refine exists_congr fun name => and_congr_right fun _ => ?_
  rw [Function.comp_apply]
  rcases t.entryAt extension (dir.child name) with finding' | path | _
  · simp
  · simp
  · simp

/-- **The subdirectories** are the entries that lead to a directory. -/
theorem mem_subdirectories_entriesAt :
    p ∈ subdirectories (t.entriesAt extension loc dir) ↔
      ∃ name ∈ t.entries loc, p = dir.child name ∧ t.nodeAt (dir.child name) = .ok .directory := by
  rw [subdirectories, entriesAt, List.filterMap_map, List.mem_filterMap]
  refine exists_congr fun name => and_congr_right fun _ => ?_
  rw [← @entryAt_eq_subdirectory_iff t extension, Function.comp_apply]
  rcases t.entryAt extension (dir.child name) with finding | path | _
  · simp
  · simp
  · simp

/-- The schema files are some of the entries, in their order. -/
theorem filesAt_eq :
    t.filesAt extension loc dir =
      ((t.entries loc).filter fun name =>
        t.entryAt extension (dir.child name) = .found (.file (dir.child name))).map dir.child := by
  rw [filesAt, findings, entriesAt, List.filterMap_map, List.filterMap_filterMap,
    ← List.filterMap_eq_map', List.filterMap_filter]
  congr 1
  funext name
  rw [Function.comp_apply]
  rcases hentry : t.entryAt extension (dir.child name) with finding | path | _
  · obtain rfl | rfl := eq_of_entryAt_eq_found hentry
    · simp [Finding.file?]
    · simp [Finding.file?]
  · simp
  · simp

/-- **The schema files** are the entries with the right name that lead to a file. -/
theorem mem_filesAt :
    p ∈ t.filesAt extension loc dir ↔
      ∃ name ∈ t.entries loc, p = dir.child name ∧ isSchemaName extension name = true ∧
        ∃ bytes, t.nodeAt p = .ok (.file bytes) := by
  simp only [filesAt_eq, List.mem_map, List.mem_filter, decide_eq_true_eq, entryAt_eq_file_iff,
    Path.name_child, true_and]
  constructor
  · rintro ⟨name, ⟨hname, hfile⟩, rfl⟩
    exact ⟨name, hname, rfl, hfile⟩
  · rintro ⟨name, hname, rfl, hfile⟩
    exact ⟨name, ⟨hname, hfile⟩, rfl⟩

/-- A directory has no two entries of one name. -/
theorem nodup_entries (t : FileTree) (loc : Location) : (t.entries loc).Nodup :=
  nodup_sortedSet _

end SchemaAssembly.FileTree
