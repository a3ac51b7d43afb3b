import Mathlib.Data.List.Nodup
import SchemaAssembly.Proofs.Entries

/-!
# The directories a scan visits

A scan is the list of the directories it visits, each with what it holds. `FileTree.visitStack` goes
through a stack the way `FileTree.scanStack` does, but keeps the directories instead of what they
hold; the two are connected by `filterMap_file?_scanStack`.

What is proved about the walk holds for every stack and every way to bound its depth:

- `nodup_visitStack`: no location is visited twice, and none that was visited before;
- `visitStack_induction`: what holds of the stack and is passed on to what a visit stacks holds of
  every visit;
- `exists_visit_of_mem_stack` and `exists_visit_of_mem_stacked`: what is on the stack, and what a
  visit stacks, is visited.
-/

namespace SchemaAssembly

/-- A directory that a scan lists. -/
structure Visit where
  /-- the path by which it was reached -/
  path : Path
  /-- how many steps below the root it was reached -/
  depth : Nat
  /-- where it lies -/
  location : Location
  deriving DecidableEq, Repr

namespace FileTree

/-- What a visit puts on the stack: the subdirectories, unless they lie too deep. -/
def stacked (t : FileTree) (o : ScanOptions) (v : Visit) : List (Path × Nat) :=
  (if o.descends v.depth then subdirectories (t.entriesAt o.extension v.location v.path)
    else []).map fun path => (path, v.depth + 1)

/-- The visits that a stack leads to. -/
def visitStack (t : FileTree) (o : ScanOptions) (visited : List Location) :
    (stack : List (Path × Nat)) → List Visit
  | [] => []
  | (dir, depth) :: rest =>
    match t.directoryAt dir with
    | .error _ => t.visitStack o visited rest
    | .ok ⟨loc, _hdir⟩ =>
      if _hvisited : loc ∈ visited then t.visitStack o visited rest
      else
        ⟨dir, depth, loc⟩ ::
          t.visitStack o (loc :: visited) (t.stacked o ⟨dir, depth, loc⟩ ++ rest)
termination_by stack => ((t.unvisited visited).length, stack.length)
decreasing_by
  · exact Prod.Lex.right _ (by simp)
  · exact Prod.Lex.right _ (by simp)
  · exact Prod.Lex.left _ _ (length_unvisited_cons_lt _hdir _hvisited)

/-- **The visits** of a scan, in order. -/
def visits (t : FileTree) (o : ScanOptions) (root : Path) : List Visit :=
  t.visitStack o [] [(root, 0)]

section

variable {t : FileTree} {o : ScanOptions} {visited : List Location} {stack : List (Path × Nat)}
  {v : Visit} {x : Path × Nat} {root : Path}

/-- A visit stacks the entries that lead to directories, if it stacks anything. -/
theorem mem_stacked :
    x ∈ t.stacked o v ↔ o.descends v.depth = true ∧ ∃ name ∈ t.entries v.location,
      t.nodeAt (v.path.child name) = .ok .directory ∧ x = (v.path.child name, v.depth + 1) := by
  by_cases hdescends : o.descends v.depth = true
  · rw [stacked, if_pos hdescends, List.mem_map, and_iff_right hdescends]
    constructor
    · rintro ⟨path, hpath, rfl⟩
      obtain ⟨name, hname, rfl, hnode⟩ := mem_subdirectories_entriesAt.1 hpath
      exact ⟨name, hname, hnode, rfl⟩
    · rintro ⟨name, hname, hnode, rfl⟩
      exact ⟨_, mem_subdirectories_entriesAt.2 ⟨name, hname, rfl, hnode⟩, rfl⟩
  · simp [stacked, hdescends]

/-! ### A scan as its visits -/

/-- The files that a stack leads to are those of the directories visited, one after the other. -/
theorem filterMap_file?_scanStack (t : FileTree) (o : ScanOptions) (visited : List Location)
    (stack : List (Path × Nat)) :
    (t.scanStack o visited stack).filterMap Finding.file? =
      (t.visitStack o visited stack).flatMap fun v => t.filesAt o.extension v.location v.path := by
  fun_induction visitStack t o visited stack with
  | case1 => simp [scanStack]
  | case2 visited dir depth rest fault hdir ih =>
    rw [scanStack]
    simp only [hdir]
    exact ih
  | case3 visited dir depth rest loc _ hdir hvisited ih =>
    rw [scanStack]
    simp only [hdir, dif_pos hvisited]
    exact ih
  | case4 visited dir depth rest loc _ hdir hvisited ih =>
    rw [scanStack]
    simp only [hdir, dif_neg hvisited, List.filterMap_append, List.flatMap_cons]
    rw [← ih]
    rfl

/-- The subdirectories that a visit stacks can be opened. -/
theorem exists_directoryAt_of_mem_stacked (h : x ∈ t.stacked o v) :
    ∃ place, t.directoryAt x.1 = .ok place := by
  obtain ⟨-, name, -, hnode, rfl⟩ := mem_stacked.1 h
  obtain ⟨loc, hresolve, hnode⟩ := nodeAt_eq_ok_iff.1 hnode
  exact ⟨⟨loc, mem_directories_iff.2 hnode⟩, directoryAt_eq_ok_iff.2 hresolve⟩

/-- What a stack leads to: what is found in the directories visited, and paths of the stack itself
that cannot be opened. -/
theorem mem_scanStack {finding : Finding} (h : finding ∈ t.scanStack o visited stack) :
    (∃ x ∈ stack, ∃ fault, t.directoryAt x.1 = .error fault ∧
      finding = .unreadableDirectory x.1 fault) ∨
    ∃ v ∈ t.visitStack o visited stack,
      finding ∈ findings (t.entriesAt o.extension v.location v.path) := by
  fun_induction visitStack t o visited stack with
  | case1 =>
    rw [scanStack] at h
    cases h
  | case2 visited dir depth rest fault hdir ih =>
    rw [scanStack] at h
    simp only [hdir] at h
    rcases List.mem_cons.1 h with rfl | h
    · exact Or.inl ⟨_, List.mem_cons_self, fault, hdir, rfl⟩
    · refine (ih h).imp_left ?_
      rintro ⟨x, hx, hfault⟩
      exact ⟨x, List.mem_cons_of_mem _ hx, hfault⟩
  | case3 visited dir depth rest loc _ hdir hvisited ih =>
    rw [scanStack] at h
    simp only [hdir, dif_pos hvisited] at h
    refine (ih h).imp_left ?_
    rintro ⟨x, hx, hfault⟩
    exact ⟨x, List.mem_cons_of_mem _ hx, hfault⟩
  | case4 visited dir depth rest loc _ hdir hvisited ih =>
    rw [scanStack] at h
    simp only [hdir, dif_neg hvisited] at h
    rcases List.mem_append.1 h with h | h
    · exact Or.inr ⟨_, List.mem_cons_self, h⟩
    obtain ⟨x, hx, fault, hfault, rfl⟩ | ⟨v, hv, h⟩ := ih h
    · -- what was stacked just now can be opened
      rcases List.mem_append.1 hx with hx | hx
      · obtain ⟨place, hplace⟩ := exists_directoryAt_of_mem_stacked hx
        rw [hplace] at hfault
        cases hfault
      · exact Or.inl ⟨x, List.mem_cons_of_mem _ hx, fault, hfault, rfl⟩
    · exact Or.inr ⟨v, List.mem_cons_of_mem _ hv, h⟩

/-- A stack never breaks a scan off: that is for the root alone, before there is a stack. -/
theorem unusable?_of_mem_scanStack {finding : Finding}
    (h : finding ∈ t.scanStack o visited stack) : finding.unusable? = none := by
  obtain ⟨x, -, fault, -, rfl⟩ | ⟨v, -, hfinding⟩ := mem_scanStack h
  · rfl
  · obtain ⟨name, -, hentry⟩ := mem_findings_entriesAt.1 hfinding
    obtain rfl | rfl := eq_of_entryAt_eq_found hentry
    · rfl
    · rfl

/-- The system can be asked for every file found. -/
theorem isUsable_of_mem_sourcesBelow {p : Path} (hp : p ∈ t.sourcesBelow o root) :
    p.isUsable = true := by
  obtain ⟨finding, hfinding, hfile⟩ := List.mem_filterMap.1 hp
  rw [scan] at hfinding
  split at hfinding
  · obtain ⟨x, -, fault, -, rfl⟩ | ⟨v, -, hfinding⟩ := mem_scanStack hfinding
    · cases hfile
    · obtain ⟨name, -, hentry⟩ := mem_findings_entriesAt.1 hfinding
      obtain rfl | rfl := eq_of_entryAt_eq_found hentry
      · obtain rfl := Option.some.inj hfile
        obtain ⟨-, -, bytes, hnode⟩ := entryAt_eq_file_iff.1 hentry
        exact isUsable_of_nodeAt hnode
      · cases hfile
  · rw [List.mem_singleton.1 hfinding] at hfile
    cases hfile

/-! ### What is visited -/

/-- **No location is visited twice**, and none that was visited before. -/
theorem nodup_visitStack (t : FileTree) (o : ScanOptions) (visited : List Location)
    (stack : List (Path × Nat)) :
    ((t.visitStack o visited stack).map (·.location)).Nodup ∧
    ∀ v ∈ t.visitStack o visited stack, v.location ∉ visited := by
  fun_induction visitStack t o visited stack with
  | case1 => exact ⟨List.nodup_nil, fun _ hv => by cases hv⟩
  | case2 _ _ _ _ _ _ ih => exact ih
  | case3 _ _ _ _ _ _ _ _ ih => exact ih
  | case4 visited dir depth rest loc _ hdir hvisited ih =>
    obtain ⟨hnodup, hnew⟩ := ih
    refine ⟨?_, fun v hv => ?_⟩
    · rw [List.map_cons, List.nodup_cons]
      refine ⟨fun hmem => ?_, hnodup⟩
      obtain ⟨v, hv, hloc⟩ := List.mem_map.1 hmem
      exact hnew v hv (hloc ▸ List.mem_cons_self)
    · rcases List.mem_cons.1 hv with rfl | hv
      · exact hvisited
      · exact fun hmem => hnew v hv (List.mem_cons_of_mem _ hmem)

/-- **What the stack passes on.** A property of paths with depths that holds of the stack, and of
what every visit stacks if it holds of the visit, holds of all visits. -/
theorem visitStack_induction {P : Path × Nat → Prop} (hstack : ∀ x ∈ stack, P x)
    (hstacked : ∀ v, t.resolve v.path = .ok v.location → v.location ∈ t.directories →
      P (v.path, v.depth) → ∀ x ∈ t.stacked o v, P x) :
    ∀ v ∈ t.visitStack o visited stack,
      t.resolve v.path = .ok v.location ∧ v.location ∈ t.directories ∧ P (v.path, v.depth) := by
  fun_induction visitStack t o visited stack with
  | case1 => exact fun _ hv => by cases hv
  | case2 _ _ _ _ _ _ ih => exact ih fun x hx => hstack x (List.mem_cons_of_mem _ hx)
  | case3 _ _ _ _ _ _ _ _ ih => exact ih fun x hx => hstack x (List.mem_cons_of_mem _ hx)
  | case4 visited dir depth rest loc hloc hdir hvisited ih =>
    have hresolve := directoryAt_eq_ok_iff.1 hdir
    have hP := hstack _ List.mem_cons_self
    intro v hv
    rcases List.mem_cons.1 hv with rfl | hv
    · exact ⟨hresolve, hloc, hP⟩
    · refine ih (fun x hx => ?_) v hv
      rcases List.mem_append.1 hx with hx | hx
      · exact hstacked ⟨dir, depth, loc⟩ hresolve hloc hP x hx
      · exact hstack x (List.mem_cons_of_mem _ hx)

/-- A visit takes its path and its depth from the stack, or from what another visit stacks. -/
theorem mem_stack_or_stacked (hv : v ∈ t.visitStack o visited stack) :
    (v.path, v.depth) ∈ stack ∨
      ∃ w ∈ t.visitStack o visited stack, (v.path, v.depth) ∈ t.stacked o w := by
  fun_induction visitStack t o visited stack with
  | case1 => cases hv
  | case2 _ _ _ _ _ _ ih => exact (ih hv).imp_left (List.mem_cons_of_mem _)
  | case3 _ _ _ _ _ _ _ _ ih => exact (ih hv).imp_left (List.mem_cons_of_mem _)
  | case4 visited dir depth rest loc _ hdir hvisited ih =>
    rcases List.mem_cons.1 hv with rfl | hv
    · exact Or.inl List.mem_cons_self
    rcases ih hv with hstack | ⟨w, hw, hstacked⟩
    · rcases List.mem_append.1 hstack with hstacked | hstack
      · exact Or.inr ⟨_, List.mem_cons_self, hstacked⟩
      · exact Or.inl (List.mem_cons_of_mem _ hstack)
    · exact Or.inr ⟨w, List.mem_cons_of_mem _ hw, hstacked⟩

/-- **What is on the stack is visited**, now or before. -/
theorem exists_visit_of_mem_stack {place : { loc : Location // loc ∈ t.directories }}
    (hx : x ∈ stack) (hplace : t.directoryAt x.1 = .ok place) :
    place.1 ∈ visited ∨ ∃ v ∈ t.visitStack o visited stack, v.location = place.1 := by
  fun_induction visitStack t o visited stack with
  | case1 => cases hx
  | case2 visited dir depth rest fault hdir ih =>
    rcases List.mem_cons.1 hx with rfl | hx
    · rw [hdir] at hplace
      cases hplace
    · exact ih hx
  | case3 visited dir depth rest loc _ hdir hvisited ih =>
    rcases List.mem_cons.1 hx with rfl | hx
    · rw [hdir] at hplace
      cases hplace
      exact Or.inl hvisited
    · exact ih hx
  | case4 visited dir depth rest loc _ hdir hvisited ih =>
    rcases List.mem_cons.1 hx with rfl | hx
    · rw [hdir] at hplace
      cases hplace
      exact Or.inr ⟨_, List.mem_cons_self, rfl⟩
    · obtain h | ⟨v, hv, hloc⟩ := ih (List.mem_append_right _ hx)
      · rcases List.mem_cons.1 h with hloc | h
        · exact Or.inr ⟨_, List.mem_cons_self, hloc.symm⟩
        · exact Or.inl h
      · exact Or.inr ⟨v, List.mem_cons_of_mem _ hv, hloc⟩

/-- **What a visit stacks is visited**, now or before. -/
theorem exists_visit_of_mem_stacked {place : { loc : Location // loc ∈ t.directories }}
    (hv : v ∈ t.visitStack o visited stack) (hx : x ∈ t.stacked o v)
    (hplace : t.directoryAt x.1 = .ok place) :
    place.1 ∈ visited ∨ ∃ w ∈ t.visitStack o visited stack, w.location = place.1 := by
  fun_induction visitStack t o visited stack with
  | case1 => cases hv
  | case2 _ _ _ _ _ _ ih => exact ih hv
  | case3 _ _ _ _ _ _ _ _ ih => exact ih hv
  | case4 visited dir depth rest loc _ hdir hvisited ih =>
    -- the subdirectories of this visit are on the stack, those of later ones are stacked later
    have hlater : place.1 ∈ loc :: visited ∨
        ∃ w ∈ t.visitStack o (loc :: visited) (t.stacked o ⟨dir, depth, loc⟩ ++ rest),
          w.location = place.1 := by
      rcases List.mem_cons.1 hv with rfl | hv
      · exact exists_visit_of_mem_stack (List.mem_append_left _ hx) hplace
      · exact ih hv
    obtain h | ⟨w, hw, hloc⟩ := hlater
    · rcases List.mem_cons.1 h with hloc | h
      · exact Or.inr ⟨_, List.mem_cons_self, hloc.symm⟩
      · exact Or.inl h
    · exact Or.inr ⟨w, List.mem_cons_of_mem _ hw, hloc⟩

end

end FileTree

end SchemaAssembly
