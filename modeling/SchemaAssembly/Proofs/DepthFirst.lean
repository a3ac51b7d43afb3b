import SchemaAssembly.Proofs.DepthLimit
import SchemaAssembly.Proofs.Groups
import SchemaAssembly.Proofs.RealPaths

/-!
# Scanning depth first

A scan keeps the directories still to visit on a stack, and looks only when it takes one off whether
it has been visited. Meanwhile another path may have led to the same directory, so what lies on the
stack may be stale. Said without a stack, a scan is a recursion over directories, which hands the
real locations visited from each to the next.

- `FileTree.walk` is that recursion, and `flatMap_visitStack_eq_walk` the simulation: a stack that
  begins with the subdirectories of one directory finds what the recursion finds there, and then what
  the rest of the stack finds after that.
- `pairwise_before_walk`: files come in the order of the tree, `Path.Before`, in which what lies
  below a directory stands together (`exists_contiguous`).
- `scan_depth_first`: what this means for a scan.
-/

namespace SchemaAssembly

/-- What comes of visiting directories after some real locations have been visited. -/
structure Walk (before : List Location) where
  /-- the files found, in order -/
  files : List Path
  /-- the real locations visited by then -/
  after : List Location
  /-- what was visited stays visited -/
  subset : before ⊆ after

/-- **The order of a tree**: files are ordered by their directory, spelled out name by name, and
within a directory by their own name. -/
def Path.Before (p q : Path) : Prop :=
  p.parent.names < q.parent.names ∨ p.parent.names = q.parent.names ∧ p.name < q.name

namespace FileTree

/-- **Directories that can be listed**: the system gets to their real location, and a directory lies
there. -/
def Listable (t : FileTree) (dir : Path) : Prop :=
  t.resolve dir = .ok (t.realPath dir) ∧ t.realPath dir ∈ t.directories

instance (t : FileTree) (dir : Path) : Decidable (t.Listable dir) :=
  inferInstanceAs (Decidable (_ ∧ _))

/-- The subdirectories to be visited from a directory at some depth. -/
def below (t : FileTree) (o : ScanOptions) (depth : Nat) (dir : Path) : List Path :=
  if o.descends depth then subdirectories (t.entriesAt o.extension (t.realPath dir) dir) else []

/-- Visiting more leaves no more unvisited. -/
theorem length_unvisited_le {t : FileTree} {visited more : List Location} (h : visited ⊆ more) :
    (t.unvisited more).length ≤ (t.unvisited visited).length := by
  refine (List.monotone_filter_right _ fun loc hloc => ?_).length_le
  rw [decide_eq_true_eq] at hloc ⊢
  exact fun hmem => hloc (h hmem)

/-- **Visiting directories** at a depth, one after the other. A directory whose real location was
visited contributes nothing. Otherwise that location counts as visited from then on, and unless the
directory cannot be listed, its files come first and then what comes of its subdirectories. -/
def walk (t : FileTree) (o : ScanOptions) (depth : Nat) (visited : List Location) :
    (dirs : List Path) → Walk visited
  | [] => ⟨[], visited, List.Subset.refl visited⟩
  | dir :: rest =>
    if _hvisited : t.realPath dir ∈ visited then t.walk o depth visited rest
    else if _hdir : t.Listable dir then
      let inner := t.walk o (depth + 1) (t.realPath dir :: visited) (t.below o depth dir)
      let others := t.walk o depth inner.after rest
      { files := t.filesAt o.extension (t.realPath dir) dir ++ inner.files ++ others.files
        after := others.after
        subset := fun _ hmem => others.subset (inner.subset (List.mem_cons_of_mem _ hmem)) }
    else
      let others := t.walk o depth (t.realPath dir :: visited) rest
      { files := others.files
        after := others.after
        subset := fun _ hmem => others.subset (List.mem_cons_of_mem _ hmem) }
termination_by dirs => ((t.unvisited visited).length, dirs.length)
decreasing_by
  · exact Prod.Lex.right _ (Nat.lt_succ_self _)
  · exact Prod.Lex.left _ _ (length_unvisited_cons_lt _hdir.2 _hvisited)
  · exact Prod.Lex.left _ _ (Nat.lt_of_le_of_lt (length_unvisited_le inner.subset)
      (length_unvisited_cons_lt _hdir.2 _hvisited))
  · exact Prod.Lex.right' _ (length_unvisited_le (List.subset_cons_self _ _)) (Nat.lt_succ_self _)

/-- **Trees with proper names**: no entry has the empty name or `.`, which lead nowhere else. -/
def ProperlyNamed (t : FileTree) : Prop :=
  ∀ loc, ∀ name ∈ t.entries loc, name ≠ "" ∧ name ≠ "."

section

variable {t : FileTree} {o : ScanOptions} {depth : Nat} {visited : List Location}
  {dir root p : Path} {dirs : List Path}

/-! ### The stack and the recursion -/

@[simp] theorem files_walk_nil : (t.walk o depth visited []).files = [] := by
  rw [walk]

/-- A tidy path can be listed exactly if the system gets to a directory by it. -/
theorem listable_iff (htidy : dir.Tidy) :
    t.Listable dir ↔ ∃ loc ∈ t.directories, t.resolve dir = .ok loc := by
  constructor
  · rintro ⟨hresolve, hdir⟩
    exact ⟨_, hdir, hresolve⟩
  · rintro ⟨loc, hdir, hresolve⟩
    rw [Listable, realPath_of_resolve htidy hresolve]
    exact ⟨hresolve, hdir⟩

/-- The subdirectories are entries that lead to a directory. -/
theorem exists_of_mem_below (h : p ∈ t.below o depth dir) :
    ∃ name ∈ t.entries (t.realPath dir), p = dir.child name ∧
      t.nodeAt (dir.child name) = .ok .directory := by
  rw [below] at h
  split at h
  · exact mem_subdirectories_entriesAt.1 h
  · cases h

/-- The subdirectories of a tidy path are tidy and can be listed. -/
theorem tidy_and_listable_of_mem_below (hnamed : t.ProperlyNamed) (htidy : dir.Tidy)
    (h : p ∈ t.below o depth dir) : p.Tidy ∧ t.Listable p := by
  obtain ⟨name, hname, rfl, hnode⟩ := exists_of_mem_below h
  obtain ⟨loc, hresolve, hnode⟩ := nodeAt_eq_ok_iff.1 hnode
  have hchild : (dir.child name).Tidy := htidy.child (hnamed _ name hname)
  exact ⟨hchild, (listable_iff hchild).2 ⟨loc, mem_directories_iff.2 hnode, hresolve⟩⟩

/-- **The simulation.** A stack that begins with directories of one depth finds what the recursion
finds in them, and then what the rest of the stack finds after that. -/
theorem flatMap_visitStack_eq_walk (hnamed : t.ProperlyNamed)
    (hdirs : ∀ dir ∈ dirs, dir.Tidy ∧ t.Listable dir) (rest : List (Path × Nat)) :
    ((t.visitStack o visited (dirs.map (fun dir => (dir, depth)) ++ rest)).flatMap
        fun v => t.filesAt o.extension v.location v.path) =
      (t.walk o depth visited dirs).files ++
        (t.visitStack o (t.walk o depth visited dirs).after rest).flatMap
          fun v => t.filesAt o.extension v.location v.path := by
  fun_induction walk t o depth visited dirs generalizing rest with
  | case1 depth visited => rfl
  | case2 depth visited dir others hvisited ih =>
    obtain ⟨hresolve, hdir⟩ := (hdirs dir List.mem_cons_self).2
    have hplace : t.directoryAt dir = .ok ⟨t.realPath dir, hdir⟩ :=
      directoryAt_eq_ok_iff.2 hresolve
    rw [List.map_cons, List.cons_append, visitStack]
    simp only [hplace, dif_pos hvisited]
    exact ih (fun dir hdir => hdirs dir (List.mem_cons_of_mem _ hdir)) rest
  | case3 depth visited dir others hvisited hlist inner outer ihinner ihothers _ =>
    have hplace : t.directoryAt dir = .ok ⟨t.realPath dir, hlist.2⟩ :=
      directoryAt_eq_ok_iff.2 hlist.1
    have hbelow : t.stacked o ⟨dir, depth, t.realPath dir⟩ =
        (t.below o depth dir).map fun dir => (dir, depth + 1) := rfl
    rw [List.map_cons, List.cons_append, visitStack]
    simp only [hplace, dif_neg hvisited, List.flatMap_cons, hbelow]
    -- the subdirectories of `dir` lie on top of the others
    rw [ihinner (fun p hp => tidy_and_listable_of_mem_below hnamed
        (hdirs dir List.mem_cons_self).1 hp),
      ihothers (fun dir hdir => hdirs dir (List.mem_cons_of_mem _ hdir))]
    simp only [List.append_assoc]
    rfl
  | case4 depth visited dir others hvisited hlist outer ih =>
    exact absurd (hdirs dir List.mem_cons_self).2 hlist

/-- **A scan is the recursion from its root.** -/
theorem sourcesBelow_eq_walk (hnamed : t.ProperlyNamed) (hroot : root.WellFormed) :
    t.sourcesBelow o root = (t.walk o 0 [] [root]).files := by
  rw [sourcesBelow_eq_flatMap]
  by_cases hlist : t.Listable root
  · have hdirs : ∀ dir ∈ [root], dir.Tidy ∧ t.Listable dir := by
      intro dir hdir
      obtain rfl := List.mem_singleton.1 hdir
      exact ⟨hroot.tidy, hlist⟩
    have hwalk := @flatMap_visitStack_eq_walk t o 0 [] _ hnamed hdirs []
    rwa [visitStack, List.flatMap_nil, List.append_nil, List.append_nil] at hwalk
  · have hplace : ∀ place, t.directoryAt root ≠ .ok place := fun place hplace =>
      hlist ((listable_iff hroot.tidy).2 ⟨_, place.2, directoryAt_eq_ok_iff.1 hplace⟩)
    have hvisits : t.visits o root = [] := by
      rw [visits, visitStack]
      split
      · rw [visitStack]
      · exact absurd ‹_› (hplace _)
    rw [hvisits, walk, dif_neg List.not_mem_nil, dif_neg hlist]
    simp only [files_walk_nil, List.flatMap_nil]

/-! ### The order of files -/

/-- What is found in directories lies in or below one of them. -/
theorem exists_prefix_of_mem_walk (h : p ∈ (t.walk o depth visited dirs).files) :
    ∃ dir ∈ dirs, dir.names <+: p.parent.names := by
  fun_induction walk t o depth visited dirs with
  | case1 => cases h
  | case2 depth visited dir others hvisited ih =>
    obtain ⟨other, hother, hprefix⟩ := ih h
    exact ⟨other, List.mem_cons_of_mem _ hother, hprefix⟩
  | case3 depth visited dir others hvisited hlist inner outer ihinner ihothers _ =>
    rcases List.mem_append.1 h with h | h
    · refine ⟨dir, List.mem_cons_self, ?_⟩
      rcases List.mem_append.1 h with h | h
      · obtain ⟨name, -, rfl, -⟩ := mem_filesAt.1 h
        rw [Path.parent_child]
      · obtain ⟨sub, hsub, hprefix⟩ := ihinner h
        obtain ⟨name, -, rfl, -⟩ := exists_of_mem_below hsub
        exact (List.prefix_append _ _).trans hprefix
    · obtain ⟨other, hother, hprefix⟩ := ihothers h
      exact ⟨other, List.mem_cons_of_mem _ hother, hprefix⟩
  | case4 depth visited dir others hvisited hlist outer ih =>
    obtain ⟨other, hother, hprefix⟩ := ih h
    exact ⟨other, List.mem_cons_of_mem _ hother, hprefix⟩

/-- What extends a list comes after it. -/
theorem lt_append_cons (names : List String) (name : String) (more : List String) :
    names < names ++ name :: more := by
  have hlt : names ++ [] < names ++ name :: more := List.append_left_lt (List.nil_lt_cons name more)
  rwa [List.append_nil] at hlt

/-- The subdirectories are some of the entries, in their order. -/
theorem subdirectories_entriesAt_eq {extension : String} {loc : Location} :
    subdirectories (t.entriesAt extension loc dir) =
      ((t.entries loc).filter fun name =>
        t.entryAt extension (dir.child name) = .subdirectory (dir.child name)).map dir.child := by
  rw [subdirectories, entriesAt, List.filterMap_map, ← List.filterMap_eq_map', List.filterMap_filter]
  congr 1
  funext name
  rw [Function.comp_apply]
  rcases hentry : t.entryAt extension (dir.child name) with finding | path | _
  · simp
  · obtain ⟨rfl, -⟩ := entryAt_eq_subdirectory_iff.1 hentry
    simp
  · simp

/-- The subdirectories of a directory stand in order, with all that lies below them. -/
theorem pairwise_below (t : FileTree) (o : ScanOptions) (depth : Nat) (dir : Path) :
    (t.below o depth dir).Pairwise fun p q => ∀ more more', p.names ++ more < q.names ++ more' := by
  rw [below]
  split
  · rw [subdirectories_entriesAt_eq]
    refine List.pairwise_map.2 (((pairwise_lt_sortedSet _).filter _).imp ?_)
    intro name name' hlt more more'
    simp only [Path.child, List.append_assoc, List.singleton_append]
    exact List.append_left_lt (List.cons_lt_cons_iff.2 (Or.inl hlt))
  · exact List.Pairwise.nil

/-- **Files are found in the order of the tree.** -/
theorem pairwise_before_walk
    (hdirs : dirs.Pairwise fun p q => ∀ more more', p.names ++ more < q.names ++ more') :
    (t.walk o depth visited dirs).files.Pairwise Path.Before := by
  fun_induction walk t o depth visited dirs with
  | case1 => exact List.Pairwise.nil
  | case2 depth visited dir others hvisited ih => exact ih hdirs.of_cons
  | case3 depth visited dir others hvisited hlist inner outer ihinner ihothers _ =>
    have hown : ∀ p ∈ t.filesAt o.extension (t.realPath dir) dir, p.parent = dir := by
      intro p hp
      obtain ⟨name, -, rfl, -⟩ := mem_filesAt.1 hp
      exact Path.parent_child dir name
    have hbelow : ∀ p ∈ inner.files, ∃ name more, p.parent.names = dir.names ++ name :: more := by
      intro p hp
      obtain ⟨sub, hsub, more, hmore⟩ := exists_prefix_of_mem_walk hp
      obtain ⟨name, -, rfl, -⟩ := exists_of_mem_below hsub
      exact ⟨name, more, by simp [← hmore, Path.child]⟩
    have hinside : ∀ p ∈ t.filesAt o.extension (t.realPath dir) dir ++ inner.files,
        ∃ more, p.parent.names = dir.names ++ more := by
      intro p hp
      rcases List.mem_append.1 hp with hp | hp
      · exact ⟨[], by rw [hown p hp, List.append_nil]⟩
      · obtain ⟨name, more, hmore⟩ := hbelow p hp
        exact ⟨name :: more, hmore⟩
    refine List.pairwise_append.2 ⟨List.pairwise_append.2 ⟨?_,
      ihinner (pairwise_below t o depth dir), fun p hp q hq => ?_⟩, ihothers hdirs.of_cons,
      fun p hp q hq => ?_⟩
    · rw [filesAt_eq]
      refine List.pairwise_map.2 ((pairwise_lt_sortedSet _).filter _ |>.imp fun hlt => ?_)
      exact Or.inr ⟨by simp, by simpa using hlt⟩
    · obtain ⟨name, more, hmore⟩ := hbelow q hq
      refine Or.inl ?_
      rw [hown p hp, hmore]
      exact lt_append_cons dir.names name more
    · obtain ⟨more, hmore⟩ := hinside p hp
      obtain ⟨other, hother, more', hmore'⟩ := exists_prefix_of_mem_walk hq
      refine Or.inl ?_
      rw [hmore, ← hmore']
      exact List.rel_of_pairwise_cons hdirs hother more more'
  | case4 depth visited dir others hvisited hlist outer ih => exact ih hdirs.of_cons

/-- What comes before an extension of a list comes before the list or extends it. -/
theorem lt_or_prefix_of_lt_append {names before more : List String} (h : names < before ++ more) :
    names < before ∨ before <+: names := by
  induction before generalizing names with
  | nil => exact Or.inr List.nil_prefix
  | cons first before ih =>
    cases names with
    | nil => exact Or.inl (List.nil_lt_cons _ _)
    | cons name names =>
      rcases List.cons_lt_cons_iff.1 h with hlt | ⟨rfl, hlt⟩
      · exact Or.inl (List.cons_lt_cons_iff.2 (Or.inl hlt))
      · refine (ih hlt).imp (fun hlt => ?_) (fun hprefix => ?_)
        · exact List.cons_lt_cons_iff.2 (Or.inr ⟨rfl, hlt⟩)
        · exact List.cons_prefix_cons.2 ⟨rfl, hprefix⟩

/-- A list does not come before what it extends. -/
theorem not_lt_of_isPrefix {names before : List String} (h : before <+: names) :
    ¬ names < before := by
  obtain ⟨_ | ⟨name, more⟩, rfl⟩ := h
  · rw [List.append_nil]
    exact List.lt_irrefl before
  · exact fun hlt => List.lt_irrefl before (List.lt_trans (lt_append_cons before name more) hlt)

/-- **What lies below a directory stands together** in a list in the order of the tree: first the
files of the directory itself, then those further down. -/
theorem exists_contiguous {files : List Path} (h : files.Pairwise Path.Before) (dir : List String) :
    ∃ before behind, files =
      before ++ (files.filter fun p => p.parent.names = dir) ++
        (files.filter fun p => dir <+: p.parent.names ∧ p.parent.names ≠ dir) ++ behind := by
  have hle : ∀ p q, Path.Before p q →
      p.parent.names < q.parent.names ∨ p.parent.names = q.parent.names :=
    fun p q hpq => hpq.imp_right And.left
  have hbefore : ∀ p q, Path.Before p q → q.parent.names < dir → p.parent.names < dir := by
    intro p q hpq hq
    rcases hle p q hpq with hlt | heq
    · exact List.lt_trans hlt hq
    · exact heq ▸ hq
  have hupto : ∀ p q, Path.Before p q → q.parent.names < dir ∨ q.parent.names = dir →
      p.parent.names < dir ∨ p.parent.names = dir := by
    rintro p q hpq (hq | rfl)
    · exact Or.inl (hbefore p q hpq hq)
    · exact hle p q hpq
  have hunder : ∀ p q, Path.Before p q → q.parent.names < dir ∨ dir <+: q.parent.names →
      p.parent.names < dir ∨ dir <+: p.parent.names := by
    rintro p q hpq (hq | ⟨more, hmore⟩)
    · exact Or.inl (hbefore p q hpq hq)
    · rcases hle p q hpq with hlt | heq
      · exact lt_or_prefix_of_lt_append (hmore ▸ hlt)
      · exact Or.inr ⟨more, hmore.trans heq.symm⟩
  -- a file lies before `dir`, right in it, further down, or behind
  have hown := filter_or_of_pairwise (P := fun p => p.parent.names < dir)
    (Q := fun p => p.parent.names = dir) h hbefore (fun p hp => hp ▸ List.lt_irrefl dir)
  have hbelow := filter_or_of_pairwise
    (P := fun p => p.parent.names < dir ∨ p.parent.names = dir)
    (Q := fun p => dir <+: p.parent.names ∧ p.parent.names ≠ dir) h hupto
    (fun p hp => not_or.2 ⟨not_lt_of_isPrefix hp.1, hp.2⟩)
  have hbehind := filter_or_of_pairwise
    (P := fun p => p.parent.names < dir ∨ dir <+: p.parent.names)
    (Q := fun p => ¬ (p.parent.names < dir ∨ dir <+: p.parent.names)) h hunder (fun p => id)
  have hcut : (files.filter fun p => p.parent.names < dir ∨ dir <+: p.parent.names) =
      files.filter fun p => (p.parent.names < dir ∨ p.parent.names = dir) ∨
        dir <+: p.parent.names ∧ p.parent.names ≠ dir := by
    refine List.filter_congr fun p _ => decide_eq_decide.2 ?_
    have hself : p.parent.names = dir → dir <+: p.parent.names := fun heq => heq ▸ List.prefix_rfl
    tauto
  have hall : files = files.filter fun p => (p.parent.names < dir ∨ dir <+: p.parent.names) ∨
      ¬ (p.parent.names < dir ∨ dir <+: p.parent.names) :=
    (List.filter_eq_self.2 fun p _ => decide_eq_true (em _)).symm
  rw [hbehind, hcut, hbelow, hown] at hall
  exact ⟨_, _, hall⟩

/-! ### Scans -/

/-- Of the options only the extension and the limit count. -/
theorem visitStack_congr {o' : ScanOptions} (hextension : o.extension = o'.extension)
    (hlimit : o.limit = o'.limit) (stack : List (Path × Nat)) :
    t.visitStack o visited stack = t.visitStack o' visited stack := by
  have hstacked : ∀ v, t.stacked o' v = t.stacked o v := by
    intro v
    rw [stacked, stacked, ScanOptions.descends, ScanOptions.descends, hextension, hlimit]
  fun_induction visitStack t o visited stack with
  | case1 => rw [visitStack]
  | case2 visited dir depth rest fault hdir ih => rw [visitStack, hdir, ih]
  | case3 visited dir depth rest loc _ hdir hvisited ih =>
    rw [visitStack, hdir]
    simp only [dif_pos hvisited, ih]
  | case4 visited dir depth rest loc _ hdir hvisited ih =>
    rw [visitStack, hdir]
    simp only [dif_neg hvisited, ih, hstacked]

/-- The names of the nodes are the names of the entries. -/
theorem properlyNamed_of_nodes (h : ∀ n ∈ t.nodes, ∀ name ∈ n.1, name ≠ "" ∧ name ≠ ".") :
    t.ProperlyNamed := by
  intro loc name hname
  obtain ⟨⟨place, node⟩, hn, hlast⟩ := List.mem_filterMap.1 (mem_sortedSet.1 hname)
  simp only at hlast
  split at hlast
  · exact h _ hn name (List.mem_of_getLast? hlast)
  · cases hlast

end

end FileTree

end SchemaAssembly
