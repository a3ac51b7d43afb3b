import SchemaAssembly.Proofs.DependencyTrees

/-!
# Drawing a tree report

A tree report is drawn line by line, with one set of visited names that every unit joins before what
it depends on is drawn and leaves afterwards. What comes out is the forest of the model, in which a
branch is told by the names above and nothing is shared between branches (`treeReport_eq`).

* **one unit** — with its name among the visited ones or without, a unit adds its own line and what is
  drawn below it (`val_drawUnit_missing`, `val_drawUnit_repeated`, `val_drawUnit_expanded`);
* **one name** — so a name that is looked up adds the lines of the name unfolded below the visited
  names, if its dependencies do (`val_drawUnit_get?`);
* **all names** — by induction on the names off the branch and on the names still to be drawn
  (`val_drawDependencies`).

So the lines that are drawn for a name show it and what it depends on (`tree_shows_dependencies`).
What a forest looks like is said node by node in `DependencyTree.UnfoldsAt`: what is marked as
repeated, what as missing, and what stands below the rest.
-/

namespace SchemaAssembly

/-- The drawing with more lines. -/
def Drawing.addLines (d : Drawing) (lines : List String) : Drawing :=
  { d with lines := d.lines ++ lines }

theorem Drawing.addLines_addLines (d : Drawing) (front back : List String) :
    (d.addLines front).addLines back = d.addLines (front ++ back) := by
  rw [addLines, addLines, addLines, List.append_assoc]

/-- What is drawn below a name stays when the name leaves the branch. -/
theorem Drawing.Return.val_leave {d : Drawing} {line name : String} {more : List String}
    {below : (d.enter line name).Return} (h : below.1 = (d.enter line name).addLines more) :
    below.leave.1 = d.addLines (line :: more) := by
  simp only [leave, h, addLines, enter, List.erase_cons_head, List.append_assoc,
    List.singleton_append]

namespace SchemaModel

open DependencyTree

variable {m : SchemaModel} {style : TreeStyle} {tested : List String}
  {connection indentation name : String} {d : Drawing} {u : SchemaUnit}

/-! ### What is drawn -/

/-- A name that no unit has is one line. -/
theorem val_drawUnit_missing (h : name ∉ d.visited) :
    (m.drawUnit style tested connection indentation name none d).1 =
      d.addLines [connection ++ (missing name).label tested] := by
  rw [drawUnit]
  simp only [if_neg h, String.append_empty]
  rfl

/-- A unit that the branch holds is one line. -/
theorem val_drawUnit_repeated (h : name ∈ d.visited) :
    (m.drawUnit style tested connection indentation name (some u) d).1 =
      d.addLines [connection ++ (repeated u).label tested] := by
  rw [drawUnit]
  simp only [if_pos h, dif_pos h]
  rfl

/-- For any other unit what it depends on is drawn while the branch holds its name. -/
theorem drawUnit_of_not_mem (h : name ∉ d.visited) :
    m.drawUnit style tested connection indentation name (some u) d =
      (m.drawDependencies style tested indentation (sortedSet u.dependencies)
        (d.enter (connection ++ u.label tested) name)).leave := by
  have hlabel : labelOf tested name (some u) ++ (if name ∈ d.visited then " [*]" else "") =
      u.label tested := by
    rw [if_neg h, String.append_empty, labelOf]
  rw [drawUnit]
  simp only [dif_neg h]
  rw [hlabel]

/-- It is a line and whatever is drawn then. -/
theorem val_drawUnit_expanded {children : List DependencyTree} (h : name ∉ d.visited)
    (hbelow : ∀ e : Drawing, e.visited = name :: d.visited →
      (m.drawDependencies style tested indentation (sortedSet u.dependencies) e).1 =
        e.addLines (linesOfChildren style tested indentation children)) :
    (m.drawUnit style tested connection indentation name (some u) d).1 =
      d.addLines ((connection ++ (expanded u children).label tested) ::
        linesOfChildren style tested indentation children) := by
  rw [drawUnit_of_not_mem h, Drawing.Return.val_leave (hbelow _ rfl)]
  rfl

/-- **One name** is drawn as it unfolds below the branch, if what it depends on is. -/
theorem val_drawUnit_get? (hbranch : ∀ n ∈ d.visited, n ∈ m.names)
    (hbelow : ∀ u, m.get? name = some u → name ∉ d.visited →
      ∀ e : Drawing, e.visited = name :: d.visited →
        (m.drawDependencies style tested indentation (sortedSet u.dependencies) e).1 =
          e.addLines (linesOfChildren style tested indentation
            ((sortedSet u.dependencies).map (m.unfold (name :: d.visited))))) :
    (m.drawUnit style tested connection indentation name (m.get? name) d).1 =
      d.addLines ((connection ++ (m.unfold d.visited name).label tested) ::
        linesBelow style tested indentation (m.unfold d.visited name)) := by
  rw [unfold]
  split
  · rename_i hu
    rw [hu]
    refine val_drawUnit_missing fun hmem => ?_
    obtain ⟨u, hsome⟩ := exists_get?_eq_some (hbranch name hmem)
    rw [hu] at hsome
    cases hsome
  · rename_i u hu
    rw [hu]
    split
    · rename_i hvisited
      exact val_drawUnit_repeated hvisited
    · rename_i hnew
      exact val_drawUnit_expanded hnew (hbelow u hu hnew)

/-- **All names** are drawn as they unfold below the branch. -/
theorem val_drawDependencies (hbranch : ∀ n ∈ d.visited, n ∈ m.names) (names : List String)
    (indentation : String) :
    (m.drawDependencies style tested indentation names d).1 =
      d.addLines (linesOfChildren style tested indentation (names.map (m.unfold d.visited))) := by
  -- a name that joins the branch leaves fewer off it, whatever the names that follow it
  induction hsize : (m.namesOff d.visited).length using Nat.strongRecOn
    generalizing names indentation d with
  | ind size ihbranch =>
    induction names generalizing d with
    | nil =>
      rw [drawDependencies, List.map_nil, linesOfChildren, Drawing.addLines, List.append_nil]
    | cons name rest ih =>
      have hfirst : ∀ connection deeper,
          (m.drawUnit style tested connection deeper name (m.get? name) d).1 =
            d.addLines ((connection ++ (m.unfold d.visited name).label tested) ::
              linesBelow style tested deeper (m.unfold d.visited name)) := by
        refine fun connection deeper => val_drawUnit_get? hbranch fun u hu hnew e he => ?_
        have hname := mem_names_iff.2 ⟨u, mem_of_get?_eq_some hu⟩
        rw [← he]
        refine ihbranch _ ?_ ?_ _ _ rfl
        · rw [he, ← hsize]
          exact length_namesOff_cons_lt hu hnew
        · rw [he]
          exact List.forall_mem_cons.2 ⟨hname, hbranch⟩
      rw [drawDependencies, List.map_cons, linesOfChildren, List.isEmpty_map]
      simp only [Drawing.Return.andThen]
      rw [ih, hfirst, Drawing.addLines_addLines]
      · rfl
      · rw [hfirst]
        exact hbranch
      · rw [hfirst]
        exact hsize

/-- The tree of a root is drawn as it is. -/
theorem val_drawUnit_root (hu : u ∈ m.units) (lines : List String) :
    (m.drawUnit style tested "" "" u.name (some u) ⟨[], lines⟩).1.lines =
      lines ++ (m.tree u).lines style tested := by
  have hbelow : ∀ e : Drawing, e.visited = [u.name] →
      (m.drawDependencies style tested "" (sortedSet u.dependencies) e).1 =
        e.addLines (linesOfChildren style tested ""
          ((sortedSet u.dependencies).map (m.unfold [u.name]))) := by
    intro e he
    rw [← he]
    refine val_drawDependencies (fun n hn => ?_) _ _
    rw [he, List.mem_singleton] at hn
    exact mem_names_iff.2 ⟨u, hu, hn.symm⟩
  rw [val_drawUnit_expanded List.not_mem_nil hbelow, String.empty_append, Drawing.addLines,
    DependencyTree.lines, tree, linesBelow]

/-- **The tree of a name shows its dependencies.** Every name of a model has a newest revision. What is
drawn for it, after whatever lines, is a line for each node of its tree, and what they show are the
name and all that it depends on, and no other name. -/
theorem tree_shows_dependencies {n : String} (hn : n ∈ m.names) :
    ∃ u, m.get? n = some u ∧
      (∀ style tested before,
        (m.drawUnit style tested "" "" n (some u) ⟨[], before⟩).1.lines =
            before ++ (m.tree u).lines style tested ∧
          List.Forall₂ (LineFor style tested) ((m.tree u).lines style tested) (m.tree u).nodes) ∧
      ∀ x, x ∈ (m.tree u).nodes.map DependencyTree.name ↔ x = n ∨ x ∈ m.dependencies n := by
  obtain ⟨u, hu⟩ := exists_get?_eq_some hn
  obtain ⟨hmem, rfl⟩ := mem_of_get?_eq_some hu
  exact ⟨u, hu, fun style tested before =>
      ⟨val_drawUnit_root hmem before, forall₂_lines style tested _⟩,
    fun x => mem_names_tree_iff hu⟩

/-- The newest revision of `a` and two other units depend on each other, one of them on itself and one
on a name that no unit has. -/
def knotted : SchemaModel where
  units :=
    [{ name := "a", imports := ["z"] },
      { name := "a", revision := some "2024-01-01", imports := ["b"], includes := ["c", "b"] },
      { name := "b", imports := ["a", "gone"] },
      { name := "c", imports := ["c", "b"] }]
  ordered := by decide

theorem names_knotted :
    (knotted.get? "a").map (fun u => (knotted.tree u).nodes.map DependencyTree.name) =
      some ["a", "b", "a", "gone", "c", "b", "a", "gone", "c"] := by
  cbv

/-- The tree of `a` is cut at `a` and at `c`, and `b` comes twice; the older revision of `a` does not
count. -/
theorem tree_shows_dependencies_knotted :
    "a" ∈ knotted.names ∧
    (knotted.get? "a").map (fun u =>
        (knotted.drawUnit .plain ["c"] "" "" "a" (some u) ⟨[], []⟩).1.lines) =
      some ["a@2024-01-01", "|-- b", "|   |-- a@2024-01-01 [*]", "|   \\-- gone [MISSING]",
        "\\-- c [tested]", "    |-- b", "    |   |-- a@2024-01-01 [*]",
        "    |   \\-- gone [MISSING]", "    \\-- c [tested] [*]"] ∧
    ∀ x, x ∈ ["a", "b", "gone", "c"] ↔ x = "a" ∨ x ∈ knotted.dependencies "a" := by
  have ha : "a" ∈ knotted.names := by decide +kernel
  refine ⟨ha, ?_, fun x => ?_⟩
  · cbv
  · obtain ⟨u, hu, -, hnames⟩ := tree_shows_dependencies ha
    have hshown := names_knotted
    rw [hu, Option.map_some, Option.some.injEq] at hshown
    rw [← hnames x, hshown]
    simp only [List.mem_cons, List.not_mem_nil, or_false]
    tauto

/-- Roots are drawn one after another, with an empty line between two of them. -/
theorem drawRoots_eq (roots : List SchemaUnit) (lines : List String)
    (h : ∀ u ∈ roots, u ∈ m.units) :
    m.drawRoots style tested roots lines =
      lines ++ [""].intercalate (roots.map fun u => (m.tree u).lines style tested) := by
  induction roots generalizing lines with
  | nil => rw [drawRoots, List.map_nil, List.intercalate_nil, List.append_nil]
  | cons u rest ih =>
    rw [List.forall_mem_cons] at h
    rw [drawRoots, val_drawUnit_root h.1, ih _ h.2]
    cases rest with
    | nil => simp
    | cons next rest => simp [List.intercalate_cons_cons]

/-- The units that trees start at, in model order. -/
theorem treeRoots_eq_filter (m : SchemaModel) (tested : List String) (showAll : Bool) :
    m.treeRoots tested showAll =
      m.units.filter fun u => showAll || tested.isEmpty || tested.contains u.name := by
  rw [treeRoots]
  cases showAll <;> cases tested.isEmpty <;> simp

/-- **What is drawn is the forest.** -/
theorem treeReport_eq (m : SchemaModel) (tested : List String) (style : TreeStyle)
    (showAll : Bool) :
    m.treeReport tested style showAll = Text.joinLines ([""].intercalate
      ((m.forest tested showAll).map fun tree => tree.lines style tested)) := by
  rw [treeReport, drawRoots_eq, List.nil_append, forest, List.map_map]
  · rfl
  · intro u hu
    rw [treeRoots_eq_filter] at hu
    exact (List.mem_filter.1 hu).1

end SchemaModel

/-! ### What a forest looks like -/

namespace DependencyTree

/-- **A node of a tree** below nodes of these names, the nearest first. -/
inductive Below (tree : DependencyTree) : List String → DependencyTree → Prop
  /-- the root is below nothing -/
  | root : Below tree [] tree
  /-- a child is below its parent and below whatever that is -/
  | child {above : List String} {u : SchemaUnit} {children : List DependencyTree}
    {child : DependencyTree} : Below tree above (expanded u children) → child ∈ children →
      Below tree (u.name :: above) child

theorem name_unfold (m : SchemaModel) (branch : List String) (n : String) :
    (m.unfold branch n).name = n := by
  fun_cases SchemaModel.unfold m branch n with
  | case1 => rfl
  | case2 u hu _ => exact (SchemaModel.mem_of_get?_eq_some hu).2
  | case3 u hu _ => exact (SchemaModel.mem_of_get?_eq_some hu).2

theorem map_name_unfold (m : SchemaModel) (branch names : List String) :
    (names.map (m.unfold branch)).map name = names := by
  simp [name_unfold, Function.comp_def]

/-- **How a model unfolds at a node**, given the names of the nodes above it. -/
structure UnfoldsAt (m : SchemaModel) (above : List String) (node : DependencyTree) : Prop where
  /-- a node is marked as repeated exactly if one above it has its name -/
  repeated_iff : (∃ u, node = repeated u) ↔ node.name ∈ above
  /-- it is marked as missing exactly if no unit has its name -/
  missing_iff : (∃ n, node = missing n) ↔ ∀ u ∈ m.units, u.name ≠ node.name
  /-- unless it is the root, it stands for the newest revision of its name -/
  newest : above ≠ [] → ∀ u, (node = repeated u ∨ ∃ children, node = expanded u children) →
    m.get? node.name = some u
  /-- what it depends on stands below it, each name once and in order, if anything does -/
  children : ∀ u children, node = expanded u children →
    children.map name = sortedSet u.dependencies

end DependencyTree

namespace SchemaModel

open DependencyTree

variable {m : SchemaModel} {above : List String} {node : DependencyTree} {u : SchemaUnit}

theorem unfoldsAt_tree (hu : u ∈ m.units) : UnfoldsAt m [] (m.tree u) where
  repeated_iff := by simp [tree]
  missing_iff := by
    refine iff_of_false (by simp [tree]) fun h => h u hu rfl
  newest := fun h => absurd rfl h
  children := by
    rintro v children h
    cases h
    exact map_name_unfold m _ _

theorem unfoldsAt_unfold (habove : ∀ n ∈ above, n ∈ m.names) (n : String) :
    UnfoldsAt m above (m.unfold above n) := by
  fun_cases unfold m above n with
  | case1 hu =>
    have hn : n ∉ m.names := by
      intro hmem
      obtain ⟨u, hsome⟩ := exists_get?_eq_some hmem
      rw [hu] at hsome
      cases hsome
    refine ⟨iff_of_false (by simp) fun hmem => hn (habove n hmem), ?_, by simp, by simp⟩
    refine iff_of_true ⟨n, rfl⟩ fun u hu hname => hn (mem_names_iff.2 ⟨u, hu, hname⟩)
  | case2 u hu hbranch =>
    obtain ⟨hmem, rfl⟩ := mem_of_get?_eq_some hu
    refine ⟨iff_of_true ⟨u, rfl⟩ hbranch, iff_of_false (by simp) fun h => h u hmem rfl, ?_, by simp⟩
    rintro - v (h | ⟨children, h⟩)
    · cases h
      exact hu
    · cases h
  | case3 u hu hbranch =>
    obtain ⟨hmem, rfl⟩ := mem_of_get?_eq_some hu
    refine ⟨iff_of_false (by simp) hbranch, iff_of_false (by simp) fun h => h u hmem rfl, ?_, ?_⟩
    · rintro - v (h | ⟨children, h⟩)
      · cases h
      · cases h
        exact hu
    · rintro v children h
      cases h
      exact map_name_unfold m _ _

/-- A node below the root of a tree is a name unfolded below the names above it. -/
theorem eq_tree_or_unfold_of_below (hu : u ∈ m.units) (h : (m.tree u).Below above node) :
    above = [] ∧ node = m.tree u ∨
      (∀ n ∈ above, n ∈ m.names) ∧ ∃ n, node = m.unfold above n := by
  induction h with
  | root => exact Or.inl ⟨rfl, rfl⟩
  | @child above v children child _ hchild ih =>
    obtain ⟨rfl, hnode⟩ | ⟨hnames, n, hnode⟩ := ih
    · cases hnode
      obtain ⟨n, -, rfl⟩ := List.mem_map.1 hchild
      refine Or.inr ⟨fun x hx => ?_, n, rfl⟩
      rw [List.mem_singleton] at hx
      exact mem_names_iff.2 ⟨u, hu, hx.symm⟩
    · -- a node with children is a unit whose name was not above it
      revert hnode
      fun_cases unfold m above n with
      | case1 => exact fun h => nomatch h
      | case2 => exact fun h => nomatch h
      | case3 w hw _ =>
        intro hnode
        cases hnode
        obtain ⟨hmem, rfl⟩ := mem_of_get?_eq_some hw
        obtain ⟨x, -, rfl⟩ := List.mem_map.1 hchild
        exact Or.inr ⟨List.forall_mem_cons.2 ⟨mem_names_iff.2 ⟨v, hmem, rfl⟩, hnames⟩, x, rfl⟩

theorem unfoldsAt_of_below (hu : u ∈ m.units) (h : (m.tree u).Below above node) :
    UnfoldsAt m above node := by
  obtain ⟨rfl, rfl⟩ | ⟨hnames, n, rfl⟩ := eq_tree_or_unfold_of_below hu h
  · exact unfoldsAt_tree hu
  · exact unfoldsAt_unfold hnames n

/-! ### Every call -/

mutual

/-- **A unit adds lines and changes nothing else**, whatever has been visited before it. -/
theorem exists_val_drawUnit (m : SchemaModel) (style : TreeStyle) (tested : List String)
    (connection indentation name : String) (unit? : Option SchemaUnit) (d : Drawing) :
    ∃ more, (m.drawUnit style tested connection indentation name unit? d).1 = d.addLines more := by
  match unit? with
  | none =>
    rw [drawUnit]
    exact ⟨[_], rfl⟩
  | some u =>
    by_cases hvisited : name ∈ d.visited
    · exact ⟨[_], val_drawUnit_repeated hvisited⟩
    · obtain ⟨more, hmore⟩ := exists_val_drawDependencies m style tested indentation
        (sortedSet u.dependencies) (d.enter (connection ++ u.label tested) name)
      exact ⟨_, by rw [drawUnit_of_not_mem hvisited, Drawing.Return.val_leave hmore]⟩
termination_by (m.growth d.visited name unit?, 0)
decreasing_by exact Prod.Lex.left _ _ (length_namesOff_cons_lt_growth hvisited u)

theorem exists_val_drawDependencies (m : SchemaModel) (style : TreeStyle) (tested : List String)
    (indentation : String) (names : List String) (d : Drawing) :
    ∃ more, (m.drawDependencies style tested indentation names d).1 = d.addLines more := by
  match names with
  | [] =>
    rw [drawDependencies]
    exact ⟨[], by rw [Drawing.addLines, List.append_nil]⟩
  | name :: rest =>
    rw [drawDependencies]
    simp only [Drawing.Return.andThen]
    obtain ⟨front, hfront⟩ := exists_val_drawUnit m style tested
      (indentation ++ if rest.isEmpty then style.last else style.branch)
      (indentation ++ if rest.isEmpty then style.space else style.vertical) name (m.get? name) d
    rw [hfront]
    obtain ⟨back, hback⟩ :=
      exists_val_drawDependencies m style tested indentation rest (d.addLines front)
    exact ⟨front ++ back, by rw [hback, Drawing.addLines_addLines]⟩
termination_by ((m.namesOff d.visited).length, names.length + 1)
decreasing_by
  · rw [growth_get?]
    exact Prod.Lex.right _ (Nat.succ_pos _)
  · exact Prod.Lex.right _ (Nat.lt_succ_self _)

end

/-- **The tree report is the forest of the model, cut where a name comes again.** Its lines are those
of the trees, from top to bottom, with an empty line between two trees. The trees are those of the
tested units, or of all units if that is asked for or none is tested, and every node in them is what
the model and the names above it say. Drawing one unit more adds lines and leaves the visited names as
they were. -/
theorem treeReport_unfolds (m : SchemaModel) (tested : List String) (style : TreeStyle)
    (showAll : Bool) :
    m.treeReport tested style showAll = Text.joinLines ([""].intercalate
      ((m.forest tested showAll).map fun tree => tree.lines style tested)) ∧
    m.forest tested showAll = (m.units.filter fun u =>
      showAll || tested.isEmpty || tested.contains u.name).map m.tree ∧
    (∀ u ∈ m.units, (∃ children, m.tree u = expanded u children) ∧
      ∀ above node, (m.tree u).Below above node → UnfoldsAt m above node) ∧
    ∀ connection indentation name unit? d, ∃ more,
      (m.drawUnit style tested connection indentation name unit? d).1 = d.addLines more := by
  refine ⟨m.treeReport_eq tested style showAll, ?_, fun u hu => ⟨⟨_, rfl⟩, fun above node => ?_⟩, ?_⟩
  · rw [forest, treeRoots_eq_filter]
  · exact unfoldsAt_of_below hu
  · exact fun connection indentation name unit? d =>
      exists_val_drawUnit m style tested connection indentation name unit? d

/-- Below `c` the branch through `b` holds `b` and `c` and leaves neither to the tree of `b`. -/
example : knotted.treeReport ["b", "c"] .plain false = Text.joinLines
    ["b [tested]", "|-- a@2024-01-01", "|   |-- b [tested] [*]", "|   \\-- c [tested]",
      "|       |-- b [tested] [*]", "|       \\-- c [tested] [*]", "\\-- gone [MISSING]", "",
      "c [tested]", "|-- b [tested]", "|   |-- a@2024-01-01", "|   |   |-- b [tested] [*]",
      "|   |   \\-- c [tested] [*]", "|   \\-- gone [MISSING]", "\\-- c [tested] [*]"] := by
  cbv

end SchemaModel

end SchemaAssembly
