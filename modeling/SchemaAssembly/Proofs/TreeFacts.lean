import Mathlib
import SchemaAssembly.Proofs.TreeDrawing
import SchemaAssembly.Proofs.Words

/-!
# Facts in a tree

What is read off the text of a tree report is what the model says (`tells_treeReport`). A line is read
as a row with the depth and the name of its node and what is marked there (`forall₂_linesBelow_rows`),
and from the depths one learns what hangs below what (`pairsAfter_rowsBelow`). For that the names have
to be identifiers and the revisions may hold no blanks: `SchemaModel.Legible`.
-/

namespace SchemaAssembly

open Text (isOneWord isIdentifier)

/-- **A legible model**: reports of it can be read by words and lines. -/
structure SchemaModel.Legible (m : SchemaModel) : Prop where
  /-- units have identifiers as names -/
  name : ∀ u ∈ m.units, isIdentifier u.name = true
  /-- so have the units that they depend on -/
  dependency : ∀ u ∈ m.units, ∀ d ∈ u.dependencies, isIdentifier d = true
  /-- revisions hold no blanks -/
  revision : ∀ u ∈ m.units, ∀ revision, u.revision = some revision →
    ∀ c ∈ revision.toList, Text.isBlank c = false

/-- **A model that can be drawn line by line**: revisions may hold blanks, but no line feed. -/
structure SchemaModel.Drawable (m : SchemaModel) : Prop where
  /-- units have identifiers as names -/
  name : ∀ u ∈ m.units, isIdentifier u.name = true
  /-- so have the units that they depend on -/
  dependency : ∀ u ∈ m.units, ∀ d ∈ u.dependencies, isIdentifier d = true
  /-- revisions are on one line -/
  revision : ∀ u ∈ m.units, ∀ revision, u.revision = some revision → '\n' ∉ revision.toList

/-- A legible model can be drawn line by line. -/
theorem SchemaModel.Legible.drawable {m : SchemaModel} (hm : m.Legible) : m.Drawable where
  name := hm.name
  dependency := hm.dependency
  revision := by
    intro u hu revision hrevision hmem
    exact absurd (hm.revision u hu revision hrevision '\n' hmem) (by decide)

/-- **What a report has to say** about a model. -/
structure ReportFacts.Tells (facts : ReportFacts) (m : SchemaModel) (tested : List String) : Prop where
  /-- tested are the names given that have units -/
  tested_iff : ∀ name, name ∈ facts.tested ↔ name ∈ tested ∧ ∃ u ∈ m.units, u.name = name
  /-- missing are the names that units depend on and that no unit has -/
  missing_iff : ∀ name, name ∈ facts.missing ↔
    (∃ u ∈ m.units, name ∈ u.dependencies) ∧ ¬ ∃ u ∈ m.units, u.name = name
  /-- the pairs are the units with what they depend on -/
  pairs_iff : ∀ name d, (name, d) ∈ facts.pairs ↔ ∃ u ∈ m.units, u.name = name ∧ d ∈ u.dependencies

/-! ### What a line says -/

namespace SchemaUnit

/-- The first word on the line of a unit. -/
def heading (u : SchemaUnit) : String :=
  u.name ++ if u.revisionKey = "" then "" else "@" ++ u.revisionKey

/-- The words behind it. -/
def marks (tested : List String) (u : SchemaUnit) : List String :=
  (if u.kind = "submodule" then ["(submodule)"] else []) ++
    if tested.contains u.name then ["[tested]"] else []

theorem label_eq (tested : List String) (u : SchemaUnit) :
    u.label tested = " ".intercalate (u.heading :: u.marks tested) := by
  rw [label, marks, heading]
  cases tested.contains u.name <;> by_cases hkind : u.kind = "submodule" <;>
    simp [hkind, String.append_assoc]

end SchemaUnit

namespace DependencyTree

/-- The first word on the line of a node. -/
def heading : DependencyTree → String
  | missing name => name
  | repeated u | expanded u _ => u.heading

/-- The words behind it. -/
def marks (tested : List String) : DependencyTree → List String
  | missing _ => ["[MISSING]"]
  | repeated u => u.marks tested ++ ["[*]"]
  | expanded u _ => u.marks tested

theorem label_eq (tested : List String) (tree : DependencyTree) :
    tree.label tested = " ".intercalate (tree.heading :: tree.marks tested) := by
  cases tree with
  | missing name =>
    rw [label, heading, marks, String.intercalate_cons_cons, String.intercalate_singleton,
      String.append_assoc]
    rfl
  | expanded u children => exact u.label_eq tested
  | repeated u =>
    rw [label, u.label_eq, heading, marks, ← List.cons_append,
      String.intercalate_append_of_ne_nil (List.cons_ne_nil _ _) (List.cons_ne_nil _ _),
      String.intercalate_singleton, String.append_assoc]
    rfl

/-! ### Trees of a model -/

/-- **A tree of a model**: its nodes are units of the model, a unit that is expanded has its
dependencies below it, and a name that is missing is one that a unit depends on and no unit has. -/
inductive Of (m : SchemaModel) : DependencyTree → Prop
  /-- a missing name -/
  | missing {name : String} : (∃ u ∈ m.units, name ∈ u.dependencies) →
    m.contains name = false → Of m (.missing name)
  /-- a unit that comes again -/
  | repeated {u : SchemaUnit} : u ∈ m.units → Of m (.repeated u)
  /-- a unit with what it depends on -/
  | expanded {u : SchemaUnit} {children : List DependencyTree} : u ∈ m.units →
    children.map name = sortedSet u.dependencies → (∀ child ∈ children, Of m child) →
    Of m (.expanded u children)

variable {m : SchemaModel} {tested : List String} {tree : DependencyTree}

/-- What unfolds is a tree of the model. -/
theorem of_unfold {branch : List String} {n : String} (hn : ∃ u ∈ m.units, n ∈ u.dependencies) :
    Of m (m.unfold branch n) := by
  fun_induction SchemaModel.unfold m branch n with
  | case1 branch n hu =>
    refine .missing hn (Bool.eq_false_iff.2 fun hcontains => ?_)
    obtain ⟨u, hsome⟩ := SchemaModel.exists_get?_eq_some
      (SchemaModel.mem_names_iff.2 (SchemaModel.contains_iff.1 hcontains))
    rw [hu] at hsome
    cases hsome
  | case2 branch n u hu _ => exact .repeated (SchemaModel.mem_of_get?_eq_some hu).1
  | case3 branch n u hu _ ih =>
    have hmem := (SchemaModel.mem_of_get?_eq_some hu).1
    refine .expanded hmem ?_ fun child hchild => ?_
    · exact map_name_unfold m _ _
    · obtain ⟨d, hd, rfl⟩ := List.mem_map.1 hchild
      exact ih d ⟨u, hmem, mem_sortedSet.1 hd⟩

theorem of_tree {u : SchemaUnit} (hu : u ∈ m.units) : Of m (m.tree u) := by
  refine .expanded hu ?_ fun child hchild => ?_
  · exact map_name_unfold m _ _
  · obtain ⟨d, hd, rfl⟩ := List.mem_map.1 hchild
    exact of_unfold ⟨u, hu, mem_sortedSet.1 hd⟩

theorem Of.isIdentifier_name (hm : m.Drawable) (h : Of m tree) : isIdentifier tree.name = true := by
  cases h with
  | missing hdependency _ =>
    obtain ⟨u, hu, hd⟩ := hdependency
    exact hm.dependency u hu _ hd
  | repeated hu => exact hm.name _ hu
  | expanded hu _ _ => exact hm.name _ hu

section

variable (hm : m.Legible)

include hm

theorem not_isBlank_of_mem_revisionKey {u : SchemaUnit} (hu : u ∈ m.units) :
    ∀ c ∈ u.revisionKey.toList, Text.isBlank c = false := by
  rw [SchemaUnit.revisionKey]
  cases hrevision : u.revision with
  | none => exact fun c hc => absurd hc List.not_mem_nil
  | some revision => exact hm.revision u hu revision hrevision

/-- The name of a unit is what stands before the sign for its revision. -/
theorem heading_unit {u : SchemaUnit} (hu : u ∈ m.units) :
    isOneWord u.heading = true ∧ u.heading.toList.takeWhile (· ≠ '@') = u.name.toList := by
  have hname := hm.name u hu
  have hsign : ∀ c ∈ u.name.toList, decide (c ≠ '@') = true := by
    intro c hc
    rw [decide_eq_true_eq]
    rintro rfl
    exact Text.not_mem_of_isIdentifier hname (by decide) hc
  have hword := Text.isOneWord_of_isIdentifier hname
  rw [SchemaUnit.heading]
  split
  · rw [String.append_empty]
    exact ⟨hword, List.takeWhile_eq_self_iff.2 hsign⟩
  · refine ⟨Text.isOneWord_append hword (Text.isUnbroken_iff.2 fun c hc => ?_), ?_⟩
    · rw [String.toList_append, List.mem_append] at hc
      rcases hc with hc | hc
      · obtain rfl := List.mem_singleton.1 hc
        decide
      · exact not_isBlank_of_mem_revisionKey hm hu c hc
    · rw [String.toList_append, List.takeWhile_append_of_pos hsign, String.toList_append]
      exact List.append_nil _

theorem Of.heading (h : Of m tree) :
    isOneWord tree.heading = true ∧
      tree.heading.toList.takeWhile (· ≠ '@') = tree.name.toList := by
  have hname := h.isIdentifier_name hm.drawable
  cases h with
  | missing _ _ =>
    refine ⟨Text.isOneWord_of_isIdentifier hname, List.takeWhile_eq_self_iff.2 fun c hc => ?_⟩
    rw [decide_eq_true_eq]
    rintro rfl
    exact Text.not_mem_of_isIdentifier hname (by decide) hc
  | repeated hu => exact heading_unit hm hu
  | expanded hu _ _ => exact heading_unit hm hu

end

theorem isOneWord_of_mem_marks (tested : List String) (tree : DependencyTree) :
    ∀ word ∈ tree.marks tested, isOneWord word = true := by
  have hunit : ∀ u : SchemaUnit, ∀ word ∈ u.marks tested, isOneWord word = true := by
    intro u word hword
    rw [SchemaUnit.marks, List.mem_append] at hword
    rcases hword with hword | hword
    · split at hword
      · obtain rfl := List.mem_singleton.1 hword
        decide
      · cases hword
    · split at hword
      · obtain rfl := List.mem_singleton.1 hword
        decide
      · cases hword
  cases tree with
  | missing name =>
    intro word hword
    obtain rfl := List.mem_singleton.1 hword
    decide
  | expanded u children => exact hunit u
  | repeated u =>
    intro word hword
    rw [marks, List.mem_append] at hword
    rcases hword with hword | hword
    · exact hunit u word hword
    · obtain rfl := List.mem_singleton.1 hword
      decide

/-! ### Rows -/

/-- A node as a row. -/
def row (tested : List String) (depth : Nat) (tree : DependencyTree) : TreeRow :=
  ⟨depth, tree.name, tree.marks tested⟩

mutual

/-- The rows below a node, its children at a depth. -/
def rowsBelow (tested : List String) (depth : Nat) : DependencyTree → List TreeRow
  | missing _ => []
  | repeated _ => []
  | expanded _ children => rowsOfChildren tested depth children

/-- The rows of children, each with the rows below it. -/
def rowsOfChildren (tested : List String) (depth : Nat) : List DependencyTree → List TreeRow
  | [] => []
  | child :: rest =>
    child.row tested depth :: rowsBelow tested (depth + 1) child ++
      rowsOfChildren tested depth rest

end

/-- The rows of a tree. -/
def rows (tested : List String) (tree : DependencyTree) : List TreeRow :=
  tree.row tested 0 :: tree.rowsBelow tested 1

end DependencyTree

/-- The strings of a style are four characters wide and hold none that names begin with. -/
def TreeStyle.IsAligned (style : TreeStyle) : Prop :=
  ∀ p ∈ [style.branch, style.last, style.vertical, style.space],
    p.length = 4 ∧ p.toList.all TreeRow.connects = true

theorem TreeStyle.isAligned_ofName (name : String) : (ofName name).IsAligned := by
  rw [ofName]
  split
  · rw [IsAligned]
    decide
  · rw [IsAligned]
    decide

namespace TreeRow

theorem connects_eq_false {c : Char} (h : (c.isAlpha || c == '_') = true) :
    connects c = false := by
  refine Bool.eq_false_iff.2 fun hconnects => ?_
  simp only [connects, List.contains_iff_mem, List.mem_cons, List.not_mem_nil, or_false] at hconnects
  rcases hconnects with rfl | rfl | rfl | rfl | rfl | rfl | rfl | rfl <;> exact absurd h (by decide)

/-- **A line is read as a row**, and it is one line. -/
def ReadAs (line : String) (row : TreeRow) : Prop :=
  '\n' ∉ line.toList ∧ ofLine? line = some row

theorem filterMap_ofLine?_of_readAs {lines : List String} {rows : List TreeRow}
    (h : List.Forall₂ ReadAs lines rows) :
    lines.filterMap ofLine? = rows ∧ ∀ line ∈ lines, '\n' ∉ line.toList := by
  induction h with
  | nil => exact ⟨rfl, fun _ h => absurd h List.not_mem_nil⟩
  | cons hline _ ih =>
    refine ⟨?_, List.forall_mem_cons.2 ⟨hline.1, ih.2⟩⟩
    rw [List.filterMap_cons_some hline.2, ih.1]

end TreeRow

namespace DependencyTree

variable {m : SchemaModel} {tested : List String} {style : TreeStyle}

/-- The line of a node is read as its row, as deep as the line is connected. -/
theorem readAs_label (hm : m.Legible) {tree : DependencyTree} (h : Of m tree) {connection : String}
    {depth : Nat} (hlength : connection.length = 4 * depth)
    (hconnects : connection.toList.all TreeRow.connects = true) :
    TreeRow.ReadAs (connection ++ tree.label tested) (tree.row tested depth) := by
  obtain ⟨hheading, hname⟩ := h.heading hm
  have hwords : ∀ word ∈ tree.heading :: tree.marks tested, isOneWord word = true := by
    intro word hword
    rcases List.mem_cons.1 hword with rfl | hword
    · exact hheading
    · exact tree.isOneWord_of_mem_marks tested word hword
  have hconnection : ∀ c ∈ connection.toList, TreeRow.connects c = true :=
    List.all_eq_true.1 hconnects
  -- the first character of the name ends the connection
  obtain ⟨marks, hlabel⟩ := tree.exists_label_eq tested
  obtain ⟨c, rest, hchars, hc⟩ := Text.exists_first_of_isIdentifier (h.isIdentifier_name hm.drawable)
  have hstarts : (tree.label tested).toList = c :: (rest ++ marks.toList) := by
    rw [hlabel, String.toList_append, hchars, List.cons_append]
  have hends := TreeRow.connects_eq_false hc
  have htake : (connection ++ tree.label tested).toList.takeWhile TreeRow.connects =
      connection.toList := by
    rw [String.toList_append, List.takeWhile_append_of_pos hconnection, hstarts,
      List.takeWhile_cons_of_neg (by simp [hends]), List.append_nil]
  have hdrop : (connection ++ tree.label tested).toList.dropWhile TreeRow.connects =
      (tree.label tested).toList := by
    rw [String.toList_append, List.dropWhile_append_of_pos hconnection, hstarts,
      List.dropWhile_cons_of_neg (by simp [hends])]
  constructor
  · rw [String.toList_append, List.mem_append]
    rintro (hmem | hmem)
    · exact absurd (hconnection _ hmem) (by decide)
    · rw [label_eq] at hmem
      exact Text.lineFeed_not_mem_intercalate hwords hmem
  · rw [TreeRow.ofLine?, hdrop, htake, String.ofList_toList, label_eq, Text.wordsOf_intercalate hwords]
    simp only [hname, String.ofList_toList, String.length_toList, hlength]
    rw [Nat.mul_div_cancel_left depth (by decide)]
    rfl

mutual

theorem forall₂_linesBelow_rows (hm : m.Legible) (hstyle : style.IsAligned)
    {indentation : String} {depth : Nat} (hlength : indentation.length = 4 * depth)
    (hconnects : indentation.toList.all TreeRow.connects = true) :
    (tree : DependencyTree) → Of m tree → List.Forall₂ TreeRow.ReadAs
      (linesBelow style tested indentation tree) (tree.rowsBelow tested (depth + 1))
  | missing _, _ => by
    rw [linesBelow, rowsBelow]
    exact .nil
  | repeated _, _ => by
    rw [linesBelow, rowsBelow]
    exact .nil
  | expanded _ children, .expanded _ _ hchildren => by
    rw [linesBelow, rowsBelow]
    exact forall₂_linesOfChildren_rows hm hstyle hlength hconnects children hchildren

theorem forall₂_linesOfChildren_rows (hm : m.Legible) (hstyle : style.IsAligned)
    {indentation : String} {depth : Nat} (hlength : indentation.length = 4 * depth)
    (hconnects : indentation.toList.all TreeRow.connects = true) :
    (children : List DependencyTree) → (∀ child ∈ children, Of m child) →
      List.Forall₂ TreeRow.ReadAs (linesOfChildren style tested indentation children)
        (rowsOfChildren tested (depth + 1) children)
  | [], _ => by
    rw [linesOfChildren, rowsOfChildren]
    exact .nil
  | child :: rest, h => by
    -- every string of the style takes the indentation one level deeper
    have hdeeper : ∀ p ∈ [style.branch, style.last, style.vertical, style.space],
        (indentation ++ p).length = 4 * (depth + 1) ∧
          (indentation ++ p).toList.all TreeRow.connects = true := by
      intro p hp
      obtain ⟨hwidth, hall⟩ := hstyle p hp
      rw [String.length_append, hlength, hwidth, String.toList_append, List.all_append, hconnects,
        hall]
      exact ⟨rfl, rfl⟩
    obtain ⟨hconnectorLength, hconnector⟩ :=
      hdeeper (if rest.isEmpty then style.last else style.branch) (by split <;> simp)
    obtain ⟨hindentationLength, hindentation⟩ :=
      hdeeper (if rest.isEmpty then style.space else style.vertical) (by split <;> simp)
    have hchild := h child List.mem_cons_self
    rw [linesOfChildren, rowsOfChildren]
    exact .cons (readAs_label hm hchild hconnectorLength hconnector)
      (List.rel_append
        (forall₂_linesBelow_rows hm hstyle hindentationLength hindentation child hchild)
        (forall₂_linesOfChildren_rows hm hstyle hlength hconnects rest
          fun other hother => h other (List.mem_cons_of_mem child hother)))

end

/-- **There is a row for each line** of a tree. -/
theorem forall₂_lines_rows (hm : m.Legible) (hstyle : style.IsAligned) {tree : DependencyTree}
    (h : Of m tree) :
    List.Forall₂ TreeRow.ReadAs (tree.lines style tested) (tree.rows tested) := by
  have hroot : TreeRow.ReadAs ("" ++ tree.label tested) (tree.row tested 0) :=
    readAs_label hm h rfl rfl
  rw [String.empty_append] at hroot
  exact .cons hroot (forall₂_linesBelow_rows hm hstyle rfl rfl tree h)

/-! ### What hangs below what -/

mutual

/-- Every node below a node, with the name that it hangs below. -/
def pairsBelow : DependencyTree → List (String × String)
  | missing _ => []
  | repeated _ => []
  | expanded u children => pairsOfChildren u.name children

/-- Children with the name that they hang below, each with the pairs below it. -/
def pairsOfChildren (parent : String) : List DependencyTree → List (String × String)
  | [] => []
  | child :: rest => (parent, child.name) :: pairsBelow child ++ pairsOfChildren parent rest

end

open TreeRow (pairsAfter)

mutual

/-- **The pairs below a node** are read off the depths of the rows, if the branch leads down to the
node; afterwards it does so again. -/
theorem pairsAfter_rowsBelow (tested : List String) (depth : Nat) (branch : List String) :
    (tree : DependencyTree) → depth ≤ branch.length →
      (branch.take depth).getLast? = some tree.name →
      ∃ branch', branch'.take depth = branch.take depth ∧ depth ≤ branch'.length ∧
        ∀ more, pairsAfter branch (tree.rowsBelow tested depth ++ more) =
          tree.pairsBelow ++ pairsAfter branch' more
  | missing _, hlength, _ => by
    rw [rowsBelow, pairsBelow]
    exact ⟨branch, rfl, hlength, fun _ => rfl⟩
  | repeated _, hlength, _ => by
    rw [rowsBelow, pairsBelow]
    exact ⟨branch, rfl, hlength, fun _ => rfl⟩
  | expanded u children, hlength, hlast => by
    rw [rowsBelow, pairsBelow]
    exact pairsAfter_rowsOfChildren tested depth branch u.name children hlength hlast

theorem pairsAfter_rowsOfChildren (tested : List String) (depth : Nat) (branch : List String)
    (parent : String) : (children : List DependencyTree) → depth ≤ branch.length →
      (branch.take depth).getLast? = some parent →
      ∃ branch', branch'.take depth = branch.take depth ∧ depth ≤ branch'.length ∧
        ∀ more, pairsAfter branch (rowsOfChildren tested depth children ++ more) =
          pairsOfChildren parent children ++ pairsAfter branch' more
  | [], hlength, _ => by
    rw [rowsOfChildren, pairsOfChildren]
    exact ⟨branch, rfl, hlength, fun _ => rfl⟩
  | child :: rest, hlength, hlast => by
    have habove : (branch.take depth ++ [child.name]).length = depth + 1 := by
      rw [List.length_append, List.length_take_of_le hlength, List.length_singleton]
    -- the child is at the end of the branch while its own rows are read
    obtain ⟨below, hbelow, hbelowLength, hpairsBelow⟩ :=
      pairsAfter_rowsBelow tested (depth + 1) (branch.take depth ++ [child.name]) child habove.ge
        (by rw [List.take_of_length_le habove.le, List.getLast?_concat])
    have htake : below.take depth = branch.take depth := by
      have h := congrArg (List.take depth) hbelow
      rw [List.take_take, List.take_take, Nat.min_eq_left (Nat.le_succ depth),
        List.take_left' (List.length_take_of_le hlength)] at h
      exact h
    obtain ⟨after, hafter, hafterLength, hpairsAfter⟩ :=
      pairsAfter_rowsOfChildren tested depth below parent rest (Nat.le_of_succ_le hbelowLength)
        (by rw [htake, hlast])
    refine ⟨after, hafter.trans htake, hafterLength, fun more => ?_⟩
    rw [rowsOfChildren, pairsOfChildren, List.cons_append, List.cons_append, pairsAfter]
    simp only [row, hlast, Option.toList_some, List.map_singleton, List.singleton_append,
      List.append_assoc, hpairsBelow, hpairsAfter]
    rfl

end

theorem pairsAfter_flatMap_rows (tested branch : List String) (trees : List DependencyTree) :
    pairsAfter branch (trees.flatMap (rows tested)) = trees.flatMap pairsBelow := by
  induction trees generalizing branch with
  | nil => rfl
  | cons tree rest ih =>
    -- a root hangs below nothing, and starts a branch of its own
    obtain ⟨after, -, -, hafter⟩ :=
      pairsAfter_rowsBelow tested 1 [tree.name] tree le_rfl rfl
    rw [List.flatMap_cons, List.flatMap_cons, rows, List.cons_append, pairsAfter, ← ih after, ← hafter]
    rfl

theorem mem_pairsOfChildren {parent : String} {child : DependencyTree}
    {children : List DependencyTree} (h : child ∈ children) :
    (parent, child.name) ∈ pairsOfChildren parent children := by
  induction children with
  | nil => cases h
  | cons first rest ih =>
    rw [pairsOfChildren]
    rcases List.mem_cons.1 h with rfl | h
    · exact List.mem_append_left _ List.mem_cons_self
    · exact List.mem_append_right _ (ih h)

mutual

/-- What hangs below a unit are its dependencies. -/
theorem mem_dependencies_of_mem_pairsBelow {p : String × String} :
    (tree : DependencyTree) → Of m tree → p ∈ tree.pairsBelow →
      ∃ u ∈ m.units, u.name = p.1 ∧ p.2 ∈ u.dependencies
  | missing _, _, hp => by
    rw [pairsBelow] at hp
    cases hp
  | repeated _, _, hp => by
    rw [pairsBelow] at hp
    cases hp
  | expanded u children, .expanded hu hnames hchildren, hp => by
    rw [pairsBelow] at hp
    refine mem_dependencies_of_mem_pairsOfChildren hu children (fun child hchild => ?_) hchildren hp
    exact mem_sortedSet.1 (hnames ▸ List.mem_map_of_mem hchild)

theorem mem_dependencies_of_mem_pairsOfChildren {p : String × String} {u : SchemaUnit}
    (hu : u ∈ m.units) : (children : List DependencyTree) →
      (∀ child ∈ children, child.name ∈ u.dependencies) → (∀ child ∈ children, Of m child) →
      p ∈ pairsOfChildren u.name children →
        ∃ v ∈ m.units, v.name = p.1 ∧ p.2 ∈ v.dependencies
  | [], _, _, hp => by
    rw [pairsOfChildren] at hp
    cases hp
  | child :: rest, hdependencies, hchildren, hp => by
    rw [pairsOfChildren, List.mem_append, List.mem_cons] at hp
    rcases hp with (rfl | hp) | hp
    · exact ⟨u, hu, rfl, hdependencies child List.mem_cons_self⟩
    · exact mem_dependencies_of_mem_pairsBelow child (hchildren child List.mem_cons_self) hp
    · exact mem_dependencies_of_mem_pairsOfChildren hu rest
        (fun other h => hdependencies other (List.mem_cons_of_mem child h))
        (fun other h => hchildren other (List.mem_cons_of_mem child h)) hp

end

end DependencyTree

/-! ### What is marked -/

/-- **A row that fits a model**: it is marked as tested or missing as its name is, and only names that
units depend on are missing. -/
structure TreeRow.Fits (m : SchemaModel) (tested : List String) (row : TreeRow) : Prop where
  /-- tested are the names given that have units -/
  tested_iff : "[tested]" ∈ row.marks ↔ row.name ∈ tested ∧ m.contains row.name = true
  /-- missing are the names without -/
  missing_iff : "[MISSING]" ∈ row.marks ↔ m.contains row.name = false
  /-- units depend on these -/
  dependency : m.contains row.name = false → ∃ u ∈ m.units, row.name ∈ u.dependencies

namespace DependencyTree

variable {m : SchemaModel} {tested : List String}

theorem tested_mem_marks_iff (tested : List String) (u : SchemaUnit) :
    "[tested]" ∈ u.marks tested ↔ u.name ∈ tested := by
  rw [SchemaUnit.marks, List.mem_append]
  constructor
  · rintro (h | h)
    · split at h
      · exact absurd (List.mem_singleton.1 h) (by decide)
      · cases h
    · split at h
      · exact List.contains_iff_mem.1 ‹_›
      · cases h
  · intro h
    rw [if_pos (List.contains_iff_mem.2 h)]
    exact Or.inr List.mem_cons_self

theorem missing_not_mem_marks (tested : List String) (u : SchemaUnit) :
    "[MISSING]" ∉ u.marks tested := by
  rw [SchemaUnit.marks, List.mem_append]
  rintro (h | h)
  · split at h
    · exact absurd (List.mem_singleton.1 h) (by decide)
    · cases h
  · split at h
    · exact absurd (List.mem_singleton.1 h) (by decide)
    · cases h

/-- The row of every node of a model fits. -/
theorem Of.fits_row {tree : DependencyTree} (h : Of m tree) (depth : Nat) :
    (tree.row tested depth).Fits m tested := by
  have hcontains : ∀ u ∈ m.units, m.contains u.name = true :=
    fun u hu => SchemaModel.contains_iff.2 ⟨u, hu, rfl⟩
  cases h with
  | missing hdependency hnot =>
    refine ⟨?_, ?_, fun _ => hdependency⟩
    · simp [row, marks, name, hnot]
    · simp [row, marks, name, hnot]
  | @repeated u hu =>
    refine ⟨?_, ?_, fun hnot => ?_⟩
    · simp [row, marks, name, hcontains u hu, tested_mem_marks_iff]
    · simp [row, marks, name, hcontains u hu, missing_not_mem_marks]
    · rw [row, name, hcontains u hu] at hnot
      cases hnot
  | @expanded u children hu _ _ =>
    refine ⟨?_, ?_, fun hnot => ?_⟩
    · simp [row, marks, name, hcontains u hu, tested_mem_marks_iff]
    · simp [row, marks, name, hcontains u hu, missing_not_mem_marks]
    · rw [row, name, hcontains u hu] at hnot
      cases hnot

mutual

theorem fits_of_mem_rowsBelow {row : TreeRow} (depth : Nat) : (tree : DependencyTree) → Of m tree →
    row ∈ tree.rowsBelow tested depth → row.Fits m tested
  | missing _, _, hrow => by
    rw [rowsBelow] at hrow
    cases hrow
  | repeated _, _, hrow => by
    rw [rowsBelow] at hrow
    cases hrow
  | expanded _ children, .expanded _ _ hchildren, hrow => by
    rw [rowsBelow] at hrow
    exact fits_of_mem_rowsOfChildren depth children hchildren hrow

theorem fits_of_mem_rowsOfChildren {row : TreeRow} (depth : Nat) :
    (children : List DependencyTree) → (∀ child ∈ children, Of m child) →
      row ∈ rowsOfChildren tested depth children → row.Fits m tested
  | [], _, hrow => by
    rw [rowsOfChildren] at hrow
    cases hrow
  | child :: rest, h, hrow => by
    have hchild := h child List.mem_cons_self
    rw [rowsOfChildren, List.mem_append, List.mem_cons] at hrow
    rcases hrow with (rfl | hrow) | hrow
    · exact hchild.fits_row depth
    · exact fits_of_mem_rowsBelow (depth + 1) child hchild hrow
    · exact fits_of_mem_rowsOfChildren depth rest
        (fun other hother => h other (List.mem_cons_of_mem child hother)) hrow

end

theorem row_mem_rowsOfChildren {depth : Nat} {child : DependencyTree}
    {children : List DependencyTree} (h : child ∈ children) :
    child.row tested depth ∈ rowsOfChildren tested depth children := by
  induction children with
  | nil => cases h
  | cons first rest ih =>
    rw [rowsOfChildren]
    rcases List.mem_cons.1 h with rfl | h
    · exact List.mem_append_left _ List.mem_cons_self
    · exact List.mem_append_right _ (ih h)

end DependencyTree

/-! ### The report -/

namespace SchemaModel

open DependencyTree

variable {m : SchemaModel} {tested : List String} {style : TreeStyle}

/-- The rows of a report are those of the trees of all units. -/
theorem rows_treeReport (hm : m.Legible) (hstyle : style.IsAligned) :
    (Text.fields '\n' (m.treeReport tested style true)).filterMap TreeRow.ofLine? =
      (m.units.map m.tree).flatMap (rows tested) := by
  have hforest : m.forest tested true = m.units.map m.tree := rfl
  have hread : ∀ tree ∈ m.units.map m.tree,
      (tree.lines style tested).filterMap TreeRow.ofLine? = tree.rows tested ∧
        ∀ line ∈ tree.lines style tested, '\n' ∉ line.toList := by
    intro tree htree
    obtain ⟨u, hu, rfl⟩ := List.mem_map.1 htree
    exact TreeRow.filterMap_ofLine?_of_readAs (forall₂_lines_rows hm hstyle (of_tree hu))
  rw [treeReport_eq, hforest, Text.filterMap_fields_joinLines rfl, Text.filterMap_intercalate rfl,
    List.flatMap_map]
  · exact List.flatMap_congr fun tree htree => (hread tree htree).1
  · intro line hline
    rcases Text.eq_or_mem_of_mem_intercalate hline with rfl | ⟨block, hblock, hline⟩
    · exact List.not_mem_nil
    · obtain ⟨tree, htree, rfl⟩ := List.mem_map.1 hblock
      exact (hread tree htree).2 line hline

/-- **A tree report tells what the model says.** -/
theorem tells_treeReport (hm : m.Legible) (hstyle : style.IsAligned) :
    (ReportFacts.ofTree (m.treeReport tested style true)).Tells m tested := by
  have hfits : ∀ row ∈ (m.units.map m.tree).flatMap (rows tested), row.Fits m tested := by
    intro row hrow
    obtain ⟨tree, htree, hrow⟩ := List.mem_flatMap.1 hrow
    obtain ⟨u, hu, rfl⟩ := List.mem_map.1 htree
    rcases List.mem_cons.1 hrow with rfl | hrow
    · exact (of_tree hu).fits_row 0
    · exact fits_of_mem_rowsBelow 1 _ (of_tree hu) hrow
  -- every unit is a root, and what it depends on is at depth one
  have hroot : ∀ u ∈ m.units,
      (m.tree u).row tested 0 ∈ (m.units.map m.tree).flatMap (rows tested) := fun u hu =>
    List.mem_flatMap.2 ⟨_, List.mem_map_of_mem hu, List.mem_cons_self⟩
  have hchild : ∀ u : SchemaUnit, ∀ d ∈ u.dependencies, m.unfold [u.name] d ∈
      (sortedSet u.dependencies).map (m.unfold [u.name]) := fun u d hd =>
    List.mem_map_of_mem (mem_sortedSet.2 hd)
  rw [ReportFacts.ofTree, rows_treeReport hm hstyle]
  constructor
  · intro name
    simp only [List.mem_map, List.mem_filter, List.contains_iff_mem]
    constructor
    · rintro ⟨row, ⟨hrow, hmark⟩, rfl⟩
      obtain ⟨htested, hcontains⟩ := (hfits row hrow).tested_iff.1 hmark
      exact ⟨htested, contains_iff.1 hcontains⟩
    · rintro ⟨htested, u, hu, rfl⟩
      have hrow := hroot u hu
      exact ⟨_, ⟨hrow, (hfits _ hrow).tested_iff.2 ⟨htested, contains_iff.2 ⟨u, hu, rfl⟩⟩⟩, rfl⟩
  · intro name
    simp only [List.mem_map, List.mem_filter, List.contains_iff_mem]
    rw [← contains_iff, Bool.not_eq_true]
    constructor
    · rintro ⟨row, ⟨hrow, hmark⟩, rfl⟩
      have hnot := (hfits row hrow).missing_iff.1 hmark
      exact ⟨(hfits row hrow).dependency hnot, hnot⟩
    · rintro ⟨⟨u, hu, hd⟩, hnot⟩
      have hrow : (m.unfold [u.name] name).row tested 1 ∈
          (m.units.map m.tree).flatMap (rows tested) := by
        refine List.mem_flatMap.2 ⟨_, List.mem_map_of_mem hu, List.mem_cons_of_mem _ ?_⟩
        rw [tree, rowsBelow]
        exact row_mem_rowsOfChildren (hchild u name hd)
      have hname : ((m.unfold [u.name] name).row tested 1).name = name := name_unfold m _ name
      exact ⟨_, ⟨hrow, (hfits _ hrow).missing_iff.2 (hname.symm ▸ hnot)⟩, hname⟩
  · intro name d
    rw [pairsAfter_flatMap_rows, List.mem_flatMap]
    constructor
    · rintro ⟨tree, htree, hpair⟩
      obtain ⟨u, hu, rfl⟩ := List.mem_map.1 htree
      exact mem_dependencies_of_mem_pairsBelow _ (of_tree hu) hpair
    · rintro ⟨u, hu, rfl, hd⟩
      refine ⟨_, List.mem_map_of_mem hu, ?_⟩
      have hpair : (u.name, (m.unfold [u.name] d).name) ∈ pairsOfChildren u.name _ :=
        mem_pairsOfChildren (hchild u d hd)
      rw [name_unfold] at hpair
      rw [tree, pairsBelow]
      exact hpair

end SchemaModel

end SchemaAssembly
