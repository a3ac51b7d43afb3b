import SchemaAssembly.SchemaModel.Dependencies
import SchemaAssembly.Text.Lines

/-!
# The flowchart report

The dependency graph of a model as a flowchart: a node for each name, a dashed one for each name
without a unit, and an edge for each dependency. Nodes are referred to by identifiers, which hold
only letters, digits and underscores.

- `FlowLine` is a line of a flowchart; `SchemaModel.flowchart` lists those of a model.
- `SchemaModel.draw?` draws the same lines from tables in which identifiers are looked up by name; no
  name is looked up in vain (`SchemaModel.draw?_eq`).
- `SchemaModel.flowchartReport` is the text of a flowchart, as it is drawn.
-/

namespace SchemaAssembly

namespace NodeId

/-- A character of a name as an identifier holds it: separators become underscores, and what is
neither a letter nor a digit is dropped. -/
def ofChar (c : Char) : List Char :=
  if c == '/' || c == '\\' || c == '.' || c == '-' || c == ':' || c == '_' then ['_']
  else if c.isAlphanum then [c]
  else []

/-- **The identifier** of a name. It starts with a letter. -/
def ofName (name : String) : String :=
  match name.toList.flatMap ofChar with
  | [] => "unknown"
  | c :: rest => String.ofList (if c.isAlpha then c :: rest else 'n' :: '_' :: c :: rest)

/-- The identifier of a name without a unit. -/
def ofMissing (name : String) : String :=
  ofName ("missing_" ++ name)

end NodeId

/-- A line of a flowchart. -/
inductive FlowLine where
  /-- the first line, with the direction of the edges -/
  | header (orientation : String)
  /-- a node and its label, deeper inside a group -/
  | node (grouped : Bool) (id label : String)
  /-- the start of a group of nodes -/
  | groupStart (id title : String)
  /-- the end of a group -/
  | groupEnd
  /-- an empty line -/
  | blank
  /-- the heading of the names without a unit -/
  | missingHeading
  /-- how the node of a name without a unit is drawn -/
  | missingStyle (id : String)
  /-- a dependency, dashed if it has no unit -/
  | edge (dashed : Bool) (source target : String)
  /-- how tested nodes are drawn -/
  | testedStyle
  /-- the tested nodes -/
  | testedNodes (ids : List String)
  deriving DecidableEq, Repr

/-- The text of a line. -/
def FlowLine.text : FlowLine → String
  | header orientation => "flowchart " ++ orientation
  | node grouped id label =>
    (if grouped then "        " else "    ") ++ id ++ "[\"" ++ label ++ "\"]"
  | groupStart id title => "    subgraph " ++ id ++ "[" ++ title ++ "]"
  | groupEnd => "    end"
  | blank => ""
  | missingHeading => "    %% Missing dependencies"
  | missingStyle id => "    style " ++ id ++ " stroke:#ff0000,stroke-dasharray: 5 5"
  | edge dashed source target =>
    "    " ++ source ++ (if dashed then " -.-> " else " --> ") ++ target
  | testedStyle => "    classDef tested stroke:#2e7d32,stroke-width:2px"
  | testedNodes ids => "    class " ++ ",".intercalate ids ++ " tested"

namespace SchemaModel

/-- The names that units depend on and that no unit has, ascending. -/
def missingNames (m : SchemaModel) : List String :=
  (sortedSet m.dependencyNames).filter fun name => !m.contains name

/-- The identifier of a name, with a unit or without. -/
def nodeId (m : SchemaModel) (name : String) : String :=
  if m.contains name then NodeId.ofName name else NodeId.ofMissing name

/-- The node lines of names that have units. -/
def nodeLines (m : SchemaModel) (grouped : Bool) (names : List String) : List FlowLine :=
  names.map fun name => .node grouped (m.nodeId name) name

/-- A group of nodes; an empty one is left out. -/
def groupLines (m : SchemaModel) (id title : String) (names : List String) : List FlowLine :=
  if names.isEmpty then []
  else .groupStart id title :: m.nodeLines true names ++ [.groupEnd]

/-- The nodes of all units, grouped by role if asked for. -/
def unitLines (m : SchemaModel) (tested : List String) (byRole : Bool) : List FlowLine :=
  if byRole then
    m.groupLines "tested" "Tested" (m.names.filter fun name => tested.contains name) ++
      m.groupLines "supporting" "Supporting" (m.names.filter fun name => !tested.contains name)
  else m.nodeLines false m.names

/-- The nodes of the names without a unit. -/
def missingLines (m : SchemaModel) : List FlowLine :=
  m.missingNames.flatMap fun name =>
    [.node false (m.nodeId name) (name ++ " [MISSING]"), .missingStyle (m.nodeId name)]

/-- The edges. -/
def edgeLines (m : SchemaModel) : List FlowLine :=
  m.edges.map fun (source, target) =>
    .edge (!m.contains target) (m.nodeId source) (m.nodeId target)

/-- The lines that mark the tested nodes. -/
def testedLines (m : SchemaModel) (tested : List String) : List FlowLine :=
  let ids := (m.names.filter fun name => tested.contains name).map m.nodeId
  if ids.isEmpty then [] else [.testedStyle, .testedNodes ids]

/-- A part of a flowchart behind an empty line, unless the part is empty. -/
def part (lines : List FlowLine) : List FlowLine :=
  if lines.isEmpty then [] else .blank :: lines

/-- **The lines of a model's flowchart.** -/
def flowchart (m : SchemaModel) (tested : List String) (orientation : String) (byRole : Bool) :
    List FlowLine :=
  .header orientation :: m.unitLines tested byRole ++
    (if m.missingNames.isEmpty then [] else .blank :: .missingHeading :: m.missingLines) ++
    part m.edgeLines ++ part (m.testedLines tested)

end SchemaModel

/-! ### Drawing -/

/-- Identifiers by name. -/
abbrev IdTable := List (String × String)

/-- A table of some names. -/
def IdTable.ofNames (id : String → String) (names : List String) : IdTable :=
  names.map fun name => (name, id name)

/-- The identifiers of the nodes of a flowchart. -/
structure NodeIds where
  /-- those of the names that have units -/
  units : IdTable
  /-- those of the names that have none, as they are met -/
  missing : IdTable

namespace NodeIds

/-- The tables when a unit is met that depends on a name. A name that neither has is missing. -/
def meet (ids : NodeIds) (name : String) : NodeIds :=
  if (ids.units.lookup name).isSome || (ids.missing.lookup name).isSome then ids
  else { ids with missing := ids.missing ++ [(name, NodeId.ofMissing name)] }

/-- The identifier of a name that a unit depends on; an empty one counts as none. -/
def target? (ids : NodeIds) (name : String) : Option String :=
  match ids.units.lookup name with
  | none => ids.missing.lookup name
  | some id => if id = "" then ids.missing.lookup name else some id

/-- Draws the nodes of names that have units. -/
def drawNodes? (ids : NodeIds) (grouped : Bool) (names : List String) : Option (List FlowLine) :=
  names.mapM fun name => do return .node grouped (← ids.units.lookup name) name

/-- Draws a group of nodes, if there are any. -/
def drawGroup? (ids : NodeIds) (id title : String) (names : List String) :
    Option (List FlowLine) :=
  if names.isEmpty then some []
  else do return .groupStart id title :: (← ids.drawNodes? true names) ++ [.groupEnd]

/-- Draws the nodes of all units, grouped by role if asked for. -/
def drawUnits? (ids : NodeIds) (names tested : List String) (byRole : Bool) :
    Option (List FlowLine) :=
  if byRole then do
    let primary ← ids.drawGroup? "tested" "Tested" (names.filter fun name => tested.contains name)
    let supporting ←
      ids.drawGroup? "supporting" "Supporting" (names.filter fun name => !tested.contains name)
    return primary ++ supporting
  else ids.drawNodes? false names

/-- Draws the nodes of the names without a unit, ascending. -/
def drawMissing? (ids : NodeIds) : Option (List FlowLine) :=
  if ids.missing.isEmpty then some []
  else do
    let nodes ← (sortedSet (ids.missing.map (·.1))).mapM fun name => do
      let id ← ids.missing.lookup name
      return [.node false id (name ++ " [MISSING]"), .missingStyle id]
    return .blank :: .missingHeading :: nodes.flatten

/-- Draws edges. -/
def drawEdges? (ids : NodeIds) (edges : List (String × String)) : Option (List FlowLine) :=
  edges.mapM fun edge => do
    let target ← ids.target? edge.2
    return .edge (ids.units.lookup edge.2).isNone (← ids.units.lookup edge.1) target

/-- Marks the nodes of tested names. -/
def drawTested? (ids : NodeIds) (names : List String) : Option (List FlowLine) := do
  let marked ← names.mapM fun name => ids.units.lookup name
  return if marked.isEmpty then [] else [.testedStyle, .testedNodes marked]

end NodeIds

namespace SchemaModel

/-- The identifiers of a model's nodes: those of the names with units at first, then those of the
names that the edges lead to. -/
def nodeIds (m : SchemaModel) : NodeIds :=
  (m.edges.map (·.2)).foldl NodeIds.meet ⟨.ofNames NodeId.ofName m.names, []⟩

/-- Draws a model's flowchart, line by line; there is none if a name is looked up in vain. -/
def draw? (m : SchemaModel) (tested : List String) (orientation : String) (byRole : Bool) :
    Option (List FlowLine) := do
  let ids := m.nodeIds
  let units ← ids.drawUnits? m.names tested byRole
  let missing ← ids.drawMissing?
  let edges ← ids.drawEdges? m.edges
  let marks ← ids.drawTested? (m.names.filter fun name => tested.contains name)
  return .header orientation :: units ++ missing ++ part edges ++ part marks

end SchemaModel

/-! ### No name is looked up in vain -/

/-- What is done for each element, and succeeds. -/
theorem mapM_eq_some_map {α β : Type} {f : α → Option β} {g : α → β} {as : List α}
    (h : ∀ a ∈ as, f a = some (g a)) : as.mapM f = some (as.map g) := by
  induction as with
  | nil => rfl
  | cons a rest ih =>
    rw [List.mapM_cons, h a List.mem_cons_self, ih fun b hb => h b (List.mem_cons_of_mem a hb)]
    rfl

/-- A table of some names has these and no others. -/
theorem IdTable.lookup_ofNames (id : String → String) (names : List String) (name : String) :
    (ofNames id names).lookup name = if name ∈ names then some (id name) else none := by
  induction names with
  | nil => rfl
  | cons other rest ih =>
    rw [ofNames] at ih
    rw [ofNames, List.map_cons, List.lookup_cons]
    by_cases hname : name = other
    · simp [hname]
    · rw [beq_eq_false_iff_ne.2 hname]
      simp [hname, ih]

theorem NodeId.ofName_ne_empty (name : String) : NodeId.ofName name ≠ "" := by
  rw [NodeId.ofName]
  split
  · decide
  · rw [Ne, String.ofList_eq_empty_iff]
    split <;> exact List.cons_ne_nil _ _

/-- Names that are met are missing if they are not among those with units. -/
theorem NodeIds.foldl_meet (units names targets : List String) :
    ∃ missing, targets.foldl meet ⟨.ofNames NodeId.ofName units, .ofNames NodeId.ofMissing names⟩ =
        ⟨.ofNames NodeId.ofName units, .ofNames NodeId.ofMissing missing⟩ ∧
      ∀ name, name ∈ missing ↔ name ∈ names ∨ name ∈ targets ∧ name ∉ units := by
  -- along the targets; the tables stay those of `units` and of the names met so far
  induction targets generalizing names with
  | nil => exact ⟨names, rfl, by simp⟩
  | cons target rest ih =>
    have hmeet : meet ⟨.ofNames NodeId.ofName units, .ofNames NodeId.ofMissing names⟩ target =
        ⟨.ofNames NodeId.ofName units,
          .ofNames NodeId.ofMissing (if target ∈ units ∨ target ∈ names then names
            else names ++ [target])⟩ := by
      rw [meet]
      simp only [IdTable.lookup_ofNames]
      by_cases hunits : target ∈ units <;> by_cases hnames : target ∈ names <;>
        simp [hunits, hnames, IdTable.ofNames]
    rw [List.foldl_cons, hmeet]
    obtain ⟨missing, hfold, hmissing⟩ :=
      ih (if target ∈ units ∨ target ∈ names then names else names ++ [target])
    refine ⟨missing, hfold, fun name => (hmissing name).trans ?_⟩
    split <;> grind

namespace SchemaModel

variable {m : SchemaModel} {ids : NodeIds} {name : String} {names : List String}

theorem contains_of_mem_names (h : name ∈ m.names) : m.contains name = true :=
  contains_iff.2 (mem_names_iff.1 h)

theorem mem_missingNames_iff :
    name ∈ m.missingNames ↔ (∃ u ∈ m.units, name ∈ u.dependencies) ∧ m.contains name = false := by
  simp [missingNames, dependencyNames]

theorem pairwise_lt_missingNames (m : SchemaModel) : m.missingNames.Pairwise (· < ·) :=
  (pairwise_lt_sortedSet _).filter _

/-- **Tables that know the nodes of a model.** -/
structure KnownTo (m : SchemaModel) (ids : NodeIds) : Prop where
  /-- the names with units are in the one -/
  units : ∀ name, m.contains name = true → ids.units.lookup name = some (m.nodeId name)
  /-- and no others are -/
  unknown : ∀ name, m.contains name = false → ids.units.lookup name = none
  /-- the missing names are in the other -/
  missing : ∀ name ∈ m.missingNames, ids.missing.lookup name = some (m.nodeId name)
  /-- and no others are -/
  keys : sortedSet (ids.missing.map (·.1)) = m.missingNames

/-- What the edges lead to is what some unit depends on. -/
theorem mem_targets_iff :
    name ∈ m.edges.map (·.2) ↔ ∃ u ∈ m.units, name ∈ u.dependencies := by
  rw [List.mem_map]
  constructor
  · rintro ⟨⟨source, target⟩, hedge, rfl⟩
    obtain ⟨u, hu, -, hd⟩ := mem_edges_iff.1 hedge
    exact ⟨u, hu, hd⟩
  · rintro ⟨u, hu, hd⟩
    exact ⟨(u.name, name), mem_edges_iff.2 ⟨u, hu, rfl, hd⟩, rfl⟩

/-- **The tables that a flowchart is drawn from** know the nodes of the model. -/
theorem knownTo_nodeIds (m : SchemaModel) : m.KnownTo m.nodeIds := by
  obtain ⟨missing, hids, hmissing⟩ := NodeIds.foldl_meet m.names [] (m.edges.map (·.2))
  rw [show m.nodeIds = _ from hids]
  have hnames : ∀ name, name ∈ m.names ↔ m.contains name = true := fun name =>
    mem_names_iff.trans contains_iff.symm
  have hmem : ∀ name, name ∈ missing ↔ name ∈ m.missingNames := by
    intro name
    rw [hmissing, mem_missingNames_iff, mem_targets_iff, hnames, Bool.not_eq_true]
    exact or_iff_right List.not_mem_nil
  have hkeys : (IdTable.ofNames NodeId.ofMissing missing).map (·.1) = missing := by
    rw [IdTable.ofNames, List.map_map]
    exact List.map_id missing
  refine ⟨fun name h => ?_, fun name h => ?_, fun name h => ?_, ?_⟩
  · rw [IdTable.lookup_ofNames, if_pos ((hnames name).2 h), nodeId, if_pos h]
  · refine (IdTable.lookup_ofNames _ _ _).trans (if_neg fun hmem => ?_)
    rw [(hnames name).1 hmem] at h
    cases h
  · rw [IdTable.lookup_ofNames, if_pos ((hmem name).2 h), nodeId, (mem_missingNames_iff.1 h).2]
    rfl
  · rw [hkeys]
    refine eq_of_pairwise_of_asymm (fun a b => String.lt_asymm) (pairwise_lt_sortedSet missing)
      (pairwise_lt_missingNames m) fun name => ?_
    rw [mem_sortedSet, hmem]

namespace KnownTo

variable (h : m.KnownTo ids)

include h

theorem drawNodes?_eq (grouped : Bool) (hnames : ∀ name ∈ names, m.contains name = true) :
    ids.drawNodes? grouped names = some (m.nodeLines grouped names) := by
  refine mapM_eq_some_map fun name hname => ?_
  rw [h.units name (hnames name hname)]
  rfl

theorem drawGroup?_eq (id title : String) (hnames : ∀ name ∈ names, m.contains name = true) :
    ids.drawGroup? id title names = some (m.groupLines id title names) := by
  rw [NodeIds.drawGroup?, groupLines, h.drawNodes?_eq true hnames]
  split <;> rfl

theorem drawUnits?_eq (tested : List String) (byRole : Bool) :
    ids.drawUnits? m.names tested byRole = some (m.unitLines tested byRole) := by
  have hnames : ∀ name ∈ m.names, m.contains name = true := fun _ => contains_of_mem_names
  rw [NodeIds.drawUnits?, unitLines, h.drawNodes?_eq false hnames,
    h.drawGroup?_eq _ _ fun name hname => hnames name (List.mem_filter.1 hname).1,
    h.drawGroup?_eq _ _ fun name hname => hnames name (List.mem_filter.1 hname).1]
  split <;> rfl

theorem drawMissing?_eq :
    ids.drawMissing? = some (if m.missingNames.isEmpty then [] else
      .blank :: .missingHeading :: m.missingLines) := by
  have hnodes : (sortedSet (ids.missing.map (·.1))).mapM (fun name => do
      let id ← ids.missing.lookup name
      return [FlowLine.node false id (name ++ " [MISSING]"), .missingStyle id]) =
        some (m.missingNames.map fun name =>
          [.node false (m.nodeId name) (name ++ " [MISSING]"), .missingStyle (m.nodeId name)]) := by
    rw [h.keys]
    refine mapM_eq_some_map fun name hname => ?_
    rw [h.missing name hname]
    rfl
  have hempty : ids.missing.isEmpty = m.missingNames.isEmpty := by
    rw [Bool.eq_iff_iff, List.isEmpty_iff, List.isEmpty_iff, ← h.keys, sortedSet_eq_nil_iff,
      List.map_eq_nil_iff]
  rw [NodeIds.drawMissing?, hempty, hnodes]
  split
  · rfl
  · rfl

/-- The identifier of what a unit depends on is found in the one table or in the other. -/
theorem target?_eq (hname : m.contains name = true ∨ name ∈ m.missingNames) :
    ids.target? name = some (m.nodeId name) := by
  rw [NodeIds.target?]
  cases hcontains : m.contains name with
  | true =>
    have hid : m.nodeId name ≠ "" := by
      rw [nodeId, if_pos hcontains]
      exact NodeId.ofName_ne_empty name
    rw [h.units name hcontains]
    exact if_neg hid
  | false =>
    rw [h.unknown name hcontains]
    exact h.missing name (hname.resolve_left (by simp [hcontains]))

theorem drawEdges?_eq : ids.drawEdges? m.edges = some m.edgeLines := by
  refine mapM_eq_some_map fun edge hedge => ?_
  obtain ⟨u, hu, hsource, hd⟩ := mem_edges_iff.1 hedge
  have hcontains : m.contains edge.1 = true := contains_iff.2 ⟨u, hu, hsource⟩
  have htarget : m.contains edge.2 = true ∨ edge.2 ∈ m.missingNames := by
    cases hcontains : m.contains edge.2 with
    | true => exact Or.inl rfl
    | false => exact Or.inr (mem_missingNames_iff.2 ⟨⟨u, hu, hd⟩, hcontains⟩)
  have hdashed : (ids.units.lookup edge.2).isNone = !m.contains edge.2 := by
    cases hcontains : m.contains edge.2 with
    | true =>
      rw [h.units _ hcontains]
      rfl
    | false =>
      rw [h.unknown _ hcontains]
      rfl
  rw [h.target?_eq htarget, h.units _ hcontains, hdashed]
  rfl

theorem drawTested?_eq (tested : List String) :
    ids.drawTested? (m.names.filter fun name => tested.contains name) =
      some (m.testedLines tested) := by
  have hmarked : (m.names.filter fun name => tested.contains name).mapM
      (fun name => ids.units.lookup name) =
        some ((m.names.filter fun name => tested.contains name).map m.nodeId) :=
    mapM_eq_some_map fun name hname =>
      h.units name (contains_of_mem_names (List.mem_filter.1 hname).1)
  rw [NodeIds.drawTested?, hmarked]
  rfl

end KnownTo

/-- **No name is looked up in vain**: what is drawn are the lines of the flowchart. -/
theorem draw?_eq (m : SchemaModel) (tested : List String) (orientation : String) (byRole : Bool) :
    m.draw? tested orientation byRole = some (m.flowchart tested orientation byRole) := by
  have h := m.knownTo_nodeIds
  rw [draw?, h.drawUnits?_eq, h.drawMissing?_eq, h.drawEdges?_eq, h.drawTested?_eq]
  rfl

/-- **The flowchart report** of a model. -/
def flowchartReport (m : SchemaModel) (tested : List String) (orientation : String)
    (byRole : Bool) : String :=
  let drawn := m.draw? tested orientation byRole
  Text.joinLines ((drawn.get (Option.isSome_of_eq_some (m.draw?_eq tested orientation byRole))).map
    (·.text))

/-- It is the text of the lines of the flowchart. -/
theorem flowchartReport_eq (m : SchemaModel) (tested : List String) (orientation : String)
    (byRole : Bool) :
    m.flowchartReport tested orientation byRole =
      Text.joinLines ((m.flowchart tested orientation byRole).map (·.text)) := by
  simp only [flowchartReport, m.draw?_eq, Option.get_some]

end SchemaModel

end SchemaAssembly
