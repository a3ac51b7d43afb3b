import Mathlib
import SchemaAssembly.Proofs.Flowcharts

/-!
# Flowcharts are closed

A flowchart is drawn in passes: the nodes of units, those of missing names, the edges, the marks. Each
pass lists names and looks up identifiers for itself. The passes fit together for every model, whatever
its names are (`SchemaModel.flowchart_closed`): all lookups succeed, what one pass refers to another has
drawn, and no node is drawn twice (`SchemaModel.ClosedDrawing`).

Only the nodes of units depend on whether they are grouped, and grouping rearranges them
(`SchemaModel.perm_ungrouped_unitLines`).
-/

namespace SchemaAssembly

namespace FlowLine

/-- The identifiers on a line. -/
def ids : FlowLine → List String
  | node _ id _ => [id]
  | missingStyle id => [id]
  | edge _ source target => [source, target]
  | testedNodes ids => ids
  | _ => []

/-- The identifier on a line that says how a missing name is drawn. -/
def styled? : FlowLine → Option String
  | missingStyle id => some id
  | _ => none

/-- The identifiers on the line of the tested nodes. -/
def marked? : FlowLine → Option (List String)
  | testedNodes ids => some ids
  | _ => none

/-- A line without its group: node lines stand as deep as all others, and nothing is left of where a
group starts and ends. -/
def ungrouped? : FlowLine → Option FlowLine
  | node _ id label => some (node false id label)
  | groupStart _ _ => none
  | groupEnd => none
  | line => some line

/-- **What a line that holds identifiers is written as**: a node with its label, the style of a missing
name, an edge between two nodes, or the class of the tested nodes. -/
structure Written (line : FlowLine) : Prop where
  /-- a node stands deeper inside a group -/
  node : ∀ id label, line.nodeLabel? = some (id, label) →
    ∃ indentation ∈ ["    ", "        "], line.text = indentation ++ id ++ "[\"" ++ label ++ "\"]"
  /-- missing names are red and dashed -/
  style : ∀ id, line.styled? = some id →
    line.text = "    style " ++ id ++ " stroke:#ff0000,stroke-dasharray: 5 5"
  /-- an arrow is dashed or solid -/
  edge : ∀ dashed source target, line.joins? = some (dashed, source, target) →
    line.text = "    " ++ source ++ (if dashed then " -.-> " else " --> ") ++ target
  /-- identifiers of tested nodes are separated by commas -/
  marks : ∀ ids, line.marked? = some ids →
    line.text = "    class " ++ ",".intercalate ids ++ " tested"

theorem written (line : FlowLine) : line.Written := by
  cases line with
  | node grouped id label =>
    refine ⟨?_, nofun, nofun, nofun⟩
    rintro _ _ ⟨⟩
    cases grouped with
    | false => exact ⟨"    ", by simp, rfl⟩
    | true => exact ⟨"        ", by simp, rfl⟩
  | missingStyle id =>
    refine ⟨nofun, ?_, nofun, nofun⟩
    rintro _ ⟨⟩
    rfl
  | edge dashed source target =>
    refine ⟨nofun, nofun, ?_, nofun⟩
    rintro _ _ _ ⟨⟩
    rfl
  | testedNodes ids =>
    refine ⟨nofun, nofun, nofun, ?_⟩
    rintro _ ⟨⟩
    rfl
  | _ => exact ⟨nofun, nofun, nofun, nofun⟩

end FlowLine

namespace NodeId

theorem kept_append (x y : String) : kept (x ++ y) = kept x ++ kept y := by
  rw [kept, String.toList_append, List.flatMap_append]
  rfl

/-- A name that reads like the label of a missing name has another identifier. -/
theorem ofName_ne_ofMissing (name : String) : ofName (name ++ " [MISSING]") ≠ ofMissing name := by
  have hlabel : kept (name ++ " [MISSING]") = kept name ++ "MISSING".toList := kept_append _ _
  have hmissing : kept ("missing_" ++ name) = 'm' :: ("issing_".toList ++ kept name) :=
    kept_append _ _
  -- `missing_` is a character longer than what is kept of the label
  have hlength : kept (name ++ " [MISSING]") ≠ kept ("missing_" ++ name) := by
    intro h
    have hlength := congrArg List.length h
    rw [hlabel, hmissing, List.length_append, List.length_cons, List.length_append,
      show "MISSING".toList.length = 7 from rfl, show "issing_".toList.length = 7 from rfl] at hlength
    omega
  rw [ofMissing, Ne, ofName_eq_ofName_iff]
  rintro (h | h)
  · cases h with
    | kept h => exact hlength h
    | nothing h =>
      rw [hlabel] at h
      exact absurd (List.append_eq_nil_iff.1 h).2 (by decide)
    | marked _ _ h =>
      rw [hmissing] at h
      exact absurd (List.cons_eq_cons.1 h).1 (by decide)
  · cases h with
    | kept h => exact hlength h.symm
    | nothing h =>
      rw [hmissing] at h
      cases h
    | marked h hnot =>
      rw [hmissing] at h
      obtain ⟨rfl, -⟩ := List.cons_eq_cons.1 h
      exact absurd hnot (by decide)

end NodeId

namespace SchemaModel

variable {m : SchemaModel} {tested : List String} {orientation : String} {byRole : Bool}
  {x y name : String}

/-- **A closed drawing**: its lines refer to each other and to the model, and nothing is left open. -/
structure ClosedDrawing (m : SchemaModel) (tested : List String) (lines : List FlowLine) : Prop where
  /-- each line is written as what it holds -/
  written : ∀ line ∈ lines, line.Written
  /-- identifiers are letters, digits and underscores, and start with a letter -/
  plain : ∀ line ∈ lines, ∀ id ∈ line.ids, NodeId.Plain id
  /-- whatever is referred to is a node -/
  declared : ∀ line ∈ lines, ∀ id ∈ line.ids,
    ∃ label, (id, label) ∈ lines.filterMap FlowLine.nodeLabel?
  /-- the nodes are the names of the model, and then the missing names in order -/
  nodes : ∃ units : List (String × String),
    units.Perm (m.names.map fun name => (NodeId.ofName name, name)) ∧
      lines.filterMap FlowLine.nodeLabel? =
        units ++ m.missingNames.map fun name => (NodeId.ofMissing name, name ++ " [MISSING]")
  /-- each name is one node -/
  count_node : ∀ name ∈ m.drawnNames,
    (lines.filterMap FlowLine.nodeLabel?).count (m.nodeId name, m.nodeLabel name) = 1
  /-- the missing names are drawn in their own way, each once -/
  styles : lines.filterMap FlowLine.styled? = m.missingNames.map NodeId.ofMissing
  /-- and this is said right behind the node -/
  styled : ∀ name ∈ m.missingNames,
    [.node false (NodeId.ofMissing name) (name ++ " [MISSING]"),
      .missingStyle (NodeId.ofMissing name)] <:+: lines
  /-- the edges are those of the model in their order, dashed unless they lead into the model -/
  edges : lines.filterMap FlowLine.joins? =
    m.edges.map fun edge => (!m.contains edge.2, m.nodeId edge.1, m.nodeId edge.2)
  /-- the tested names of the model are marked, if there are any -/
  marks : lines.filterMap FlowLine.marked? =
    if (m.names.filter fun name => tested.contains name).isEmpty then []
    else [(m.names.filter fun name => tested.contains name).map NodeId.ofName]

/-! ### Nodes -/

theorem nodeId_of_mem_names (h : name ∈ m.names) : m.nodeId name = NodeId.ofName name :=
  if_pos (contains_of_mem_names h)

theorem nodeId_of_mem_missingNames (h : name ∈ m.missingNames) :
    m.nodeId name = NodeId.ofMissing name := by
  rw [nodeId, (mem_missingNames_iff.1 h).2]
  rfl

/-- An identifier and a label together belong to one name. -/
theorem eq_of_node_eq (hid : m.nodeId x = m.nodeId y) (hlabel : m.nodeLabel x = m.nodeLabel y) :
    x = y := by
  rw [nodeId, nodeId] at hid
  rw [nodeLabel, nodeLabel] at hlabel
  cases hx : m.contains x <;> cases hy : m.contains y <;> simp only [hx, hy] at hid hlabel
  -- a unit may be labelled like a missing name, but then the identifiers differ
  · exact (String.append_left_inj _).1 hlabel
  · subst hlabel
    exact absurd hid.symm (NodeId.ofName_ne_ofMissing x)
  · subst hlabel
    exact absurd hid (NodeId.ofName_ne_ofMissing y)
  · exact hlabel

theorem nodup_nodes_flowchart :
    ((m.flowchart tested orientation byRole).filterMap FlowLine.nodeLabel?).Nodup := by
  refine (m.nodeLabels_flowchart tested orientation byRole).nodup_iff.2 ?_
  refine m.nodup_drawnNames.map fun x y h => ?_
  exact eq_of_node_eq (congrArg Prod.fst h) (congrArg Prod.snd h)

theorem mem_nodes_flowchart (h : name ∈ m.drawnNames) :
    (m.nodeId name, m.nodeLabel name) ∈
      (m.flowchart tested orientation byRole).filterMap FlowLine.nodeLabel? :=
  (m.nodeLabels_flowchart tested orientation byRole).mem_iff.2 (List.mem_map_of_mem h)

/-! ### What lines refer to -/

theorem mem_part {lines : List FlowLine} {line : FlowLine} (h : line ∈ part lines) :
    line = .blank ∨ line ∈ lines := by
  rw [part] at h
  split at h
  · cases h
  · exact List.mem_cons.1 h

/-- **Whatever a line refers to** is the identifier of a name that is drawn. -/
theorem exists_name_of_mem_ids {line : FlowLine} {id : String}
    (hline : line ∈ m.flowchart tested orientation byRole) (hid : id ∈ line.ids) :
    ∃ name ∈ m.drawnNames, id = m.nodeId name := by
  have hunits : line ∈ m.unitLines tested byRole → ∃ name ∈ m.drawnNames, id = m.nodeId name := by
    intro h
    rcases mem_unitLines h with ⟨grouped, name, hname, rfl⟩ | ⟨start, title, rfl⟩ | rfl
    · exact ⟨name, List.mem_append_left _ hname, List.mem_singleton.1 hid⟩
    · cases hid
    · cases hid
  have hmissing : line ∈ m.missingLines → ∃ name ∈ m.drawnNames, id = m.nodeId name := by
    intro h
    obtain ⟨name, hname, rfl | rfl⟩ := mem_missingLines_iff.1 h <;>
      exact ⟨name, List.mem_append_right _ hname, List.mem_singleton.1 hid⟩
  have hedges : line ∈ m.edgeLines → ∃ name ∈ m.drawnNames, id = m.nodeId name := by
    intro h
    obtain ⟨u, hu, d, hd, rfl⟩ := mem_edgeLines_iff.1 h
    rcases List.mem_cons.1 hid with rfl | hid
    · exact ⟨u.name, mem_drawnNames_iff.2 ⟨u, hu, Or.inl rfl⟩, rfl⟩
    · exact ⟨d, mem_drawnNames_iff.2 ⟨u, hu, Or.inr hd⟩, List.mem_singleton.1 hid⟩
  have hmarks : line ∈ m.testedLines tested → ∃ name ∈ m.drawnNames, id = m.nodeId name := by
    intro h
    rcases mem_testedLines h with rfl | rfl
    · cases hid
    · obtain ⟨name, hname, rfl⟩ := List.mem_map.1 hid
      exact ⟨name, List.mem_append_left _ (List.mem_of_mem_filter hname), rfl⟩
  rw [flowchart, List.mem_append, List.mem_append, List.mem_append, List.mem_cons] at hline
  rcases hline with (((rfl | hline) | hline) | hline) | hline
  · cases hid
  · exact hunits hline
  · split at hline
    · cases hline
    · rcases List.mem_cons.1 hline with rfl | hline
      · cases hid
      · rcases List.mem_cons.1 hline with rfl | hline
        · cases hid
        · exact hmissing hline
  · rcases mem_part hline with rfl | hline
    · cases hid
    · exact hedges hline
  · rcases mem_part hline with rfl | hline
    · cases hid
    · exact hmarks hline

/-! ### Styles and marks -/

theorem filterMap_styled?_flowchart :
    (m.flowchart tested orientation byRole).filterMap FlowLine.styled? =
      m.missingNames.map NodeId.ofMissing := by
  have hmissing : m.missingLines.filterMap FlowLine.styled? =
      m.missingNames.map NodeId.ofMissing := by
    rw [← List.map_congr_left fun name hname => nodeId_of_mem_missingNames hname, missingLines]
    generalize m.missingNames = names
    induction names with
    | nil => rfl
    | cons name rest ih =>
      rw [List.flatMap_cons, List.filterMap_append, List.map_cons, ih]
      rfl
  rw [filterMap_flowchart rfl rfl rfl,
    filterMap_unitLines_eq_nil (fun _ _ _ => rfl) (fun _ _ => rfl) rfl, hmissing,
    filterMap_edgeLines_eq_nil fun _ _ _ => rfl, filterMap_testedLines_eq_nil rfl fun _ => rfl,
    List.append_nil, List.append_nil, List.nil_append]

/-- The line that draws a missing name in its own way stands behind the node of the name. -/
theorem styled_flowchart (h : name ∈ m.missingNames) :
    [.node false (NodeId.ofMissing name) (name ++ " [MISSING]"),
      .missingStyle (NodeId.ofMissing name)] <:+: m.flowchart tested orientation byRole := by
  have hlines : [.node false (NodeId.ofMissing name) (name ++ " [MISSING]"),
      .missingStyle (NodeId.ofMissing name)] <:+: m.missingLines := by
    rw [← nodeId_of_mem_missingNames h]
    obtain ⟨before, after, hnames⟩ := List.append_of_mem h
    rw [missingLines, hnames, List.flatMap_append, List.flatMap_cons]
    exact List.IsInfix.trans (List.prefix_append _ _).isInfix (List.suffix_append _ _).isInfix
  have hsome : ¬ m.missingNames.isEmpty = true := by
    rw [List.isEmpty_iff]
    exact List.ne_nil_of_mem h
  rw [flowchart, if_neg hsome]
  exact hlines.trans ⟨.header orientation :: m.unitLines tested byRole ++ [.blank, .missingHeading],
    part m.edgeLines ++ part (m.testedLines tested), by simp⟩

theorem filterMap_marked?_flowchart :
    (m.flowchart tested orientation byRole).filterMap FlowLine.marked? =
      if (m.names.filter fun name => tested.contains name).isEmpty then []
      else [(m.names.filter fun name => tested.contains name).map NodeId.ofName] := by
  have hids : (m.names.filter fun name => tested.contains name).map m.nodeId =
      (m.names.filter fun name => tested.contains name).map NodeId.ofName :=
    List.map_congr_left fun name hname => nodeId_of_mem_names (List.mem_of_mem_filter hname)
  rw [filterMap_flowchart rfl rfl rfl,
    filterMap_unitLines_eq_nil (fun _ _ _ => rfl) (fun _ _ => rfl) rfl,
    filterMap_missingLines_eq_nil (fun _ _ _ => rfl) fun _ => rfl,
    filterMap_edgeLines_eq_nil fun _ _ _ => rfl, testedLines, hids]
  cases m.names.filter fun name => tested.contains name <;> rfl

/-! ### Groups -/

theorem filterMap_ungrouped?_nodeLines (grouped : Bool) (names : List String) :
    (m.nodeLines grouped names).filterMap FlowLine.ungrouped? = m.nodeLines false names := by
  rw [nodeLines, nodeLines, List.filterMap_map, ← List.filterMap_eq_map]
  exact List.filterMap_congr fun name _ => rfl

theorem filterMap_ungrouped?_groupLines (id title : String) (names : List String) :
    (m.groupLines id title names).filterMap FlowLine.ungrouped? = m.nodeLines false names := by
  rw [groupLines]
  split
  · rename_i hempty
    rw [List.isEmpty_iff.1 hempty]
    rfl
  · rw [List.cons_append, List.filterMap_cons_none rfl, List.filterMap_append,
      filterMap_ungrouped?_nodeLines]
    exact List.append_nil _

/-- **Grouping rearranges the nodes of units**, and does nothing else to them. -/
theorem perm_ungrouped_unitLines (m : SchemaModel) (tested : List String) :
    ((m.unitLines tested true).filterMap FlowLine.ungrouped?).Perm (m.unitLines tested false) := by
  rw [unitLines, unitLines, if_pos rfl, if_neg Bool.false_ne_true, List.filterMap_append,
    filterMap_ungrouped?_groupLines, filterMap_ungrouped?_groupLines, nodeLines, nodeLines,
    ← List.map_append]
  exact (List.filter_append_perm _ m.names).map _

/-! ### Flowcharts -/

theorem closedDrawing_flowchart (m : SchemaModel) (tested : List String) (orientation : String)
    (byRole : Bool) : m.ClosedDrawing tested (m.flowchart tested orientation byRole) where
  written := fun line _ => line.written
  plain := by
    intro line hline id hid
    obtain ⟨name, -, rfl⟩ := exists_name_of_mem_ids hline hid
    rw [nodeId_eq]
    exact NodeId.plain_ofName _
  declared := by
    intro line hline id hid
    obtain ⟨name, hname, rfl⟩ := exists_name_of_mem_ids hline hid
    exact ⟨m.nodeLabel name, mem_nodes_flowchart hname⟩
  nodes := by
    have hunits : (m.names.map fun name => (m.nodeId name, m.nodeLabel name)) =
        m.names.map fun name => (NodeId.ofName name, name) := by
      refine List.map_congr_left fun name hname => ?_
      rw [nodeId_of_mem_names hname, nodeLabel, if_pos (contains_of_mem_names hname)]
    have hmissing : (m.missingNames.map fun name => (m.nodeId name, m.nodeLabel name)) =
        m.missingNames.map fun name => (NodeId.ofMissing name, name ++ " [MISSING]") := by
      refine List.map_congr_left fun name hname => ?_
      rw [nodeId_of_mem_missingNames hname, nodeLabel, (mem_missingNames_iff.1 hname).2]
      rfl
    exact ⟨_, hunits ▸ nodeLabels_unitLines, hmissing ▸ filterMap_nodeLabel?_flowchart⟩
  count_node := fun name hname =>
    List.count_eq_one_of_mem nodup_nodes_flowchart (mem_nodes_flowchart hname)
  styles := filterMap_styled?_flowchart
  styled := fun name hname => styled_flowchart hname
  edges := filterMap_joins?_flowchart
  marks := filterMap_marked?_flowchart

/-- **Flowcharts are closed**, for every model. A line is here what is drawn as one, which is more than
one line of the text if a name or the orientation holds a line break.

* A flowchart is drawn without looking up a name in vain, and its lines are closed.
* The missing names, which it has nodes for behind those of the units, are all that units depend on
  and no unit has, in strictly ascending order.
* Whether units are grouped makes no difference but to their own nodes, which grouping rearranges. -/
theorem flowchart_closed (m : SchemaModel) (tested : List String) (orientation : String) :
    (∀ byRole, ∃ lines, m.draw? tested orientation byRole = some lines ∧
      m.flowchartReport tested orientation byRole = Text.joinLines (lines.map (·.text)) ∧
      m.ClosedDrawing tested lines) ∧
    m.missingNames.Pairwise (· < ·) ∧
    (∀ name, name ∈ m.missingNames ↔
      (∃ u ∈ m.units, name ∈ u.dependencies) ∧ ∀ u ∈ m.units, u.name ≠ name) ∧
    (∃ rest, ∀ byRole, m.draw? tested orientation byRole =
      some (.header orientation :: m.unitLines tested byRole ++ rest)) ∧
    ((m.unitLines tested true).filterMap FlowLine.ungrouped?).Perm (m.unitLines tested false) := by
  refine ⟨fun byRole => ?_, m.pairwise_lt_missingNames, fun name => ?_, ?_,
    m.perm_ungrouped_unitLines tested⟩
  · exact ⟨_, m.draw?_eq tested orientation byRole, m.flowchartReport_eq tested orientation byRole,
      m.closedDrawing_flowchart tested orientation byRole⟩
  · rw [mem_missingNames_iff, ← Bool.not_eq_true, contains_iff]
    simp only [not_exists, not_and, ne_eq]
  · refine ⟨(if m.missingNames.isEmpty then [] else .blank :: .missingHeading :: m.missingLines) ++
      (part m.edgeLines ++ part (m.testedLines tested)), fun byRole => ?_⟩
    rw [draw?_eq, flowchart, List.append_assoc, List.append_assoc]

end SchemaModel

end SchemaAssembly
