import Mathlib
import SchemaAssembly.Report.Flowchart

/-!
# What a flowchart draws

A flowchart has a node line for each name and an edge line for each dependency, whatever the names are
(`nodeLabels_flowchart`, `mem_edge_flowchart_iff`). But lines say what they are about by identifiers,
and an identifier keeps less than the name holds. So the drawing is faithful, with a node for each
name and edges between nodes exactly where there are dependencies, if and only if no two names of the
model are blurred by their identifiers (`flowchart_faithful_iff`).

- `NodeId.Blurs` says when two texts have the same identifier, by what it keeps of them
  (`NodeId.ofName_eq_ofName_iff`).
- `SchemaModel.mergedNames` is a model that is not drawn faithfully.
-/

namespace SchemaAssembly

namespace NodeId

variable {x y name : String}

/-! ### What identifiers keep -/

/-- What the identifier of a name keeps of its characters. -/
def kept (name : String) : List Char :=
  name.toList.flatMap ofChar

/-- Characters made into an identifier: one that does not start with a letter gets one before it. -/
def started : List Char → List Char
  | [] => ['u', 'n', 'k', 'n', 'o', 'w', 'n']
  | c :: rest => if c.isAlpha then c :: rest else 'n' :: '_' :: c :: rest

theorem ofName_eq (name : String) : ofName name = String.ofList (started (kept name)) := by
  rw [ofName, kept]
  cases name.toList.flatMap ofChar with
  | nil => rfl
  | cons c rest => rfl

/-- **Blurred texts**: an identifier does not tell them apart. -/
inductive Blurs (x y : String) : Prop
  /-- the same is kept of both -/
  | kept : kept x = kept y → Blurs x y
  /-- nothing is kept of the one, and the other spells what is written then -/
  | nothing : NodeId.kept x = [] → NodeId.kept y = started [] → Blurs x y
  /-- what is kept of the one does not start with a letter, and the other spells what is written
  before it then -/
  | marked {c : Char} {rest : List Char} : NodeId.kept x = c :: rest → c.isAlpha = false →
    NodeId.kept y = 'n' :: '_' :: c :: rest → Blurs x y

/-- What is kept of blurred texts starts alike. -/
theorem Blurs.started_eq (h : Blurs x y) : started (NodeId.kept x) = started (NodeId.kept y) := by
  cases h with
  | kept h => rw [h]
  | nothing hx hy => rw [hx, hy, started, started, if_pos (by decide)]
  | marked hx hc hy =>
    rw [hx, hy, started, started, hc, if_neg Bool.false_ne_true, if_pos (by decide)]

/-- **Identifiers are equal** exactly if one of the texts is blurred with the other. -/
theorem ofName_eq_ofName_iff : ofName x = ofName y ↔ Blurs x y ∨ Blurs y x := by
  rw [ofName_eq, ofName_eq, String.ofList_inj]
  constructor
  · intro h
    cases hx : kept x with
    | nil =>
      cases hy : kept y with
      | nil => exact Or.inl (.kept (hx.trans hy.symm))
      | cons d ds =>
        rw [hx, hy, started, started] at h
        split at h
        · exact Or.inl (.nothing hx (hy.trans h.symm))
        · exact absurd h (by simp)
    | cons c cs =>
      cases hy : kept y with
      | nil =>
        rw [hx, hy, started, started] at h
        split at h
        · exact Or.inr (.nothing hy (hx.trans h))
        · exact absurd h (by simp)
      | cons d ds =>
        rw [hx, hy, started, started] at h
        by_cases hc : c.isAlpha = true <;> by_cases hd : d.isAlpha = true
        · rw [if_pos hc, if_pos hd] at h
          exact Or.inl (.kept (hx.trans (h.trans hy.symm)))
        · rw [if_pos hc, if_neg hd] at h
          exact Or.inr (.marked hy (Bool.not_eq_true _ ▸ hd) (hx.trans h))
        · rw [if_neg hc, if_pos hd] at h
          exact Or.inl (.marked hx (Bool.not_eq_true _ ▸ hc) (hy.trans h.symm))
        · rw [if_neg hc, if_neg hd] at h
          injection h with _ h
          injection h with _ h
          exact Or.inl (.kept (hx.trans (h.trans hy.symm)))
  · rintro (h | h)
    · exact h.started_eq
    · exact h.started_eq.symm

/-- **A plain name**: letters, digits and underscores, and a letter first. -/
structure Plain (name : String) : Prop where
  /-- it starts with a letter -/
  starts : ∃ c rest, name.toList = c :: rest ∧ c.isAlpha = true
  /-- all characters are kept -/
  characters : ∀ c ∈ name.toList, c.isAlphanum = true ∨ c = '_'

theorem ofChar_eq_self {c : Char} (h : c.isAlphanum = true ∨ c = '_') : ofChar c = [c] := by
  rcases h with h | rfl
  · rw [ofChar]
    split
    · rename_i hseparator
      simp only [Bool.or_eq_true, beq_iff_eq] at hseparator
      rcases hseparator with ((((rfl | rfl) | rfl) | rfl) | rfl) | rfl <;> exact absurd h (by decide)
    · rfl
  · rfl

theorem kept_eq_toList (h : ∀ c ∈ name.toList, c.isAlphanum = true ∨ c = '_') :
    kept name = name.toList := by
  rw [kept]
  generalize name.toList = cs at h
  induction cs with
  | nil => rfl
  | cons c rest ih =>
    rw [List.flatMap_cons, ofChar_eq_self (h c List.mem_cons_self),
      ih fun d hd => h d (List.mem_cons_of_mem c hd)]
    rfl

/-- What is kept of a name are letters, digits and underscores. -/
theorem isAlphanum_or_eq_of_mem_kept {c : Char} (h : c ∈ kept name) :
    c.isAlphanum = true ∨ c = '_' := by
  obtain ⟨d, -, hc⟩ := List.mem_flatMap.1 h
  rw [ofChar] at hc
  split at hc
  · exact Or.inr (List.mem_singleton.1 hc)
  · split at hc
    · rename_i halphanum
      obtain rfl := List.mem_singleton.1 hc
      exact Or.inl halphanum
    · cases hc

/-- **The identifier of any name is plain.** -/
theorem plain_ofName (name : String) : Plain (ofName name) := by
  have hkept : ∀ c ∈ kept name, c.isAlphanum = true ∨ c = '_' :=
    fun c hc => isAlphanum_or_eq_of_mem_kept hc
  rw [ofName_eq]
  constructor
  · rw [String.toList_ofList]
    cases kept name with
    | nil => exact ⟨'u', _, rfl, by decide⟩
    | cons c rest =>
      rw [started]
      split
      · rename_i halpha
        exact ⟨c, rest, rfl, halpha⟩
      · exact ⟨'n', _, rfl, by decide⟩
  · rw [String.toList_ofList]
    cases hchars : kept name with
    | nil =>
      have hall : (started []).all (fun c => c.isAlphanum || c == '_') = true := by decide
      exact fun c hc => by simpa using List.all_eq_true.1 hall c hc
    | cons c rest =>
      rw [hchars] at hkept
      rw [started]
      split
      · exact hkept
      · exact List.forall_mem_cons.2 ⟨Or.inl (by decide), List.forall_mem_cons.2 ⟨Or.inr rfl, hkept⟩⟩

/-- Plain names are not blurred. -/
theorem Plain.eq_of_blurs (hx : Plain x) (hy : Plain y) (h : Blurs x y) : x = y := by
  have hkx := kept_eq_toList hx.characters
  have hky := kept_eq_toList hy.characters
  obtain ⟨c, rest, hc, halpha⟩ := hx.starts
  cases h with
  | kept h => exact String.toList_inj.1 (hkx.symm.trans (h.trans hky))
  | nothing h =>
    rw [hkx, hc] at h
    cases h
  | marked h hnot =>
    rw [hkx, hc] at h
    obtain ⟨rfl, -⟩ := List.cons_eq_cons.1 h
    rw [halpha] at hnot
    cases hnot

end NodeId

namespace FlowLine

/-- The identifier and the label of a node line. -/
def nodeLabel? : FlowLine → Option (String × String)
  | node _ id label => some (id, label)
  | _ => none

/-- Whether an edge line is dashed, and the identifiers that it joins. -/
def joins? : FlowLine → Option (Bool × String × String)
  | edge dashed source target => some (dashed, source, target)
  | _ => none

end FlowLine

namespace SchemaModel

variable {m : SchemaModel} {tested : List String} {orientation : String} {byRole : Bool}
  {x y name : String}

/-! ### What is drawn, whatever the names are -/

/-- The names that a flowchart draws: those of units, and those that units depend on. -/
def drawnNames (m : SchemaModel) : List String :=
  m.names ++ m.missingNames

/-- The label of a name's node. -/
def nodeLabel (m : SchemaModel) (name : String) : String :=
  if m.contains name then name else name ++ " [MISSING]"

/-- What the identifier of a name is made of. -/
def spelling (m : SchemaModel) (name : String) : String :=
  if m.contains name then name else "missing_" ++ name

theorem nodeId_eq (m : SchemaModel) (name : String) :
    m.nodeId name = NodeId.ofName (m.spelling name) := by
  rw [nodeId, spelling, NodeId.ofMissing]
  split <;> rfl

/-- Every unit and everything that it depends on is drawn. -/
theorem mem_drawnNames_iff :
    name ∈ m.drawnNames ↔ ∃ u ∈ m.units, u.name = name ∨ name ∈ u.dependencies := by
  rw [drawnNames, List.mem_append, mem_names_iff, mem_missingNames_iff]
  constructor
  · rintro (⟨u, hu, h⟩ | ⟨⟨u, hu, h⟩, -⟩)
    · exact ⟨u, hu, Or.inl h⟩
    · exact ⟨u, hu, Or.inr h⟩
  · rintro ⟨u, hu, h⟩
    cases hcontains : m.contains name with
    | true => exact Or.inl (contains_iff.1 hcontains)
    | false =>
      rcases h with h | h
      · rw [contains_iff.2 ⟨u, hu, h⟩] at hcontains
        cases hcontains
      · exact Or.inr ⟨⟨u, hu, h⟩, rfl⟩

theorem nodup_drawnNames (m : SchemaModel) : m.drawnNames.Nodup := by
  refine List.nodup_append'.2 ⟨nodup_distinct _, (nodup_sortedSet _).filter _, fun name h h' => ?_⟩
  have hcontains := contains_of_mem_names h
  rw [(mem_missingNames_iff.1 h').2] at hcontains
  cases hcontains

theorem filterMap_nodeLabel?_nodeLines (grouped : Bool) {names : List String}
    (h : ∀ name ∈ names, m.contains name = true) :
    (m.nodeLines grouped names).filterMap FlowLine.nodeLabel? =
      names.map fun name => (m.nodeId name, m.nodeLabel name) := by
  rw [nodeLines, List.filterMap_map, ← List.filterMap_eq_map']
  refine List.filterMap_congr fun name hname => ?_
  rw [nodeLabel, if_pos (h name hname)]
  rfl

theorem filterMap_nodeLabel?_groupLines (id title : String) {names : List String}
    (h : ∀ name ∈ names, m.contains name = true) :
    (m.groupLines id title names).filterMap FlowLine.nodeLabel? =
      names.map fun name => (m.nodeId name, m.nodeLabel name) := by
  rw [groupLines]
  cases names with
  | nil => rfl
  | cons first rest =>
    rw [if_neg (by simp), List.cons_append, List.filterMap_cons_none rfl, List.filterMap_append,
      filterMap_nodeLabel?_nodeLines true h]
    exact List.append_nil _

/-- The units are drawn, in the order of the model or in two groups. -/
theorem nodeLabels_unitLines :
    ((m.unitLines tested byRole).filterMap FlowLine.nodeLabel?).Perm
      (m.names.map fun name => (m.nodeId name, m.nodeLabel name)) := by
  have hnames : ∀ name ∈ m.names, m.contains name = true := fun _ => contains_of_mem_names
  rw [unitLines]
  cases byRole with
  | false =>
    rw [if_neg Bool.false_ne_true, filterMap_nodeLabel?_nodeLines false hnames]
  | true =>
    rw [if_pos rfl, List.filterMap_append,
      filterMap_nodeLabel?_groupLines _ _ fun name h => hnames name (List.mem_of_mem_filter h),
      filterMap_nodeLabel?_groupLines _ _ fun name h => hnames name (List.mem_of_mem_filter h),
      ← List.map_append]
    exact (List.filter_append_perm _ m.names).map _

theorem filterMap_nodeLabel?_missingLines :
    m.missingLines.filterMap FlowLine.nodeLabel? =
      m.missingNames.map fun name => (m.nodeId name, m.nodeLabel name) := by
  have hnot : ∀ name ∈ m.missingNames, m.contains name = false :=
    fun name h => (mem_missingNames_iff.1 h).2
  rw [missingLines]
  generalize m.missingNames = names at hnot
  induction names with
  | nil => rfl
  | cons name rest ih =>
    rw [List.flatMap_cons, List.filterMap_append, List.map_cons,
      ih fun other h => hnot other (List.mem_cons_of_mem name h), nodeLabel,
      hnot name List.mem_cons_self]
    rfl

/-- The lines of units are nodes and groups. -/
theorem mem_unitLines {line : FlowLine} (h : line ∈ m.unitLines tested byRole) :
    (∃ grouped, ∃ name ∈ m.names, line = .node grouped (m.nodeId name) name) ∨
      (∃ id title, line = .groupStart id title) ∨ line = .groupEnd := by
  have hnodes : ∀ {grouped : Bool} {names : List String}, names ⊆ m.names →
      line ∈ m.nodeLines grouped names →
        ∃ grouped, ∃ name ∈ m.names, line = .node grouped (m.nodeId name) name := by
    intro grouped names hnames hline
    obtain ⟨name, hname, rfl⟩ := List.mem_map.1 hline
    exact ⟨grouped, name, hnames hname, rfl⟩
  have hgroup : ∀ {id title : String} {names : List String}, names ⊆ m.names →
      line ∈ m.groupLines id title names →
        (∃ grouped, ∃ name ∈ m.names, line = .node grouped (m.nodeId name) name) ∨
          (∃ id title, line = .groupStart id title) ∨ line = .groupEnd := by
    intro id title names hnames hline
    rw [groupLines] at hline
    split at hline
    · cases hline
    · rcases List.mem_append.1 hline with hline | hline
      · rcases List.mem_cons.1 hline with rfl | hline
        · exact Or.inr (Or.inl ⟨id, title, rfl⟩)
        · exact Or.inl (hnodes hnames hline)
      · exact Or.inr (Or.inr (List.mem_singleton.1 hline))
  rw [unitLines] at h
  split at h
  · rcases List.mem_append.1 h with h | h
    · exact hgroup List.filter_sublist.subset h
    · exact hgroup List.filter_sublist.subset h
  · exact Or.inl (hnodes (List.Subset.refl _) h)

theorem mem_missingLines_iff {line : FlowLine} :
    line ∈ m.missingLines ↔ ∃ name ∈ m.missingNames,
      line = .node false (m.nodeId name) (name ++ " [MISSING]") ∨
        line = .missingStyle (m.nodeId name) := by
  simp [missingLines]

theorem mem_edgeLines_iff {line : FlowLine} :
    line ∈ m.edgeLines ↔ ∃ u ∈ m.units, ∃ d ∈ u.dependencies,
      line = .edge (!m.contains d) (m.nodeId u.name) (m.nodeId d) := by
  rw [edgeLines, List.mem_map]
  constructor
  · rintro ⟨⟨source, target⟩, hedge, rfl⟩
    obtain ⟨u, hu, rfl, hd⟩ := mem_edges_iff.1 hedge
    exact ⟨u, hu, target, hd, rfl⟩
  · rintro ⟨u, hu, d, hd, rfl⟩
    exact ⟨(u.name, d), mem_edges_iff.2 ⟨u, hu, rfl, hd⟩, rfl⟩

theorem mem_testedLines {line : FlowLine} (h : line ∈ m.testedLines tested) :
    line = .testedStyle ∨
      line = .testedNodes ((m.names.filter fun name => tested.contains name).map m.nodeId) := by
  rw [testedLines] at h
  split at h
  · cases h
  · rcases List.mem_cons.1 h with h | h
    · exact Or.inl h
    · exact Or.inr (List.mem_singleton.1 h)

section

variable {α : Type} {f : FlowLine → Option α}

theorem filterMap_unitLines_eq_nil (hnode : ∀ grouped id label, f (.node grouped id label) = none)
    (hstart : ∀ id title, f (.groupStart id title) = none) (hend : f .groupEnd = none) :
    (m.unitLines tested byRole).filterMap f = [] := by
  refine List.filterMap_eq_nil_iff.2 fun line hline => ?_
  rcases mem_unitLines hline with ⟨grouped, name, -, rfl⟩ | ⟨id, title, rfl⟩ | rfl
  · exact hnode _ _ _
  · exact hstart _ _
  · exact hend

theorem filterMap_missingLines_eq_nil
    (hnode : ∀ grouped id label, f (.node grouped id label) = none)
    (hstyle : ∀ id, f (.missingStyle id) = none) : m.missingLines.filterMap f = [] := by
  refine List.filterMap_eq_nil_iff.2 fun line hline => ?_
  obtain ⟨name, -, rfl | rfl⟩ := mem_missingLines_iff.1 hline
  · exact hnode _ _ _
  · exact hstyle _

theorem filterMap_edgeLines_eq_nil (hedge : ∀ dashed x y, f (.edge dashed x y) = none) :
    m.edgeLines.filterMap f = [] := by
  refine List.filterMap_eq_nil_iff.2 fun line hline => ?_
  obtain ⟨u, -, d, -, rfl⟩ := mem_edgeLines_iff.1 hline
  exact hedge _ _ _

theorem filterMap_testedLines_eq_nil (hstyle : f .testedStyle = none)
    (hnodes : ∀ ids, f (.testedNodes ids) = none) : (m.testedLines tested).filterMap f = [] := by
  refine List.filterMap_eq_nil_iff.2 fun line hline => ?_
  rcases mem_testedLines hline with rfl | rfl
  · exact hstyle
  · exact hnodes _

theorem filterMap_part (hblank : f .blank = none) (lines : List FlowLine) :
    (part lines).filterMap f = lines.filterMap f := by
  rw [part]
  split
  · rename_i hempty
    rw [List.isEmpty_iff.1 hempty]
  · exact List.filterMap_cons_none hblank

/-- **What is read off a flowchart** is read off the lines of its parts. -/
theorem filterMap_flowchart (hheader : f (.header orientation) = none) (hblank : f .blank = none)
    (hheading : f .missingHeading = none) :
    (m.flowchart tested orientation byRole).filterMap f =
      (m.unitLines tested byRole).filterMap f ++ m.missingLines.filterMap f ++
        m.edgeLines.filterMap f ++ (m.testedLines tested).filterMap f := by
  have hmissing : (if m.missingNames.isEmpty then [] else
      FlowLine.blank :: .missingHeading :: m.missingLines).filterMap f =
        m.missingLines.filterMap f := by
    split
    · rename_i hempty
      rw [missingLines, List.isEmpty_iff.1 hempty]
      rfl
    · rw [List.filterMap_cons_none hblank, List.filterMap_cons_none hheading]
  rw [flowchart, List.cons_append, List.cons_append, List.cons_append,
    List.filterMap_cons_none hheader, List.filterMap_append, List.filterMap_append,
    List.filterMap_append, hmissing, filterMap_part hblank, filterMap_part hblank]

end

/-- The nodes of units come first, and then those of the missing names. -/
theorem filterMap_nodeLabel?_flowchart :
    (m.flowchart tested orientation byRole).filterMap FlowLine.nodeLabel? =
      (m.unitLines tested byRole).filterMap FlowLine.nodeLabel? ++
        m.missingNames.map fun name => (m.nodeId name, m.nodeLabel name) := by
  rw [filterMap_flowchart rfl rfl rfl, filterMap_nodeLabel?_missingLines,
    filterMap_edgeLines_eq_nil fun _ _ _ => rfl, filterMap_testedLines_eq_nil rfl fun _ => rfl,
    List.append_nil, List.append_nil]

/-- **There is a node line for each name**, with its identifier and its label, and no other. -/
theorem nodeLabels_flowchart (m : SchemaModel) (tested : List String) (orientation : String)
    (byRole : Bool) :
    ((m.flowchart tested orientation byRole).filterMap FlowLine.nodeLabel?).Perm
      (m.drawnNames.map fun name => (m.nodeId name, m.nodeLabel name)) := by
  rw [filterMap_nodeLabel?_flowchart, drawnNames, List.map_append]
  exact nodeLabels_unitLines.append_right _

/-- **There is an edge line for each dependency**, in the order of the model, and no other. -/
theorem filterMap_joins?_flowchart :
    (m.flowchart tested orientation byRole).filterMap FlowLine.joins? =
      m.edges.map fun edge => (!m.contains edge.2, m.nodeId edge.1, m.nodeId edge.2) := by
  have hedges : m.edgeLines.filterMap FlowLine.joins? =
      m.edges.map fun edge => (!m.contains edge.2, m.nodeId edge.1, m.nodeId edge.2) := by
    rw [edgeLines, List.filterMap_map, ← List.filterMap_eq_map]
    exact List.filterMap_congr fun edge _ => rfl
  rw [filterMap_flowchart rfl rfl rfl,
    filterMap_unitLines_eq_nil (fun _ _ _ => rfl) (fun _ _ => rfl) rfl,
    filterMap_missingLines_eq_nil (fun _ _ _ => rfl) fun _ => rfl, hedges,
    filterMap_testedLines_eq_nil rfl fun _ => rfl]
  exact List.append_nil _

/-- **The edge lines** are drawn for dependencies, dashed if no unit has their name. -/
theorem mem_edge_flowchart_iff {dashed : Bool} {source target : String} :
    .edge dashed source target ∈ m.flowchart tested orientation byRole ↔
      ∃ u ∈ m.units, ∃ d ∈ u.dependencies,
        dashed = (!m.contains d) ∧ source = m.nodeId u.name ∧ target = m.nodeId d := by
  have hjoins : .edge dashed source target ∈ m.flowchart tested orientation byRole ↔
      (dashed, source, target) ∈
        (m.flowchart tested orientation byRole).filterMap FlowLine.joins? := by
    rw [List.mem_filterMap]
    constructor
    · exact fun h => ⟨_, h, rfl⟩
    · rintro ⟨line, hline, heq⟩
      cases line <;> cases heq
      exact hline
  rw [hjoins, filterMap_joins?_flowchart, List.mem_map]
  constructor
  · rintro ⟨⟨name, d⟩, hedge, heq⟩
    obtain ⟨u, hu, rfl, hd⟩ := mem_edges_iff.1 hedge
    cases heq
    exact ⟨u, hu, d, hd, rfl, rfl, rfl⟩
  · rintro ⟨u, hu, d, hd, rfl, rfl, rfl⟩
    exact ⟨(u.name, d), mem_edges_iff.2 ⟨u, hu, rfl, hd⟩, rfl⟩

/-! ### When it is drawn faithfully -/

/-- **A faithful drawing**: names have identifiers of their own, which belong to one node each, and
two nodes are joined exactly if a unit of the one name depends on the other. -/
structure FaithfullyDrawn (m : SchemaModel) (lines : List FlowLine) : Prop where
  /-- different names have different identifiers -/
  eq_of_nodeId_eq : ∀ x ∈ m.drawnNames, ∀ y ∈ m.drawnNames, m.nodeId x = m.nodeId y → x = y
  /-- no identifier is that of two nodes -/
  nodup_nodes : ((lines.filterMap FlowLine.nodeLabel?).map (·.1)).Nodup
  /-- every name is the label of a node with its identifier, and there are no other nodes -/
  mem_nodes_iff : ∀ node, node ∈ lines.filterMap FlowLine.nodeLabel? ↔
    ∃ name ∈ m.drawnNames, node = (m.nodeId name, m.nodeLabel name)
  /-- two nodes are joined exactly if there is a dependency -/
  edge_iff : ∀ x ∈ m.drawnNames, ∀ y ∈ m.drawnNames,
    (∃ dashed, .edge dashed (m.nodeId x) (m.nodeId y) ∈ lines) ↔
      ∃ u ∈ m.units, u.name = x ∧ y ∈ u.dependencies

/-- Identifiers that tell names apart are all that a faithful drawing needs. -/
theorem faithfullyDrawn_of_injective (tested : List String) (orientation : String) (byRole : Bool)
    (h : ∀ x ∈ m.drawnNames, ∀ y ∈ m.drawnNames, m.nodeId x = m.nodeId y → x = y) :
    m.FaithfullyDrawn (m.flowchart tested orientation byRole) where
  eq_of_nodeId_eq := h
  nodup_nodes := by
    have hperm := (m.nodeLabels_flowchart tested orientation byRole).map (·.1)
    rw [List.map_map] at hperm
    exact hperm.nodup_iff.2 (m.nodup_drawnNames.map_on h)
  mem_nodes_iff := by
    intro node
    rw [(m.nodeLabels_flowchart tested orientation byRole).mem_iff, List.mem_map]
    exact exists_congr fun name => and_congr_right fun _ => eq_comm
  edge_iff := by
    intro x hx y hy
    simp only [mem_edge_flowchart_iff]
    constructor
    · rintro ⟨dashed, u, hu, d, hd, -, hsource, htarget⟩
      have hxu := h x hx u.name (mem_drawnNames_iff.2 ⟨u, hu, Or.inl rfl⟩) hsource
      have hyd := h y hy d (mem_drawnNames_iff.2 ⟨u, hu, Or.inr hd⟩) htarget
      exact ⟨u, hu, hxu.symm, hyd ▸ hd⟩
    · rintro ⟨u, hu, rfl, hd⟩
      exact ⟨_, u, hu, y, hd, rfl, rfl, rfl⟩

/-- Plain names, of which no unit's begins like the identifier of a name without a unit, are told
apart by their identifiers. -/
theorem eq_of_blurs_spelling (hplain : ∀ name ∈ m.drawnNames, NodeId.Plain name)
    (hunits : ∀ name ∈ m.names, ¬ "missing_".toList <+: name.toList)
    (hx : x ∈ m.drawnNames) (hy : y ∈ m.drawnNames)
    (h : NodeId.Blurs (m.spelling x) (m.spelling y)) : x = y := by
  have hspelling : ∀ name ∈ m.drawnNames, NodeId.Plain (m.spelling name) := by
    intro name hname
    rw [spelling]
    split
    · exact hplain name hname
    · refine ⟨⟨'m', "issing_".toList ++ name.toList, by simp, by decide⟩, fun c hc => ?_⟩
      rw [String.toList_append, List.mem_append] at hc
      rcases hc with hc | hc
      · have hall : "missing_".toList.all (fun c => c.isAlphanum || c == '_') = true := by decide
        simpa using List.all_eq_true.1 hall c hc
      · exact (hplain name hname).characters c hc
  have heq := (hspelling x hx).eq_of_blurs (hspelling y hy) h
  have hnames : ∀ name, m.contains name = true → ∀ other, name ≠ "missing_" ++ other := by
    rintro name hname other rfl
    refine hunits _ (mem_names_iff.2 (contains_iff.1 hname)) ?_
    rw [String.toList_append]
    exact List.prefix_append _ _
  rw [spelling, spelling] at heq
  split at heq <;> split at heq
  · exact heq
  · exact absurd heq (hnames x ‹_› y)
  · exact absurd heq.symm (hnames y ‹_› x)
  · exact (String.append_right_inj _).1 heq

/-- **When a flowchart is faithful.** A node line is drawn for each name and an edge line for each
dependency, always. Drawn faithfully is a model exactly if no two of its names are blurred by what
their identifiers are made of. So it is if all its names are plain and no unit's name begins like the
identifier of a name without a unit. -/
theorem flowchart_faithful_iff (m : SchemaModel) (tested : List String) (orientation : String)
    (byRole : Bool) :
    ((m.flowchart tested orientation byRole).filterMap FlowLine.nodeLabel?).Perm
      (m.drawnNames.map fun name => (m.nodeId name, m.nodeLabel name)) ∧
    (∀ dashed source target, .edge dashed source target ∈ m.flowchart tested orientation byRole ↔
      ∃ u ∈ m.units, ∃ d ∈ u.dependencies,
        dashed = (!m.contains d) ∧ source = m.nodeId u.name ∧ target = m.nodeId d) ∧
    (m.FaithfullyDrawn (m.flowchart tested orientation byRole) ↔
      ∀ x ∈ m.drawnNames, ∀ y ∈ m.drawnNames,
        NodeId.Blurs (m.spelling x) (m.spelling y) → x = y) ∧
    ((∀ name ∈ m.drawnNames, NodeId.Plain name) →
      (∀ name ∈ m.names, ¬ "missing_".toList <+: name.toList) →
        m.FaithfullyDrawn (m.flowchart tested orientation byRole)) := by
  have hiff : m.FaithfullyDrawn (m.flowchart tested orientation byRole) ↔
      ∀ x ∈ m.drawnNames, ∀ y ∈ m.drawnNames,
        NodeId.Blurs (m.spelling x) (m.spelling y) → x = y := by
    constructor
    · intro h x hx y hy hblurs
      refine h.eq_of_nodeId_eq x hx y hy ?_
      rw [nodeId_eq, nodeId_eq, NodeId.ofName_eq_ofName_iff]
      exact Or.inl hblurs
    · intro h
      refine faithfullyDrawn_of_injective tested orientation byRole fun x hx y hy heq => ?_
      rw [nodeId_eq, nodeId_eq, NodeId.ofName_eq_ofName_iff] at heq
      rcases heq with hblurs | hblurs
      · exact h x hx y hy hblurs
      · exact (h y hy x hx hblurs).symm
  refine ⟨m.nodeLabels_flowchart tested orientation byRole, fun _ _ _ => mem_edge_flowchart_iff,
    hiff, fun hplain hunits => hiff.2 fun x hx y hy h => ?_⟩
  exact eq_of_blurs_spelling hplain hunits hx hy h

/-- Two units whose names differ in what an identifier does not keep, and one that is named like the
identifier of a name without a unit. -/
def mergedNames : SchemaModel where
  units :=
    [{ name := "a-b", imports := ["c"] }, { name := "a.b" }, { name := "missing_c" }]
  ordered := by decide

/-- Four names are drawn as two nodes, and an edge joins two units that do not depend on each other. -/
theorem not_faithfullyDrawn_mergedNames :
    mergedNames.drawnNames = ["a-b", "a.b", "missing_c", "c"] ∧
    mergedNames.drawnNames.map mergedNames.nodeId = ["a_b", "a_b", "missing_c", "missing_c"] ∧
    .edge true (mergedNames.nodeId "a.b") (mergedNames.nodeId "missing_c") ∈
      mergedNames.flowchart [] "LR" false ∧
    (¬ ∃ u ∈ mergedNames.units, u.name = "a.b" ∧ "missing_c" ∈ u.dependencies) ∧
    ¬ mergedNames.FaithfullyDrawn (mergedNames.flowchart [] "LR" false) := by
  have hnames : mergedNames.drawnNames = ["a-b", "a.b", "missing_c", "c"] := by decide +kernel
  have hids : mergedNames.drawnNames.map mergedNames.nodeId =
      ["a_b", "a_b", "missing_c", "missing_c"] := by decide +kernel
  refine ⟨hnames, hids, by decide +kernel, by decide, fun h => ?_⟩
  have hsame : mergedNames.nodeId "a-b" = mergedNames.nodeId "a.b" := by decide +kernel
  have heq := h.eq_of_nodeId_eq "a-b" (by rw [hnames]; decide) "a.b" (by rw [hnames]; decide) hsame
  exact absurd heq (by decide)

end SchemaModel

end SchemaAssembly
