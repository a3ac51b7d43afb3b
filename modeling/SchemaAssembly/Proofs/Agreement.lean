import Mathlib
import SchemaAssembly.Proofs.Flowcharts
import SchemaAssembly.Proofs.Listings
import SchemaAssembly.Proofs.TreeFacts

/-!
# Reports agree

The three reports of a model are written in three ways: a tree unfolds names, a flowchart goes through
the dependencies one by one, and a listing shows the units as they are. Read back from their texts,
they say the same (`reports_agree`).

Each of them is compared with the model: `tells_listing`, `tells_treeReport`, and for a flowchart,
which says what it says by identifiers, `ofChart_flowchartReport`.
-/

namespace SchemaAssembly

open Text (isOneWord isIdentifier)

/-! ### Listings -/

/-- What is read of all elements, each of which is read as `h` says. -/
theorem mapM_map_eq_some {α β γ : Type} {f : β → Option γ} {g : α → β} {h : α → γ}
    (hread : ∀ a, f (g a) = some (h a)) (as : List α) :
    (as.map g).mapM f = some (as.map h) := by
  rw [List.mapM_map]
  exact mapM_eq_some_map fun a _ => hread a

/-- A unit is read from its entry. -/
theorem ListedUnit.ofValue?_entry (u : SchemaUnit) (source : Option String) (tested : Bool) :
    ofValue? (u.entry source tested) = some ⟨u.name, tested, u.dependencies⟩ := by
  have htexts : ∀ texts : List String,
      (texts.map JsonValue.text).mapM JsonValue.text? = some texts := by
    intro texts
    have hread := mapM_map_eq_some (f := JsonValue.text?) (g := JsonValue.text) (h := id)
      (fun _ => rfl) texts
    rwa [List.map_id] at hread
  simp [ofValue?, SchemaUnit.entry, JsonValue.member?, JsonValue.text?, JsonValue.bool?,
    JsonValue.items?, JsonValue.ofTexts, htexts, SchemaUnit.dependencies]

/-- A unit as it is read from a listing. -/
def SchemaUnit.listedUnit (tested : List String) (u : SchemaUnit) : ListedUnit :=
  ⟨u.name, tested.contains u.name || u.tested, u.dependencies⟩

namespace SchemaModel

variable {m : SchemaModel} {t : FileTree} {tested : List String}

theorem ofListing?_listingReport {base : Option Path} {indent : Int} {text : String}
    (h : m.listingReport t tested base indent = .ok text) :
    ReportFacts.ofListing? text =
      some (.ofUnits (m.units.map (SchemaUnit.listedUnit tested))) := by
  rw [listingReport] at h
  cases hlisting : m.listing t tested base with
  | error loop =>
    rw [hlisting] at h
    cases h
  | ok value =>
    rw [hlisting] at h
    cases h
    obtain ⟨source, rfl⟩ := exists_source_of_listing hlisting
    have hunits : (m.units.map fun u => u.entry (source u) (tested.contains u.name || u.tested)).mapM
        ListedUnit.ofValue? = some (m.units.map (SchemaUnit.listedUnit tested)) :=
      mapM_map_eq_some (fun u => ListedUnit.ofValue?_entry u _ _) m.units
    rw [ReportFacts.ofListing?, JsonValue.read_write]
    simp only [JsonValue.member?, JsonValue.items?, Option.bind_eq_bind, Option.bind_some,
      Option.pure_def, List.find?_cons_of_pos, decide_true, Option.map_some, hunits]

/-- **A listing tells what the model says.** -/
theorem tells_listing (hm : ∀ u ∈ m.units, u.tested = false) :
    (ReportFacts.ofUnits (m.units.map (SchemaUnit.listedUnit tested))).Tells m tested := by
  constructor
  · intro name
    simp only [ReportFacts.ofUnits, List.mem_map, List.mem_filter]
    constructor
    · rintro ⟨_, ⟨⟨u, hu, rfl⟩, hflag⟩, rfl⟩
      rw [SchemaUnit.listedUnit, hm u hu, Bool.or_false] at hflag
      exact ⟨List.contains_iff_mem.1 hflag, u, hu, rfl⟩
    · rintro ⟨htested, u, hu, rfl⟩
      refine ⟨u.listedUnit tested, ⟨⟨u, hu, rfl⟩, ?_⟩, rfl⟩
      rw [SchemaUnit.listedUnit, List.contains_iff_mem.2 htested, Bool.true_or]
  · intro name
    simp [ReportFacts.ofUnits, SchemaUnit.listedUnit, List.mem_filter, List.mem_flatMap]
  · intro name d
    simp only [ReportFacts.ofUnits, List.mem_flatMap, List.mem_map, Prod.mk.injEq]
    constructor
    · rintro ⟨_, ⟨u, hu, rfl⟩, d', hd, rfl, rfl⟩
      exact ⟨u, hu, rfl, hd⟩
    · rintro ⟨u, hu, rfl, hd⟩
      exact ⟨_, ⟨u, hu, rfl⟩, d, hd, rfl, rfl⟩

end SchemaModel

/-! ### Flowcharts -/

/-- Plain names are identifiers. -/
theorem NodeId.Plain.isIdentifier {name : String} (h : Plain name) : isIdentifier name = true := by
  obtain ⟨c, rest, hchars, halpha⟩ := h.starts
  have hrest : rest.all Text.continuesIdentifier = true := by
    refine List.all_eq_true.2 fun d hd => ?_
    rcases h.characters d (hchars ▸ List.mem_cons_of_mem c hd) with halphanum | rfl
    · rw [Text.continuesIdentifier, halphanum]
      rfl
    · decide
  rw [Text.isIdentifier, hchars]
  change ((c.isAlpha || c == '_') && rest.all Text.continuesIdentifier) = true
  rw [halpha, hrest]
  rfl

theorem SchemaModel.isIdentifier_nodeId (m : SchemaModel) (name : String) :
    isIdentifier (m.nodeId name) = true := by
  rw [nodeId_eq]
  exact (NodeId.plain_ofName _).isIdentifier

namespace ChartFact

/-- **Facts are read from lines of a flowchart**, each of which is one line. -/
structure ReadFrom (lines : List FlowLine) (facts : List ChartFact) : Prop where
  /-- no line holds a line feed -/
  lineFeed_not_mem : ∀ line ∈ lines, '\n' ∉ line.text.toList
  /-- these are the facts that their words say -/
  filterMap_eq : lines.filterMap (fun line => ofWords? (Text.wordsOf line.text)) = facts

namespace ReadFrom

theorem nil : ReadFrom [] [] :=
  ⟨fun _ h => absurd h List.not_mem_nil, rfl⟩

theorem append {lines more : List FlowLine} {facts moreFacts : List ChartFact}
    (h : ReadFrom lines facts) (hmore : ReadFrom more moreFacts) :
    ReadFrom (lines ++ more) (facts ++ moreFacts) where
  lineFeed_not_mem := by
    intro line hline
    rcases List.mem_append.1 hline with hline | hline
    · exact h.lineFeed_not_mem line hline
    · exact hmore.lineFeed_not_mem line hline
  filterMap_eq := by rw [List.filterMap_append, h.filterMap_eq, hmore.filterMap_eq]

theorem flatMap {α : Type} {f : α → List FlowLine} {g : α → List ChartFact} {as : List α}
    (h : ∀ a ∈ as, ReadFrom (f a) (g a)) : ReadFrom (as.flatMap f) (as.flatMap g) := by
  induction as with
  | nil => exact nil
  | cons a rest ih =>
    rw [List.flatMap_cons, List.flatMap_cons]
    exact (h a List.mem_cons_self).append (ih fun b hb => h b (List.mem_cons_of_mem a hb))

theorem map {α : Type} {f : α → FlowLine} {g : α → List ChartFact} {as : List α}
    (h : ∀ a ∈ as, ReadFrom [f a] (g a)) : ReadFrom (as.map f) (as.flatMap g) := by
  rw [List.map_eq_flatMap]
  exact flatMap h

/-- A line that words are written on, behind blanks. -/
theorem line {line : FlowLine} {facts : List ChartFact} (blanks : String) (words : List String)
    (htext : line.text = blanks ++ " ".intercalate words)
    (hblanks : blanks.toList.all (· == ' ') = true) (hwords : words.all isOneWord = true)
    (hfacts : (ofWords? words).toList = facts) : ReadFrom [line] facts := by
  subst hfacts
  rw [List.all_eq_true] at hwords
  constructor
  · intro other hother
    obtain rfl := List.mem_singleton.1 hother
    rw [htext, String.toList_append, List.mem_append]
    rintro (hmem | hmem)
    · exact absurd (List.all_eq_true.1 hblanks _ hmem) (by decide)
    · exact Text.lineFeed_not_mem_intercalate hwords hmem
  · have hblank : blanks.toList.all Text.isBlank = true := by
      refine List.all_eq_true.2 fun c hc => ?_
      obtain rfl := eq_of_beq (List.all_eq_true.1 hblanks c hc)
      decide
    rw [List.filterMap_cons, htext, Text.wordsOf_append hblank, Text.wordsOf_intercalate hwords]
    cases ofWords? words <;> rfl

theorem part {lines : List FlowLine} {facts : List ChartFact} (h : ReadFrom lines facts) :
    ReadFrom (SchemaModel.part lines) facts := by
  rw [SchemaModel.part]
  split
  · rename_i hempty
    rw [List.isEmpty_iff.1 hempty] at h
    exact h
  · have hblank : ReadFrom [.blank] [] := .line "" [] rfl rfl rfl rfl
    exact hblank.append h

end ReadFrom

end ChartFact

namespace SchemaModel

open ChartFact (ReadFrom)

variable {m : SchemaModel} {tested : List String}

theorem isOneWord_nodeId (m : SchemaModel) (name : String) : isOneWord (m.nodeId name) = true :=
  Text.isOneWord_of_isIdentifier (m.isIdentifier_nodeId name)

theorem isUnbroken_of_isIdentifier {name : String} (h : isIdentifier name = true) :
    Text.isUnbroken name = true :=
  Text.isUnbroken_of_isOneWord (Text.isOneWord_of_isIdentifier h)

/-- A node line of a unit says no fact. -/
theorem readFrom_node (grouped : Bool) {name : String} (h : isIdentifier name = true) :
    ReadFrom [.node grouped (m.nodeId name) name] [] := by
  have hword : isOneWord (m.nodeId name ++ "[\"" ++ name ++ "\"]") = true :=
    Text.isOneWord_append (Text.isOneWord_append
      (Text.isOneWord_append (m.isOneWord_nodeId name) (by decide)) (isUnbroken_of_isIdentifier h))
      (by decide)
  refine .line (if grouped then "        " else "    ") [m.nodeId name ++ "[\"" ++ name ++ "\"]"]
    ?_ ?_ ?_ rfl
  · change (if grouped then "        " else "    ") ++ m.nodeId name ++ "[\"" ++ name ++ "\"]" = _
    rw [String.intercalate_singleton]
    simp only [String.append_assoc]
  · cases grouped <;> decide
  · rw [List.all_cons, hword]
    rfl

/-- A node line without a unit says what is missing. -/
theorem readFrom_missingNode {name : String} (h : isIdentifier name = true) :
    ReadFrom [.node false (m.nodeId name) (name ++ " [MISSING]")] [.missing name] := by
  have hword : isOneWord (m.nodeId name ++ "[\"" ++ name) = true :=
    Text.isOneWord_append (Text.isOneWord_append (m.isOneWord_nodeId name) (by decide))
      (isUnbroken_of_isIdentifier h)
  have hfields : Text.fields '"' (m.nodeId name ++ "[\"" ++ name) = [m.nodeId name ++ "[", name] := by
    have htexts : ∀ text ∈ [m.nodeId name ++ "[", name], '"' ∉ text.toList := by
      intro text htext
      rcases List.mem_cons.1 htext with rfl | htext
      · rw [String.toList_append, List.mem_append]
        rintro (hmem | hmem)
        · exact Text.not_mem_of_isIdentifier (m.isIdentifier_nodeId name) (by decide) hmem
        · exact absurd (List.mem_singleton.1 hmem) (by decide)
      · obtain rfl := List.mem_singleton.1 htext
        exact Text.not_mem_of_isIdentifier h (by decide)
    have htext : m.nodeId name ++ "[\"" ++ name =
        (String.singleton '"').intercalate [m.nodeId name ++ "[", name] := by
      simp only [String.intercalate_cons_cons, String.intercalate_singleton, String.append_assoc]
      rfl
    rw [htext]
    exact Text.fields_intercalate (List.cons_ne_nil _ _) htexts
  refine .line "    " [m.nodeId name ++ "[\"" ++ name, "[MISSING]\"]"] ?_ rfl ?_ ?_
  · change "    " ++ m.nodeId name ++ "[\"" ++ (name ++ " [MISSING]") ++ "\"]" = _
    rw [String.intercalate_cons_cons, String.intercalate_singleton]
    simp [String.append_assoc]
  · rw [List.all_cons, hword]
    decide
  · rw [ChartFact.ofWords?, if_pos rfl, hfields]
    rfl

theorem readFrom_missingStyle (name : String) :
    ReadFrom [.missingStyle (m.nodeId name)] [] := by
  refine .line "    " ["style", m.nodeId name, "stroke:#ff0000,stroke-dasharray:", "5", "5"] ?_ rfl ?_
    rfl
  · change "    style " ++ m.nodeId name ++ " stroke:#ff0000,stroke-dasharray: 5 5" = _
    simp only [String.intercalate_cons_cons, String.intercalate_singleton, String.append_assoc]
    rfl
  · simp only [List.all_cons, m.isOneWord_nodeId name]
    decide

/-- An edge line says what it joins. -/
theorem readFrom_edge (dashed : Bool) (source target : String) :
    ReadFrom [.edge dashed (m.nodeId source) (m.nodeId target)]
      [.edge (m.nodeId source) (m.nodeId target)] := by
  refine .line "    " [m.nodeId source, if dashed then "-.->" else "-->", m.nodeId target] ?_ rfl ?_ ?_
  · change "    " ++ m.nodeId source ++ (if dashed then " -.-> " else " --> ") ++
      m.nodeId target = _
    simp only [String.intercalate_cons_cons, String.intercalate_singleton, String.append_assoc]
    cases dashed <;> rfl
  · simp only [List.all_cons, m.isOneWord_nodeId]
    cases dashed <;> decide
  · cases dashed <;> rfl

/-- Identifiers between commas are one word, and none that joins nodes. -/
theorem isOneWord_intercalate {ids : List String} (hne : ids ≠ [])
    (h : ∀ id ∈ ids, isIdentifier id = true) :
    isOneWord (",".intercalate ids) = true ∧ ",".intercalate ids ≠ "-->" ∧
      ",".intercalate ids ≠ "-.->" := by
  cases ids with
  | nil => exact absurd rfl hne
  | cons id rest =>
    obtain ⟨c, more, hchars, hc⟩ := Text.exists_first_of_isIdentifier (h id List.mem_cons_self)
    have hstarts : ∀ other : String, other.toList.head? = some '-' →
        ",".intercalate (id :: rest) ≠ other := by
      rintro other hother rfl
      rw [Text.toList_intercalate_cons, hchars, List.cons_append, List.head?_cons] at hother
      obtain rfl := Option.some.inj hother
      exact absurd hc (by decide)
    refine ⟨Text.isOneWord_iff.2 ⟨?_, ?_⟩, hstarts "-->" rfl, hstarts "-.->" rfl⟩
    · intro hempty
      have hnil := congrArg String.toList hempty
      rw [Text.toList_intercalate_cons, hchars] at hnil
      cases hnil
    · intro d hd
      rw [Text.toList_intercalate_cons, List.mem_append, List.mem_flatMap] at hd
      rcases hd with hd | ⟨other, hother, hd⟩
      · exact Text.isBlank_of_continuesIdentifier
          (Text.continuesIdentifier_of_mem (h id List.mem_cons_self) hd)
      · rcases List.mem_cons.1 hd with rfl | hd
        · decide
        · exact Text.isBlank_of_continuesIdentifier
            (Text.continuesIdentifier_of_mem (h other (List.mem_cons_of_mem id hother)) hd)

/-- The line of the tested nodes says which they are. -/
theorem readFrom_testedNodes {ids : List String} (hne : ids ≠ [])
    (h : ∀ id ∈ ids, isIdentifier id = true) : ReadFrom [.testedNodes ids] [.tested ids] := by
  obtain ⟨hword, hsolid, hdashed⟩ := isOneWord_intercalate hne h
  have hfields : Text.fields ',' (",".intercalate ids) = ids :=
    Text.fields_intercalate hne fun id hid => Text.not_mem_of_isIdentifier (h id hid) (by decide)
  refine .line "    " ["class", ",".intercalate ids, "tested"] ?_ rfl ?_ ?_
  · change "    class " ++ ",".intercalate ids ++ " tested" = _
    simp only [String.intercalate_cons_cons, String.intercalate_singleton, String.append_assoc]
    rfl
  · simp only [List.all_cons, hword]
    decide
  · rw [ChartFact.ofWords?, if_neg (not_or.2 ⟨hsolid, hdashed⟩), if_pos ⟨rfl, rfl⟩, hfields]
    rfl

/-! ### A whole flowchart -/

theorem readFrom_nodeLines (grouped : Bool) {names : List String}
    (h : ∀ name ∈ names, isIdentifier name = true) : ReadFrom (m.nodeLines grouped names) [] := by
  have hlines := ReadFrom.map fun name hname => readFrom_node (m := m) grouped (h name hname)
  rwa [List.flatMap_eq_nil_iff.2 fun _ _ => rfl] at hlines

theorem readFrom_groupLines {id title : String} (hword : isOneWord (id ++ "[" ++ title ++ "]") = true)
    (hmark : id ++ "[" ++ title ++ "]" ≠ "[MISSING]\"]") {names : List String}
    (h : ∀ name ∈ names, isIdentifier name = true) : ReadFrom (m.groupLines id title names) [] := by
  have hstart : ReadFrom [.groupStart id title] [] := by
    refine .line "    " ["subgraph", id ++ "[" ++ title ++ "]"] ?_ rfl ?_ ?_
    · change "    subgraph " ++ id ++ "[" ++ title ++ "]" = _
      simp only [String.intercalate_cons_cons, String.intercalate_singleton, String.append_assoc]
      rfl
    · simp only [List.all_cons, hword]
      decide
    · rw [ChartFact.ofWords?, if_neg hmark]
      rfl
  have hend : ReadFrom [.groupEnd] [] := .line "    " ["end"] rfl rfl (by decide) rfl
  rw [groupLines]
  split
  · exact .nil
  · exact (hstart.append (readFrom_nodeLines true h)).append hend

theorem readFrom_unitLines (hm : m.Legible) (tested : List String) (byRole : Bool) :
    ReadFrom (m.unitLines tested byRole) [] := by
  have hnames : ∀ name ∈ m.names, isIdentifier name = true := by
    intro name hname
    obtain ⟨u, hu, rfl⟩ := mem_names_iff.1 hname
    exact hm.name u hu
  have hgroup : ∀ p : String → Bool, ∀ name ∈ m.names.filter p, isIdentifier name = true :=
    fun p name hname => hnames name (List.mem_of_mem_filter hname)
  rw [unitLines]
  split
  · exact (readFrom_groupLines (by decide) (by decide) (hgroup _)).append
      (readFrom_groupLines (by decide) (by decide) (hgroup _))
  · exact readFrom_nodeLines false hnames

theorem readFrom_missingLines (hm : m.Legible) :
    ReadFrom m.missingLines (m.missingNames.map .missing) := by
  rw [missingLines, List.map_eq_flatMap]
  refine .flatMap fun name hname => ?_
  obtain ⟨⟨u, hu, hd⟩, -⟩ := mem_missingNames_iff.1 hname
  exact (readFrom_missingNode (hm.dependency u hu name hd)).append (readFrom_missingStyle name)

theorem readFrom_edgeLines (m : SchemaModel) :
    ReadFrom m.edgeLines (m.edges.map fun p => .edge (m.nodeId p.1) (m.nodeId p.2)) := by
  have hlines := ReadFrom.map fun p (_ : p ∈ m.edges) =>
    readFrom_edge (m := m) (!m.contains p.2) p.1 p.2
  rwa [← List.map_eq_flatMap] at hlines

theorem readFrom_testedLines (m : SchemaModel) (tested : List String) :
    ReadFrom (m.testedLines tested)
      (match (m.names.filter fun name => tested.contains name).map m.nodeId with
        | [] => []
        | ids => [.tested ids]) := by
  have hstyle : ReadFrom [.testedStyle] [] :=
    .line "    " ["classDef", "tested", "stroke:#2e7d32,stroke-width:2px"] rfl rfl (by decide) rfl
  rw [testedLines]
  cases hids : (m.names.filter fun name => tested.contains name).map m.nodeId with
  | nil => exact .nil
  | cons id rest =>
    have hidentifiers : ∀ other ∈ id :: rest, isIdentifier other = true := by
      intro other hother
      rw [← hids] at hother
      obtain ⟨name, -, rfl⟩ := List.mem_map.1 hother
      exact m.isIdentifier_nodeId name
    exact hstyle.append (readFrom_testedNodes (List.cons_ne_nil id rest) hidentifiers)

/-- **A flowchart says what the model says**, by identifiers. -/
theorem ofChart_flowchartReport (hm : m.Legible) (tested : List String) (orientation : String)
    (byRole : Bool) :
    ChartFact.ofChart orientation (m.flowchartReport tested orientation byRole) =
      m.missingNames.map .missing ++
      m.edges.map (fun p => .edge (m.nodeId p.1) (m.nodeId p.2)) ++
      (match (m.names.filter fun name => tested.contains name).map m.nodeId with
        | [] => []
        | ids => [.tested ids]) := by
  have hheading : ReadFrom [.missingHeading] [] :=
    .line "    " ["%%", "Missing", "dependencies"] rfl rfl (by decide) rfl
  have hmissing : ReadFrom (if m.missingNames.isEmpty then [] else
      FlowLine.blank :: .missingHeading :: m.missingLines) (m.missingNames.map .missing) := by
    split
    · rename_i hempty
      rw [List.isEmpty_iff.1 hempty]
      exact .nil
    · have hblank : ReadFrom [.blank] [] := .line "" [] rfl rfl rfl rfl
      exact (hblank.append hheading).append (readFrom_missingLines hm)
  have hbody := (((readFrom_unitLines hm tested byRole).append hmissing).append
    (readFrom_edgeLines m).part).append (m.readFrom_testedLines tested).part
  have hlines : ∀ line ∈ "" :: (m.unitLines tested byRole ++
      (if m.missingNames.isEmpty then [] else .blank :: .missingHeading :: m.missingLines) ++
      part m.edgeLines ++ part (m.testedLines tested)).map FlowLine.text, '\n' ∉ line.toList := by
    refine List.forall_mem_cons.2 ⟨List.not_mem_nil, fun line hline => ?_⟩
    obtain ⟨drawn, hdrawn, rfl⟩ := List.mem_map.1 hline
    exact hbody.lineFeed_not_mem drawn hdrawn
  have hheader : (FlowLine.header orientation).text = "flowchart " ++ orientation := rfl
  rw [ChartFact.ofChart, flowchartReport_eq, flowchart, List.cons_append, List.cons_append,
    List.cons_append, List.map_cons, hheader]
  rw [Text.ofList_drop_joinLines, Text.filterMap_fields_joinLines rfl hlines,
    List.filterMap_cons_none rfl, List.filterMap_map]
  exact hbody.filterMap_eq

section

variable {orientation : String} {byRole : Bool} (hm : m.Legible)

include hm

/-- Missing are the names that no unit has. -/
theorem missing_mem_ofChart_iff {name : String} :
    .missing name ∈ ChartFact.ofChart orientation (m.flowchartReport tested orientation byRole) ↔
      name ∈ m.missingNames := by
  rw [ofChart_flowchartReport hm, List.mem_append, List.mem_append]
  constructor
  · rintro ((h | h) | h)
    · obtain ⟨other, hother, heq⟩ := List.mem_map.1 h
      exact ChartFact.missing.inj heq ▸ hother
    · obtain ⟨p, -, heq⟩ := List.mem_map.1 h
      cases heq
    · split at h
      · cases h
      · cases List.mem_singleton.1 h
  · exact fun h => Or.inl (Or.inl (List.mem_map_of_mem h))

/-- Two nodes are joined if there is a dependency between names of theirs. -/
theorem edge_mem_ofChart_iff {source target : String} :
    .edge source target ∈
        ChartFact.ofChart orientation (m.flowchartReport tested orientation byRole) ↔
      ∃ p ∈ m.edges, source = m.nodeId p.1 ∧ target = m.nodeId p.2 := by
  rw [ofChart_flowchartReport hm, List.mem_append, List.mem_append]
  constructor
  · rintro ((h | h) | h)
    · obtain ⟨other, -, heq⟩ := List.mem_map.1 h
      cases heq
    · obtain ⟨p, hp, heq⟩ := List.mem_map.1 h
      cases heq
      exact ⟨p, hp, rfl, rfl⟩
    · split at h
      · cases h
      · cases List.mem_singleton.1 h
  · rintro ⟨p, hp, rfl, rfl⟩
    exact Or.inl (Or.inr (List.mem_map_of_mem hp))

/-- The tested nodes are listed once, if there are any. -/
theorem tested_mem_ofChart_iff {ids : List String} :
    .tested ids ∈ ChartFact.ofChart orientation (m.flowchartReport tested orientation byRole) ↔
      ids ≠ [] ∧ ids = (m.names.filter fun name => tested.contains name).map m.nodeId := by
  rw [ofChart_flowchartReport hm, List.mem_append, List.mem_append]
  constructor
  · rintro ((h | h) | h)
    · obtain ⟨other, -, heq⟩ := List.mem_map.1 h
      cases heq
    · obtain ⟨p, -, heq⟩ := List.mem_map.1 h
      cases heq
    · split at h
      · cases h
      · rename_i hne
        cases List.mem_singleton.1 h
        exact ⟨hne, rfl⟩
  · rintro ⟨hne, rfl⟩
    refine Or.inr ?_
    split
    · rename_i hempty
      exact absurd hempty hne
    · exact List.mem_singleton_self _

end

/-! ### Agreement -/

/-- **The three reports say the same.** Whatever is tested and however the reports are laid out, the
names that a listing flags as tested are those that a tree of everything marks so, and the tested
nodes of a flowchart are theirs, one for each name in model order; the names that are missing are the
same; and so is what depends on what, which a flowchart says by identifiers. A listing can always be
made without a base. -/
theorem reports_agree (hm : m.Legible) (huntested : ∀ u ∈ m.units, u.tested = false)
    (t : FileTree) (tested : List String) (indent : Int) (style orientation : String)
    (byRole : Bool) :
    (∃ text, m.listingReport t tested none indent = .ok text) ∧
    ∀ base text, m.listingReport t tested base indent = .ok text →
      ∃ listing, ReportFacts.ofListing? text = some listing ∧ listing.Tells m tested ∧
        let tree := ReportFacts.ofTree (m.treeReport tested (.ofName style) true)
        let chart := ChartFact.ofChart orientation (m.flowchartReport tested orientation byRole)
        (∀ name, name ∈ listing.tested ↔ name ∈ tree.tested) ∧
        (∀ ids, .tested ids ∈ chart ↔
          ids ≠ [] ∧ ids = (m.names.filter fun name => name ∈ listing.tested).map m.nodeId) ∧
        (∀ name, name ∈ listing.missing ↔ name ∈ tree.missing) ∧
        (∀ name, name ∈ listing.missing ↔ .missing name ∈ chart) ∧
        (∀ p, p ∈ listing.pairs ↔ p ∈ tree.pairs) ∧
        ∀ source target, .edge source target ∈ chart ↔
          ∃ p ∈ listing.pairs, source = m.nodeId p.1 ∧ target = m.nodeId p.2 := by
  refine ⟨⟨_, by rw [listingReport, listing_none huntested]; rfl⟩, fun base text htext => ?_⟩
  have hlisting : (ReportFacts.ofUnits (m.units.map (SchemaUnit.listedUnit tested))).Tells m tested :=
    tells_listing huntested
  have htree : (ReportFacts.ofTree (m.treeReport tested (.ofName style) true)).Tells m tested :=
    tells_treeReport hm (TreeStyle.isAligned_ofName style)
  refine ⟨_, ofListing?_listingReport htext, hlisting, ?_⟩
  -- a name that the model lists is flagged exactly if it was given
  have hflagged : (m.names.filter fun name => decide (name ∈
      (ReportFacts.ofUnits (m.units.map (SchemaUnit.listedUnit tested))).tested)) =
      m.names.filter fun name => tested.contains name := by
    refine List.filter_congr fun name hname => ?_
    rw [Bool.eq_iff_iff, decide_eq_true_eq, hlisting.tested_iff, List.contains_iff_mem]
    exact and_iff_left (mem_names_iff.1 hname)
  have hedges : ∀ p, p ∈ (ReportFacts.ofUnits (m.units.map (SchemaUnit.listedUnit tested))).pairs ↔
      p ∈ m.edges := fun p => (hlisting.pairs_iff p.1 p.2).trans mem_edges_iff.symm
  refine ⟨fun name => ?_, fun ids => ?_, fun name => ?_, fun name => ?_, fun p => ?_,
    fun source target => ?_⟩
  · rw [hlisting.tested_iff, htree.tested_iff]
  · rw [tested_mem_ofChart_iff hm, hflagged]
  · rw [hlisting.missing_iff, htree.missing_iff]
  · rw [missing_mem_ofChart_iff hm, hlisting.missing_iff, mem_missingNames_iff, ← contains_iff,
      Bool.not_eq_true]
  · rw [hlisting.pairs_iff, htree.pairs_iff]
  · rw [edge_mem_ofChart_iff hm]
    simp only [hedges]

theorem legible_knotted : knotted.Legible where
  name := by decide +kernel
  dependency := by decide +kernel
  revision := by
    intro u hu revision hrevision
    have hdate : ("2024-01-01".toList.all fun c => !Text.isBlank c) = true := by decide
    simp only [knotted, List.mem_cons, List.not_mem_nil, or_false] at hu
    rcases hu with rfl | rfl | rfl | rfl
    · cases hrevision
    · cases hrevision
      simpa using hdate
    · cases hrevision
    · cases hrevision

/-- What only the older revision of `a` depends on is missing in all reports, and so is `gone`. -/
theorem reports_agree_knotted :
    knotted.Legible ∧ (∀ u ∈ knotted.units, u.tested = false) ∧
    ∃ text listing, knotted.listingReport ⟨[], []⟩ ["c", "zz", "a"] none 2 = .ok text ∧
      ReportFacts.ofListing? text = some listing ∧
      let tree := ReportFacts.ofTree (knotted.treeReport ["c", "zz", "a"] (.ofName "ascii") true)
      let chart := ChartFact.ofChart "LR" (knotted.flowchartReport ["c", "zz", "a"] "LR" true)
      ("a" ∈ tree.tested ∧ "zz" ∉ tree.tested) ∧ .tested ["a", "c"] ∈ chart ∧
      ("z" ∈ tree.missing ∧ .missing "z" ∈ chart ∧ .missing "gone" ∈ chart) ∧
      ("a", "z") ∈ tree.pairs ∧ .edge "a" "missing_z" ∈ chart := by
  have huntested : ∀ u ∈ knotted.units, u.tested = false := by decide
  obtain ⟨⟨text, htext⟩, hagree⟩ :=
    reports_agree legible_knotted huntested ⟨[], []⟩ ["c", "zz", "a"] 2 "ascii" "LR" true
  obtain ⟨listing, hread, htells, htested, hmarked, hmissing, hdrawn, hpairs, hedges⟩ :=
    hagree none text htext
  have ha : "a" ∈ listing.tested := by
    rw [htells.tested_iff]
    decide
  have hb : "b" ∉ listing.tested := by
    rw [htells.tested_iff]
    decide
  have hc : "c" ∈ listing.tested := by
    rw [htells.tested_iff]
    decide
  have hz : "z" ∈ listing.missing := by
    rw [htells.missing_iff]
    decide
  have hgone : "gone" ∈ listing.missing := by
    rw [htells.missing_iff]
    decide
  have hpair : ("a", "z") ∈ listing.pairs := by
    rw [htells.pairs_iff]
    decide
  have hids : ["a", "b", "c", "z"].map knotted.nodeId = ["a", "b", "c", "missing_z"] := by
    decide +kernel
  have hnames : knotted.names = ["a", "b", "c"] := by decide +kernel
  refine ⟨legible_knotted, huntested, text, listing, htext, hread, ⟨?_, ?_⟩, ?_, ⟨?_, ?_, ?_⟩, ?_, ?_⟩
  · exact (htested "a").1 ha
  · rw [← htested, htells.tested_iff]
    decide
  · refine (hmarked _).2 ⟨List.cons_ne_nil _ _, ?_⟩
    simp only [List.map_cons, List.map_nil, List.cons.injEq, and_true] at hids
    simp [hnames, ha, hb, hc, hids]
  · exact (hmissing "z").1 hz
  · exact (hdrawn "z").1 hz
  · exact (hdrawn "gone").1 hgone
  · exact (hpairs _).1 hpair
  · simp only [List.map_cons, List.map_nil, List.cons.injEq, and_true] at hids
    exact (hedges _ _).2 ⟨_, hpair, hids.1.symm, hids.2.2.2.symm⟩

end SchemaModel

end SchemaAssembly
