import SchemaAssembly.Proofs.TreeFacts
import SchemaAssembly.Report.Outline

/-!
# Outlines in a tree report

Nothing of the forest is lost when it is drawn, and nothing but the style is added.

- `treeReport_eq_text`: a report is the text of the outline of the model, line by line. What is
  drawn before a label depends only on which of the nodes above it are the last ones.
- `TreeStyle.Told.read_write`: a line is read as it was written, if its label does not begin like a
  stroke.
- `Outline.ofRows_rows`: labels with their depths give the outline back.
- `SchemaModel.treeReport_outline`: what this means for the reports of models.
-/

namespace SchemaAssembly

namespace Outline

/-! ### The lines of an outline -/

/-- The lines of what hangs below a node, each behind the strokes of the node. -/
def linesBelow (strokes : List Stroke) : Outline → List TreeLine
  | nil => []
  | cons label below after =>
    ⟨strokes ++ [if after = nil then .last else .branch], label⟩ ::
      (below.linesBelow (strokes ++ [if after = nil then .space else .vertical]) ++
        after.linesBelow strokes)

/-- The lines of trees, tree by tree. -/
def trees : Outline → List (List TreeLine)
  | nil => []
  | cons label below after => (⟨[], label⟩ :: below.linesBelow []) :: after.trees

/-- The lines of an outline. -/
def lines (o : Outline) : List TreeLine :=
  [TreeLine.empty].intercalate o.trees

/-- **The text of an outline** in a style. -/
def text (style : TreeStyle) (o : Outline) : String :=
  Text.joinLines (o.lines.map style.write)

/-- The labels from top to bottom, each with its depth. -/
def rows (depth : Nat) : Outline → List (Nat × String)
  | nil => []
  | cons label below after => (depth, label) :: (below.rows (depth + 1) ++ after.rows depth)

/-- All labels have a property. -/
def All (P : String → Prop) : Outline → Prop
  | nil => True
  | cons label below after => P label ∧ below.All P ∧ after.All P

end Outline

/-! ### What a report is the text of -/

namespace TreeStyle

variable {style : TreeStyle}

@[simp] theorem write_empty : style.write .empty = "" := by
  simp [write, strokesText, TreeLine.empty]

theorem strokesText_append (strokes : List Stroke) (stroke : Stroke) :
    style.strokesText (strokes ++ [stroke]) = style.strokesText strokes ++ style.string stroke := by
  simp [strokesText]

end TreeStyle

namespace DependencyTree

variable {style : TreeStyle} {tested : List String}

theorem outlineOf_eq_nil_iff {trees : List DependencyTree} :
    outlineOf tested trees = .nil ↔ trees.isEmpty = true := by
  cases trees with
  | nil => simp [outlineOf]
  | cons tree rest => simp [outlineOf]

mutual

/-- What is drawn below a node is drawn as its outline. -/
theorem linesBelow_eq (strokes : List Stroke) : (tree : DependencyTree) →
    linesBelow style tested (style.strokesText strokes) tree =
      ((outlineBelow tested tree).linesBelow strokes).map style.write
  | missing _ => by
    rw [linesBelow, outlineBelow]
    rfl
  | repeated _ => by
    rw [linesBelow, outlineBelow]
    rfl
  | expanded _ children => by
    rw [linesBelow, outlineBelow]
    exact linesOfChildren_eq strokes children

theorem linesOfChildren_eq (strokes : List Stroke) : (children : List DependencyTree) →
    linesOfChildren style tested (style.strokesText strokes) children =
      ((outlineOf tested children).linesBelow strokes).map style.write
  | [] => by
    rw [linesOfChildren, outlineOf]
    rfl
  | child :: rest => by
    have hconnector : style.strokesText strokes ++
        (if rest.isEmpty then style.last else style.branch) = style.strokesText
          (strokes ++ [if outlineOf tested rest = .nil then .last else .branch]) := by
      rw [TreeStyle.strokesText_append]
      simp only [outlineOf_eq_nil_iff]
      split <;> rfl
    have hdeeper : style.strokesText strokes ++
        (if rest.isEmpty then style.space else style.vertical) = style.strokesText
          (strokes ++ [if outlineOf tested rest = .nil then .space else .vertical]) := by
      rw [TreeStyle.strokesText_append]
      simp only [outlineOf_eq_nil_iff]
      split <;> rfl
    rw [linesOfChildren, outlineOf, Outline.linesBelow]
    simp only [hconnector, hdeeper]
    rw [linesBelow_eq _ child, linesOfChildren_eq strokes rest, List.map_cons, List.map_append,
      List.cons_append]
    rfl

end

/-- Trees are drawn as their outline. -/
theorem map_lines_eq (style : TreeStyle) (tested : List String) (trees : List DependencyTree) :
    trees.map (fun tree => tree.lines style tested) =
      (outlineOf tested trees).trees.map (List.map style.write) := by
  induction trees with
  | nil =>
    rw [outlineOf]
    rfl
  | cons tree rest ih =>
    rw [outlineOf, Outline.trees, List.map_cons, List.map_cons, ih, lines, List.map_cons,
      ← linesBelow_eq [] tree, TreeStyle.write, TreeStyle.strokesText]
    simp

end DependencyTree

/-- **A report is the text of the outline of the model.** -/
theorem SchemaModel.treeReport_eq_text (m : SchemaModel) (tested : List String) (style : TreeStyle)
    (showAll : Bool) :
    m.treeReport tested style showAll = (m.outline tested showAll).text style := by
  rw [treeReport_eq, DependencyTree.map_lines_eq, Outline.text, Outline.lines,
    Text.map_intercalate, TreeStyle.write_empty]
  rfl

/-! ### Reading a line -/

/-- **Styles that tell strokes**: every string is four characters wide and says which stroke it is
drawn for, and none begins as a name does or holds a line feed. -/
structure TreeStyle.Told (style : TreeStyle) : Prop where
  /-- four characters wide -/
  wide : ∀ stroke, (style.string stroke).toList.length = 4
  /-- no two strokes share a string -/
  stroke? : ∀ stroke, style.stroke? (style.string stroke) = some stroke
  /-- no string begins as a name does -/
  first : ∀ stroke, (style.string stroke).toList.head?.any (fun c => c.isAlpha || c == '_') = false
  /-- no string holds a line feed -/
  lineFeed : ∀ stroke, '\n' ∉ (style.string stroke).toList

/-- **Labels** are on one line and begin as a name does. -/
structure IsLabel (text : String) : Prop where
  /-- the first character is a letter or an underscore -/
  first : ∃ c rest, text.toList = c :: rest ∧ (c.isAlpha || c == '_') = true
  /-- no line feed -/
  lineFeed : '\n' ∉ text.toList

namespace TreeStyle

/-- The two styles tell strokes. -/
theorem told_ofName (name : String) : (ofName name).Told := by
  have hdrawn : drawn.Told := by
    refine ⟨?_, ?_, ?_, ?_⟩ <;> rintro (_ | _ | _ | _) <;> decide
  have hplain : plain.Told := by
    refine ⟨?_, ?_, ?_, ?_⟩ <;> rintro (_ | _ | _ | _) <;> decide
  rw [ofName]
  split
  · exact hplain
  · exact hdrawn

variable {style : TreeStyle}

/-- A text that begins as a name does is no stroke. -/
theorem Told.stroke?_eq_none (h : style.Told) {text : String} {c : Char}
    (hfirst : text.toList.head? = some c) (hc : (c.isAlpha || c == '_') = true) :
    style.stroke? text = none := by
  refine Option.eq_none_iff_forall_ne_some.2 fun stroke hstroke => ?_
  have htext : style.string stroke = text := by simpa using List.find?_some hstroke
  have hnot := h.first stroke
  rw [htext, hfirst, Option.any_some, hc] at hnot
  cases hnot

/-- A label is not taken for strokes. -/
theorem Told.readChars_label (h : style.Told) {label : String} (hlabel : IsLabel label) :
    style.readChars label.toList = ⟨[], label⟩ := by
  obtain ⟨c, rest, hchars, hc⟩ := hlabel.first
  rw [readChars.eq_def]
  split
  · rename_i a b c' d more heq
    obtain rfl : c = a := by
      rw [hchars] at heq
      exact (List.cons_eq_cons.1 heq).1
    rw [h.stroke?_eq_none (by simp) hc, ← heq, String.ofList_toList]
  · rw [String.ofList_toList]

/-- Strokes are taken off one by one. -/
theorem Told.readChars_append (h : style.Told) (stroke : Stroke) (chars : List Char) :
    style.readChars ((style.string stroke).toList ++ chars) =
      ⟨stroke :: (style.readChars chars).strokes, (style.readChars chars).label⟩ := by
  have hstroke := h.stroke? stroke
  rw [← String.ofList_toList (s := style.string stroke)] at hstroke
  match (style.string stroke).toList, h.wide stroke, hstroke with
  | [a, b, c, d], _, hstroke =>
    rw [List.cons_append, List.cons_append, List.cons_append, List.cons_append, List.nil_append,
      readChars]
    simp only [hstroke]

/-- **A line is read as it was written.** -/
theorem Told.read_write (h : style.Told) {line : TreeLine}
    (hline : line = .empty ∨ IsLabel line.label) : style.read (style.write line) = line := by
  obtain ⟨strokes, label⟩ := line
  have hlabel : style.readChars label.toList = ⟨[], label⟩ := by
    rcases hline with heq | hlabel
    · obtain ⟨rfl, rfl⟩ := TreeLine.mk.inj heq
      rfl
    · exact h.readChars_label hlabel
  clear hline
  rw [read, write, strokesText, String.toList_append, String.toList_ofList]
  induction strokes with
  | nil => exact hlabel
  | cons stroke strokes ih =>
    rw [List.flatMap_cons, List.append_assoc, h.readChars_append, ih]

/-- A line that was written holds no line feed. -/
theorem Told.lineFeed_not_mem_write (h : style.Told) {line : TreeLine}
    (hline : line = .empty ∨ IsLabel line.label) : '\n' ∉ (style.write line).toList := by
  have hlabel : '\n' ∉ line.label.toList := by
    rcases hline with rfl | hlabel
    · exact List.not_mem_nil
    · exact hlabel.lineFeed
  rw [write, strokesText, String.toList_append, String.toList_ofList, List.mem_append,
    List.mem_flatMap]
  rintro (⟨stroke, -, hmem⟩ | hmem)
  · exact h.lineFeed stroke hmem
  · exact hlabel hmem

end TreeStyle

namespace Outline

/-! ### Reading an outline -/

theorem le_of_mem_rows {o : Outline} {depth : Nat} {row : Nat × String} (h : row ∈ o.rows depth) :
    depth ≤ row.1 := by
  induction o generalizing depth with
  | nil => cases h
  | cons label below after ihbelow ihafter =>
    rw [rows, List.mem_cons, List.mem_append] at h
    rcases h with rfl | h | h
    · exact Nat.le_refl depth
    · exact Nat.le_of_succ_le (ihbelow h)
    · exact ihafter h

/-- The first row is as deep as the outline, and so none is deeper up to it. -/
theorem takeWhile_rows (o : Outline) (depth : Nat) :
    (o.rows depth).takeWhile (fun row => depth < row.1) = [] := by
  cases o with
  | nil => rfl
  | cons label below after => exact List.takeWhile_cons_of_neg (by simp)

theorem dropWhile_rows (o : Outline) (depth : Nat) :
    (o.rows depth).dropWhile (fun row => depth < row.1) = o.rows depth := by
  cases o with
  | nil => rfl
  | cons label below after => exact List.dropWhile_cons_of_neg (by simp)

/-- **Labels with their depths give the outline back.** -/
theorem ofRows_rows (o : Outline) (depth : Nat) : ofRows (o.rows depth) = o := by
  induction o generalizing depth with
  | nil => rw [rows, ofRows]
  | cons label below after ihbelow ihafter =>
    -- what hangs below is deeper, and the first label that comes after is not
    have hdeeper : ∀ row ∈ below.rows (depth + 1), decide (depth < row.1) = true :=
      fun row hrow => decide_eq_true (le_of_mem_rows hrow)
    rw [rows, ofRows, List.takeWhile_append_of_pos hdeeper, List.dropWhile_append_of_pos hdeeper,
      takeWhile_rows, dropWhile_rows, List.append_nil, ihbelow, ihafter]

variable {style : TreeStyle} {o : Outline}

/-- Lines with their depths are the labels with theirs. -/
theorem map_linesBelow (o : Outline) (strokes : List Stroke) :
    (o.linesBelow strokes).map (fun line => (line.strokes.length, line.label)) =
      o.rows (strokes.length + 1) := by
  induction o generalizing strokes with
  | nil => rfl
  | cons label below after ihbelow ihafter =>
    rw [linesBelow, rows, List.map_cons, List.map_append, ihbelow, ihafter, List.length_append,
      List.length_append, List.length_singleton, List.length_singleton]

theorem map_flatten_trees (o : Outline) :
    o.trees.flatten.map (fun line => (line.strokes.length, line.label)) = o.rows 0 := by
  induction o with
  | nil => rfl
  | cons label below after _ ih =>
    rw [trees, rows, List.flatten_cons, List.map_append, List.map_cons, map_linesBelow, ih]
    rfl

theorem isLabel_of_mem_linesBelow (h : o.All IsLabel) {strokes : List Stroke} {line : TreeLine}
    (hline : line ∈ o.linesBelow strokes) : IsLabel line.label := by
  induction o generalizing strokes with
  | nil => cases hline
  | cons label below after ihbelow ihafter =>
    obtain ⟨hlabel, hbelow, hafter⟩ := h
    rw [linesBelow, List.mem_cons, List.mem_append] at hline
    rcases hline with rfl | hline | hline
    · exact hlabel
    · exact ihbelow hbelow hline
    · exact ihafter hafter hline

theorem isLabel_of_mem_trees (h : o.All IsLabel) {tree : List TreeLine} (htree : tree ∈ o.trees)
    {line : TreeLine} (hline : line ∈ tree) : IsLabel line.label := by
  induction o with
  | nil => cases htree
  | cons label below after _ ih =>
    obtain ⟨hlabel, hbelow, hafter⟩ := h
    rcases List.mem_cons.1 htree with rfl | htree
    · rcases List.mem_cons.1 hline with rfl | hline
      · exact hlabel
      · exact isLabel_of_mem_linesBelow hbelow hline
    · exact ih hafter htree

/-- Every line is empty or has a label. -/
theorem eq_empty_or_isLabel_of_mem_lines (h : o.All IsLabel) {line : TreeLine}
    (hline : line ∈ o.lines) : line = .empty ∨ IsLabel line.label := by
  refine (Text.eq_or_mem_of_mem_intercalate hline).imp_right ?_
  rintro ⟨tree, htree, hmem⟩
  exact isLabel_of_mem_trees h htree hmem

/-- The lines that are not empty are those of the trees. -/
theorem filter_lines (h : o.All IsLabel) : o.lines.filter (· ≠ .empty) = o.trees.flatten := by
  have htree : ∀ tree ∈ o.trees, tree.filter (· ≠ .empty) = tree := by
    intro tree htree
    refine List.filter_eq_self.2 fun line hline => decide_eq_true ?_
    rintro rfl
    obtain ⟨c, rest, hchars, -⟩ := (isLabel_of_mem_trees h htree hline).first
    cases hchars
  rw [lines, ← List.filterMap_eq_filter, Text.filterMap_intercalate rfl, List.filterMap_eq_filter,
    List.flatMap_def, List.map_congr_left htree, List.map_id']

/-- There is a line if there is a label. -/
theorem lines_cons_ne_nil (label : String) (below after : Outline) :
    (cons label below after).lines ≠ [] := by
  rw [lines, trees]
  cases after.trees with
  | nil => simp
  | cons tree rest => simp [List.intercalate_cons_cons]

/-- Read line by line, the text of an outline is its lines, or one empty line. -/
theorem map_read_fields_text (hstyle : style.Told) (h : o.All IsLabel) :
    (Text.fields '\n' (o.text style)).map style.read =
      if o = nil then [TreeLine.empty] else o.lines := by
  cases o with
  | nil => rfl
  | cons label below after =>
    have hfields : Text.fields '\n' ((cons label below after).text style) =
        (cons label below after).lines.map style.write := by
      refine Text.fields_intercalate (by simpa using lines_cons_ne_nil label below after) ?_
      intro line hline
      obtain ⟨written, hwritten, rfl⟩ := List.mem_map.1 hline
      exact hstyle.lineFeed_not_mem_write (eq_empty_or_isLabel_of_mem_lines h hwritten)
    rw [hfields, List.map_map, if_neg (by simp)]
    refine (List.map_congr_left fun line hline => ?_).trans (List.map_id _)
    exact hstyle.read_write (eq_empty_or_isLabel_of_mem_lines h hline)

/-- **An outline is read off its text.** -/
theorem ofText_text (hstyle : style.Told) (h : o.All IsLabel) : ofText style (o.text style) = o := by
  have hlines : ((Text.fields '\n' (o.text style)).map style.read).filter (· ≠ .empty) =
      o.trees.flatten := by
    rw [map_read_fields_text hstyle h]
    split
    · subst o
      rfl
    · exact filter_lines h
  simp only [ofText]
  rw [hlines, map_flatten_trees, ofRows_rows]

/-- **The style can be exchanged** afterwards. -/
theorem redraw_text {old new : TreeStyle} (hold : old.Told) (h : o.All IsLabel) :
    old.redraw new (o.text old) = o.text new := by
  have hredraw : old.redraw new (o.text old) =
      Text.joinLines (((Text.fields '\n' (o.text old)).map old.read).map new.write) := by
    rw [List.map_map]
    rfl
  rw [hredraw, map_read_fields_text hold h]
  split
  · subst o
    rw [List.map_singleton, TreeStyle.write_empty]
    rfl
  · rfl

end Outline

/-! ### The labels of a model -/

namespace DependencyTree

variable {m : SchemaModel} {tested : List String} {tree : DependencyTree}

theorem lineFeed_not_mem_label (hm : m.Drawable) {u : SchemaUnit} (hu : u ∈ m.units) :
    '\n' ∉ (u.label tested).toList := by
  have hname : '\n' ∉ u.name.toList := Text.not_mem_of_isIdentifier (hm.name u hu) (by decide)
  have hkey : '\n' ∉ u.revisionKey.toList := by
    rw [SchemaUnit.revisionKey]
    cases hrevision : u.revision with
    | none => exact List.not_mem_nil
    | some revision => exact hm.revision u hu revision hrevision
  simp only [SchemaUnit.label, String.toList_append, List.mem_append, not_or]
  refine ⟨⟨⟨hname, ?_⟩, ?_⟩, ?_⟩
  · split
    · decide
    · rw [String.toList_append, List.mem_append, not_or]
      exact ⟨by decide, hkey⟩
  · split <;> decide
  · split <;> decide

/-- **What stands on the line of a node is a label.** -/
theorem Of.isLabel (hm : m.Drawable) (h : Of m tree) : IsLabel (tree.label tested) := by
  have hname := h.isIdentifier_name hm
  constructor
  · obtain ⟨marks, hmarks⟩ := tree.exists_label_eq tested
    obtain ⟨c, rest, hchars, hc⟩ := Text.exists_first_of_isIdentifier hname
    refine ⟨c, rest ++ marks.toList, ?_, hc⟩
    rw [hmarks, String.toList_append, hchars, List.cons_append]
  · cases h with
    | missing _ _ =>
      rw [label, String.toList_append, List.mem_append, not_or]
      exact ⟨Text.not_mem_of_isIdentifier hname (by decide), by decide⟩
    | repeated hu =>
      rw [label, String.toList_append, List.mem_append, not_or]
      exact ⟨lineFeed_not_mem_label hm hu, by decide⟩
    | expanded hu _ _ => exact lineFeed_not_mem_label hm hu

mutual

theorem all_outlineBelow (hm : m.Drawable) : (tree : DependencyTree) → Of m tree →
    (outlineBelow tested tree).All IsLabel
  | missing _, _ => by
    rw [outlineBelow]
    trivial
  | repeated _, _ => by
    rw [outlineBelow]
    trivial
  | expanded _ children, .expanded _ _ hchildren => by
    rw [outlineBelow]
    exact all_outlineOf hm children hchildren

theorem all_outlineOf (hm : m.Drawable) : (trees : List DependencyTree) →
    (∀ tree ∈ trees, Of m tree) → (outlineOf tested trees).All IsLabel
  | [], _ => by
    rw [outlineOf]
    trivial
  | tree :: rest, h => by
    have htree := h tree List.mem_cons_self
    rw [outlineOf]
    exact ⟨htree.isLabel hm, all_outlineBelow hm tree htree,
      all_outlineOf hm rest fun other hother => h other (List.mem_cons_of_mem tree hother)⟩

end

end DependencyTree

namespace SchemaModel

/-- All labels of a model that can be drawn line by line are such. -/
theorem Drawable.all_outline {m : SchemaModel} (hm : m.Drawable) (tested : List String)
    (showAll : Bool) : (m.outline tested showAll).All IsLabel := by
  refine DependencyTree.all_outlineOf hm _ fun tree htree => ?_
  obtain ⟨u, hu, rfl⟩ := List.mem_map.1 htree
  rw [treeRoots_eq_filter] at hu
  exact DependencyTree.of_tree (List.mem_filter.1 hu).1

/-- **A tree report loses nothing of the forest.** Whatever the style, the outline of the model is
read off the text of its report, so that two reports are the same text exactly if they have the same
outline. Redrawn in the other style, line by line, a report is the report in that style. -/
theorem treeReport_lossless (m : SchemaModel) (hm : m.Drawable) (tested : List String)
    (style : String) (showAll : Bool) :
    Outline.ofText (.ofName style) (m.treeReport tested (.ofName style) showAll) =
      m.outline tested showAll ∧
    (∀ (m' : SchemaModel) tested' showAll', m'.Drawable →
      (m'.treeReport tested' (.ofName style) showAll' = m.treeReport tested (.ofName style) showAll ↔
        m'.outline tested' showAll' = m.outline tested showAll)) ∧
    TreeStyle.drawn.redraw .plain (m.treeReport tested .drawn showAll) =
      m.treeReport tested .plain showAll ∧
    TreeStyle.plain.redraw .drawn (m.treeReport tested .plain showAll) =
      m.treeReport tested .drawn showAll := by
  have hread : ∀ (m' : SchemaModel) tested' showAll', m'.Drawable →
      Outline.ofText (.ofName style) (m'.treeReport tested' (.ofName style) showAll') =
        m'.outline tested' showAll' := by
    intro m' tested' showAll' hm'
    rw [treeReport_eq_text]
    exact Outline.ofText_text (TreeStyle.told_ofName style) (hm'.all_outline tested' showAll')
  have hlabels := hm.all_outline tested showAll
  refine ⟨hread m tested showAll hm, fun m' tested' showAll' hm' => ⟨fun htext => ?_, fun h => ?_⟩,
    ?_, ?_⟩
  · rw [← hread m' tested' showAll' hm', htext, hread m tested showAll hm]
  · rw [treeReport_eq_text, treeReport_eq_text, h]
  · rw [treeReport_eq_text, treeReport_eq_text]
    exact Outline.redraw_text (TreeStyle.told_ofName "tree") hlabels
  · rw [treeReport_eq_text, treeReport_eq_text]
    exact Outline.redraw_text (TreeStyle.told_ofName "ascii") hlabels

/-- Two units that depend on each other, one of them with a revision that looks like a child. -/
def strokedUnits : SchemaModel where
  units :=
    [{ name := "a", revision := some "1 |-- b", imports := ["b"], includes := ["c"] },
     { name := "b", imports := ["a"] }]
  ordered := by decide

/-- The strokes of the revision stay a part of the label. -/
theorem treeReport_lossless_strokedUnits :
    strokedUnits.Drawable ∧
    Outline.ofText .plain (Text.joinLines
      ["a@1 |-- b", "|-- b", "|   \\-- a@1 |-- b [*]", "\\-- c [MISSING]", "",
        "b", "\\-- a@1 |-- b", "    |-- b [*]", "    \\-- c [MISSING]"]) =
      .cons "a@1 |-- b"
        (.cons "b" (.cons "a@1 |-- b [*]" .nil .nil) (.cons "c [MISSING]" .nil .nil))
        (.cons "b"
          (.cons "a@1 |-- b" (.cons "b [*]" .nil (.cons "c [MISSING]" .nil .nil)) .nil) .nil) := by
  have hdrawable : strokedUnits.Drawable := by
    refine ⟨by decide, by decide, ?_⟩
    simp only [strokedUnits, List.forall_mem_cons, List.not_mem_nil, false_imp_iff, implies_true,
      and_true, Option.some.injEq, forall_eq', reduceCtorEq]
    decide
  obtain ⟨hread, -⟩ := treeReport_lossless strokedUnits hdrawable [] "ascii" false
  refine ⟨hdrawable, ?_⟩
  have htext : strokedUnits.treeReport [] (.ofName "ascii") false = Text.joinLines
      ["a@1 |-- b", "|-- b", "|   \\-- a@1 |-- b [*]", "\\-- c [MISSING]", "",
        "b", "\\-- a@1 |-- b", "    |-- b [*]", "    \\-- c [MISSING]"] := by
    cbv
  rw [htext] at hread
  refine hread.trans ?_
  cbv

end SchemaModel

end SchemaAssembly
