import SchemaAssembly.Report.Tree

/-!
# Outlines read off a tree report

An outline is what a tree report shows whatever it is drawn with: labels, and which of them hang below
which. It is read off the text alone, by someone who knows the style.

- `TreeStyle.read` takes the strokes off a line, and `TreeStyle.redraw` puts those of another style in
  their place.
- `Outline.ofText` hangs the labels below one another by the number of strokes before them.
- `SchemaModel.outline` is what is to be found.
-/

namespace SchemaAssembly

/-- **An outline**: a forest of labels, given by the first of them with what hangs below it, and the
trees that come after. -/
inductive Outline where
  /-- no label -/
  | nil
  /-- a label, what hangs below it, and what comes after -/
  | cons (label : String) (below after : Outline)
  deriving DecidableEq, Repr

/-! ### Lines -/

/-- What a tree is drawn with. -/
inductive Stroke where
  /-- leads to a child that others follow -/
  | branch
  /-- leads to the last child -/
  | last
  /-- passes below a child that others follow -/
  | vertical
  /-- passes below the last child -/
  | space
  deriving DecidableEq, Repr

/-- A line of a tree, whatever its style. -/
structure TreeLine where
  /-- what is drawn before the label, from left to right -/
  strokes : List Stroke
  /-- what stands on the line -/
  label : String
  deriving DecidableEq, Repr

/-- The line between two trees. -/
def TreeLine.empty : TreeLine :=
  ⟨[], ""⟩

namespace TreeStyle

/-- The string that a stroke is drawn as. -/
def string (style : TreeStyle) : Stroke → String
  | .branch => style.branch
  | .last => style.last
  | .vertical => style.vertical
  | .space => style.space

/-- The stroke that a string is drawn for. -/
def stroke? (style : TreeStyle) (text : String) : Option Stroke :=
  [Stroke.branch, .last, .vertical, .space].find? (style.string · = text)

/-- Strokes one after another. -/
def strokesText (style : TreeStyle) (strokes : List Stroke) : String :=
  String.ofList (strokes.flatMap fun stroke => (style.string stroke).toList)

/-- **Writing a line.** -/
def write (style : TreeStyle) (line : TreeLine) : String :=
  style.strokesText line.strokes ++ line.label

/-- Takes strokes off, four characters each, as long as there are any. -/
def readChars (style : TreeStyle) : List Char → TreeLine
  | a :: b :: c :: d :: rest =>
    match style.stroke? (String.ofList [a, b, c, d]) with
    | some stroke =>
      let line := readChars style rest
      ⟨stroke :: line.strokes, line.label⟩
    | none => ⟨[], String.ofList (a :: b :: c :: d :: rest)⟩
  | chars => ⟨[], String.ofList chars⟩

/-- **Reading a line.** -/
def read (style : TreeStyle) (line : String) : TreeLine :=
  style.readChars line.toList

/-- **Redrawing** a text line by line: the strokes before the labels are drawn in another style. -/
def redraw (old new : TreeStyle) (text : String) : String :=
  Text.joinLines ((Text.fields '\n' text).map fun line => new.write (old.read line))

end TreeStyle

/-! ### Outlines -/

namespace Outline

/-- The outline of labels by their depths: what is deeper than a label and follows it hangs below it,
up to the first that is not. -/
def ofRows : List (Nat × String) → Outline
  | [] => nil
  | (depth, label) :: rest =>
    cons label (ofRows (rest.takeWhile (depth < ·.1))) (ofRows (rest.dropWhile (depth < ·.1)))
termination_by rows => rows.length
decreasing_by
  · exact Nat.lt_succ_of_le (List.takeWhile_sublist _).length_le
  · exact Nat.lt_succ_of_le (List.dropWhile_sublist _).length_le

/-- **The outline of a text**: every line that is not empty is a label, as deep as there are strokes
before it. -/
def ofText (style : TreeStyle) (text : String) : Outline :=
  let lines := (Text.fields '\n' text).map style.read
  ofRows ((lines.filter (· ≠ .empty)).map fun line => (line.strokes.length, line.label))

end Outline

namespace DependencyTree

mutual

/-- The outline of what hangs below a node. -/
def outlineBelow (tested : List String) : DependencyTree → Outline
  | missing _ => .nil
  | repeated _ => .nil
  | expanded _ children => outlineOf tested children

/-- The outline of trees. -/
def outlineOf (tested : List String) : List DependencyTree → Outline
  | [] => .nil
  | tree :: rest => .cons (tree.label tested) (outlineBelow tested tree) (outlineOf tested rest)

end

end DependencyTree

/-- **The outline of a model**: the labels of its forest. -/
def SchemaModel.outline (m : SchemaModel) (tested : List String) (showAll : Bool) : Outline :=
  DependencyTree.outlineOf tested (m.forest tested showAll)

end SchemaAssembly
