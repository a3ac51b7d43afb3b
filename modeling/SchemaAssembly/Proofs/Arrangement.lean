import SchemaAssembly.Proofs.Groups
import SchemaAssembly.SchemaModel.Basic

/-!
# How a model keeps its units

A model has its units in the order of name and revision, and units that tie as they were given. That
leaves one list (`Arranges.unique`), so of the order in which units were given a model keeps that of
units with one name and revision, and nothing else (`ofUnits_eq_ofUnits_iff`).

The units of one name are a block of that list (`isBlock_getAll`), and one block after another is the
whole list (`flatMap_getAll`). The newest unit of a name is the last one of its block.
-/

namespace SchemaAssembly

namespace SchemaUnit

variable {u v : SchemaUnit}

/-- **No revision is lower than any**: what is not newer than a unit without one has none either, or
an empty one. -/
theorem revision_eq_of_revisionKey_le (h : v.revisionKey ≤ u.revisionKey)
    (hnone : u.revision = none) : v.revision = none ∨ v.revision = some "" := by
  rw [revisionKey, revisionKey, hnone, Option.getD_none] at h
  cases hrevision : v.revision with
  | none => exact Or.inl rfl
  | some revision =>
    rw [hrevision, Option.getD_some] at h
    refine Or.inr (congrArg some (Decidable.byContradiction fun hne => String.not_lt.2 h ?_))
    obtain ⟨c, cs, hcs⟩ := List.exists_cons_of_ne_nil (mt String.toList_eq_nil_iff.1 hne)
    change [] < revision.toList
    rw [hcs]
    exact List.nil_lt_cons c cs

end SchemaUnit

variable {units arranged other : List SchemaUnit}

/-- **Units arranged** by name and revision, where no revision counts as the empty one. -/
structure Arranges (units arranged : List SchemaUnit) : Prop where
  /-- nothing is lost, and nothing is there more often than it was -/
  perm : arranged.Perm units
  /-- units are ordered by name, and those of one name by revision -/
  ordered : arranged.Pairwise fun u v =>
    u.name < v.name ∨ u.name = v.name ∧ u.revisionKey ≤ v.revisionKey
  /-- those of one name and revision are as they were given -/
  stable : ∀ name revision,
    arranged.filter (fun u => u.name = name ∧ u.revisionKey = revision) =
      units.filter fun u => u.name = name ∧ u.revisionKey = revision

theorem pairwise_name_le (h : units.Pairwise fun u v => u.before v = true) :
    units.Pairwise fun u v => u.name ≤ v.name :=
  h.imp SchemaUnit.name_le_of_before

theorem pairwise_revisionKey_le (h : units.Pairwise fun u v => u.before v = true) (name : String) :
    (units.filter (·.name = name)).Pairwise fun u v => u.revisionKey ≤ v.revisionKey :=
  pairwise_group h fun _ _ hu hv huv =>
    SchemaUnit.revisionKey_le_of_before huv (hu.trans hv.symm)

/-- Lists of units in order are equal if they have the same units of each name and revision, each in
the same order. -/
theorem eq_of_pairwise_before (hunits : units.Pairwise fun u v => u.before v = true)
    (hother : other.Pairwise fun u v => u.before v = true)
    (h : ∀ name revision, units.filter (fun u => u.name = name ∧ u.revisionKey = revision) =
      other.filter fun u => u.name = name ∧ u.revisionKey = revision) : units = other := by
  have hcut : ∀ (l : List SchemaUnit) (name revision : String),
      (l.filter (·.name = name)).filter (·.revisionKey = revision) =
        l.filter fun u => u.name = name ∧ u.revisionKey = revision := by
    intro l name revision
    simp [List.filter_filter, Bool.and_comm]
  -- the units of one name are the same because those of each of its revisions are
  refine eq_of_groups_eq (pairwise_name_le hunits) (pairwise_name_le hother) fun name => ?_
  refine eq_of_groups_eq (pairwise_revisionKey_le hunits name) (pairwise_revisionKey_le hother name)
    fun revision => ?_
  rw [hcut, hcut, h name revision]

/-- **There is one arrangement.** -/
theorem Arranges.unique (h : Arranges units arranged) (h' : Arranges units other) :
    arranged = other :=
  eq_of_pairwise_before (h.ordered.imp SchemaUnit.before_iff.2)
    (h'.ordered.imp SchemaUnit.before_iff.2)
    fun name revision => (h.stable name revision).trans (h'.stable name revision).symm

/-- **The block of a name** in an arranged list: its units, the oldest first, in one piece. -/
structure IsBlock (units : List SchemaUnit) (name : String) (block : List SchemaUnit) : Prop where
  /-- before the block there are smaller names, and after it greater ones -/
  contiguous : ∃ before after, units = before ++ block ++ after ∧
    (∀ u ∈ before, u.name < name) ∧ ∀ u ∈ after, name < u.name
  /-- in the block there is no other name -/
  named : ∀ u ∈ block, u.name = name
  /-- revisions do not decrease -/
  oldest_first : block.Pairwise fun u v => u.revisionKey ≤ v.revisionKey

namespace SchemaModel

variable {m m' : SchemaModel} {name : String}

theorem eq_of_units_eq (h : m.units = m'.units) : m = m' := by
  cases m
  cases m'
  cases h
  rfl

/-- **A model arranges** the units that it is made of. -/
theorem arranges_ofUnits (units : List SchemaUnit) : Arranges units (ofUnits units).units where
  perm := List.mergeSort_perm units SchemaUnit.before
  ordered := (ofUnits units).ordered.imp SchemaUnit.before_iff.1
  stable name revision := by
    refine @filter_mergeSort _ SchemaUnit.before _ (fun _ _ _ => SchemaUnit.before_trans)
      SchemaUnit.before_total (fun u v hu hv => ?_) units
    rw [decide_eq_true_eq] at hu hv
    have hrevision : u.revisionKey = v.revisionKey := hu.2.trans hv.2.symm
    exact SchemaUnit.before_iff.2 (Or.inr ⟨hu.1.trans hv.1.symm, hrevision ▸ String.le_refl _⟩)

/-- **What a model keeps of an order** in which units were given is the order of those with one name
and revision. -/
theorem ofUnits_eq_ofUnits_iff :
    ofUnits units = ofUnits other ↔ ∀ name revision,
      units.filter (fun u => u.name = name ∧ u.revisionKey = revision) =
        other.filter fun u => u.name = name ∧ u.revisionKey = revision := by
  constructor
  · intro heq name revision
    rw [← (arranges_ofUnits units).stable, ← (arranges_ofUnits other).stable, heq]
  · intro h
    refine eq_of_units_eq (eq_of_pairwise_before (ofUnits units).ordered (ofUnits other).ordered
      fun name revision => ?_)
    rw [(arranges_ofUnits units).stable, (arranges_ofUnits other).stable, h name revision]

/-- If no two units have one name and revision, a model keeps nothing of the order. -/
theorem ofUnits_eq_of_perm (hperm : units.Perm other)
    (hnodup : (units.map fun u => (u.name, u.revisionKey)).Nodup) :
    ofUnits units = ofUnits other := by
  refine ofUnits_eq_ofUnits_iff.2 fun name revision => ?_
  refine filter_eq_of_perm hperm hnodup fun u v hu hv => ?_
  rw [decide_eq_true_eq] at hu hv
  rw [hu.1, hu.2, hv.1, hv.2]

/-- **Made of its own units**, a model is the same. -/
theorem ofUnits_units (m : SchemaModel) : ofUnits m.units = m :=
  eq_of_units_eq (List.mergeSort_of_pairwise m.ordered)

/-! ### Blocks -/

/-- The names of a model are strictly ascending. -/
theorem pairwise_names (m : SchemaModel) : m.names.Pairwise (· < ·) :=
  pairwise_lt_distinct (List.pairwise_map.2 (pairwise_name_le m.ordered))

/-- **The revisions of a name** are its block. -/
theorem isBlock_getAll (m : SchemaModel) (name : String) :
    IsBlock m.units name (m.getAll name) where
  contiguous := by
    refine ⟨_, _, append_group_append (pairwise_name_le m.ordered) name, fun u hu => ?_,
      fun u hu => ?_⟩
    · simpa using (List.mem_filter.1 hu).2
    · simpa using (List.mem_filter.1 hu).2
  named _ hu := key_eq_of_mem_group hu
  oldest_first := pairwise_revisionKey_le m.ordered name

/-- **One block after another** is the whole model. -/
theorem flatMap_getAll (m : SchemaModel) : m.names.flatMap m.getAll = m.units :=
  flatMap_group m.pairwise_names (pairwise_name_le m.ordered)
    fun _ hu => mem_distinct.2 (List.mem_map_of_mem hu)

/-- **How a model keeps its units.**

* It arranges the units that it is made of, in the one way there is. Made again of what it keeps, it
  is the same.
* Its names are strictly ascending, and their blocks, one after another, are the whole model. In one
  pass over the units the same blocks are found under the same names.
* The newest unit of a name is the last one of the name's block. No unit of the name has a greater
  revision, where no revision is the lowest. A name without a newest unit has none.
* Two lists of units make the same model exactly if their units of each name and revision are the
  same in the same order. So one makes the same model as any rearrangement of it if no two of its
  units have one name and revision. -/
theorem units_arranged (units : List SchemaUnit) :
    (∀ arranged, Arranges units arranged ↔ arranged = (ofUnits units).units) ∧
    ofUnits (ofUnits units).units = ofUnits units ∧
    (ofUnits units).names.Pairwise (· < ·) ∧
    (ofUnits units).names.flatMap (ofUnits units).getAll = (ofUnits units).units ∧
    groups (·.name) (ofUnits units).units =
      (ofUnits units).names.map (fun name => (name, (ofUnits units).getAll name)) ∧
    (∀ name, IsBlock (ofUnits units).units name ((ofUnits units).getAll name)) ∧
    (∀ name u, (ofUnits units).get? name = some u ↔
      ∃ older, (ofUnits units).getAll name = older ++ [u]) ∧
    (∀ name u, (ofUnits units).get? name = some u → u ∈ units ∧ u.name = name ∧
      ∀ v ∈ units, v.name = name → v.revisionKey ≤ u.revisionKey ∧
        (u.revision = none → v.revision = none ∨ v.revision = some "")) ∧
    (∀ name, (ofUnits units).get? name = none ↔ (ofUnits units).contains name = false) ∧
    (∀ name, (ofUnits units).contains name = true ↔ ∃ u ∈ units, u.name = name) ∧
    (∀ other, ofUnits units = ofUnits other ↔ ∀ name revision,
      units.filter (fun u => u.name = name ∧ u.revisionKey = revision) =
        other.filter fun u => u.name = name ∧ u.revisionKey = revision) ∧
    ∀ other, units.Perm other → (units.map fun u => (u.name, u.revisionKey)).Nodup →
      ofUnits units = ofUnits other := by
  refine ⟨fun arranged => ⟨fun h => h.unique (arranges_ofUnits units), ?_⟩, ofUnits_units _,
    pairwise_names _, flatMap_getAll _, groups_eq _ _, isBlock_getAll _,
    fun name u => List.getLast?_eq_some_iff, fun name u hu => ?_, fun name => get?_eq_none_iff,
    fun name => ?_, fun other => ofUnits_eq_ofUnits_iff, fun other => ofUnits_eq_of_perm⟩
  · rintro rfl
    exact arranges_ofUnits units
  · obtain ⟨hmem, hname⟩ := mem_of_get?_eq_some hu
    refine ⟨mem_units_ofUnits.1 hmem, hname, fun v hv hv' => ?_⟩
    have hle := revisionKey_le_of_get?_eq_some hu (mem_units_ofUnits.2 hv) hv'
    exact ⟨hle, SchemaUnit.revision_eq_of_revisionKey_le hle⟩
  · simp only [contains_iff, mem_units_ofUnits]

/-- Three units of one name, one of them without a revision, and a name that begins with it. -/
def revised : SchemaModel where
  units := [{ name := "a" }, { name := "a", revision := some "2020-01-01" },
    { name := "a", revision := some "2021-01-01" }, { name := "a-b" }]
  ordered := by decide +kernel

/-- Given the other way round, the units are arranged in the same way. -/
theorem units_arranged_revised :
    revised.units.reverse.Perm revised.units ∧
    (revised.units.reverse.map fun u => (u.name, u.revisionKey)).Nodup ∧
    ofUnits revised.units.reverse = ofUnits revised.units ∧
    (ofUnits revised.units.reverse).get? "a" =
      some { name := "a", revision := some "2021-01-01" } ∧
    ∀ v ∈ revised.units.reverse, v.name = "a" → v.revisionKey ≤ "2021-01-01" := by
  obtain ⟨-, -, -, -, -, -, -, hnewest, -, -, -, hequal⟩ := units_arranged revised.units.reverse
  have hperm : revised.units.reverse.Perm revised.units := List.reverse_perm _
  have hnodup : (revised.units.reverse.map fun u => (u.name, u.revisionKey)).Nodup := by
    decide +kernel
  have hmodel : ofUnits revised.units.reverse = revised :=
    (hequal _ hperm hnodup).trans (ofUnits_units revised)
  have hget : (ofUnits revised.units.reverse).get? "a" =
      some { name := "a", revision := some "2021-01-01" } := by
    rw [hmodel]
    decide +kernel
  exact ⟨hperm, hnodup, hequal _ hperm hnodup, hget,
    fun v hv hname => ((hnewest "a" _ hget).2.2 v hv hname).1⟩

end SchemaModel

end SchemaAssembly
