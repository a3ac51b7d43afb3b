import Mathlib.Data.List.Chain
import SchemaAssembly.SchemaModel.Dependencies

/-!
# What a name depends on

The search of `SchemaModel.dependencies`, said without a search: a name depends on whatever a number
of steps lead to, each from a name to something that its newest revision imports or includes.

A search goes on as long as names are pending, and it may take any of them. In whatever order it does
(`SchemaModel.Expands`), it ends (`wellFounded_expands`), and what it has found then is the same,
because of what every step keeps (`SchemaModel.Searching`):

* **sound** — only what steps lead to is found;
* **closed** — of a name found that is not pending any more, every direct dependency is found.

The search of a model is one of them (`expands_search`), so that everything that steps lead to is
found and nothing else (`mem_dependencies_iff`).
-/

namespace SchemaAssembly

/-- A search under way. -/
structure SearchState where
  /-- the names that have not been expanded yet -/
  pending : List String
  /-- the names found -/
  seen : List String

namespace SchemaModel

variable {m : SchemaModel} {origin name x : String} {pending seen : List String}
  {s s' : SearchState}

/-- **A step** from a name to a direct dependency of its newest revision. -/
def DependsOn (m : SchemaModel) (name dependency : String) : Prop :=
  dependency ∈ m.directDependencies name

/-- Any number of steps. -/
def Reaches (m : SchemaModel) : String → String → Prop :=
  Relation.ReflTransGen m.DependsOn

/-- Every name of a model has a newest revision. -/
theorem exists_get?_eq_some (h : name ∈ m.names) : ∃ u, m.get? name = some u := by
  obtain ⟨u, hu, rfl⟩ := List.mem_map.1 (mem_distinct.1 h)
  have hmem : u ∈ m.getAll u.name := List.mem_filter.2 ⟨hu, decide_eq_true rfl⟩
  exact ⟨_, List.getLast?_eq_some_getLast (List.ne_nil_of_mem hmem)⟩

theorem dependsOn_iff {dependency : String} :
    m.DependsOn name dependency ↔ ∃ u, m.get? name = some u ∧ dependency ∈ u.dependencies := by
  rw [DependsOn, directDependencies]
  cases m.get? name with
  | none => simp
  | some u => simp

theorem mem_fresh_iff {d : String} :
    d ∈ m.fresh origin seen name ↔ m.DependsOn name d ∧ d ≠ origin ∧ d ∉ seen := by
  rw [fresh, List.mem_filter, mem_distinct, decide_eq_true_eq, DependsOn]

/-- A direct dependency is new to a search unless it has been seen or the search is for it. -/
theorem eq_or_mem_fresh_append (hstep : m.DependsOn name x) :
    x = origin ∨ x ∈ m.fresh origin seen name ++ seen := by
  by_cases hx : x = origin
  · exact Or.inl hx
  by_cases hseen : x ∈ seen
  · exact Or.inr (List.mem_append_right _ hseen)
  · exact Or.inr (List.mem_append_left _ (mem_fresh_iff.2 ⟨hstep, hx, hseen⟩))

/-! ### Searches in any order -/

/-- **A name is expanded**: one of the pending names is taken, whichever it is, and what is new among
its direct dependencies is found and pending, in whatever place. -/
inductive Expands (m : SchemaModel) (origin : String) : SearchState → SearchState → Prop where
  | take {pending rest next seen : List String} {name : String} :
    pending.Perm (name :: rest) → next.Perm (m.fresh origin seen name ++ rest) →
      Expands m origin ⟨pending, seen⟩ ⟨next, m.fresh origin seen name ++ seen⟩

/-- As long as names are pending a search goes on. -/
theorem exists_expands (h : s.pending ≠ []) : ∃ s', m.Expands origin s s' := by
  obtain ⟨pending, seen⟩ := s
  obtain ⟨name, rest, rfl⟩ := List.exists_cons_of_ne_nil h
  exact ⟨_, .take (.refl _) (.refl _)⟩

/-- **No search goes on for ever**: every step finds something new or leaves fewer names pending. -/
theorem wellFounded_expands (m : SchemaModel) (origin : String) :
    WellFounded fun after before => m.Expands origin before after := by
  refine Subrelation.wf (fun {after before} h => ?_)
    (InvImage.wf (fun s : SearchState => ((m.unseen s.seen).length, s.pending.length))
      (Prod.lex Nat.lt_wfRel Nat.lt_wfRel).wf)
  cases h with
  | @take pending rest next seen name hpending hnext =>
    cases hfresh : m.fresh origin seen name with
    | nil =>
      rw [hfresh, List.nil_append] at hnext
      refine Prod.Lex.right _ ?_
      rw [hnext.length_eq, hpending.length_eq]
      exact Nat.lt_succ_self _
    | cons d more =>
      have hd : d ∈ m.fresh origin seen name := hfresh ▸ List.mem_cons_self
      obtain ⟨hstep, -, hnew⟩ := mem_fresh_iff.1 hd
      exact Prod.Lex.left _ _
        (length_unseen_lt (mem_dependencyNames hstep) hnew List.mem_cons_self)

/-- **What every step keeps** in a search for what `origin` depends on. -/
structure Searching (m : SchemaModel) (origin : String) (s : SearchState) : Prop where
  /-- steps lead to what is pending -/
  reaches_pending : ∀ a ∈ s.pending, m.Reaches origin a
  /-- steps lead to what has been found, and it is never what the search is for -/
  reaches_seen : ∀ a ∈ s.seen, a ≠ origin ∧ m.Reaches origin a
  /-- what is not pending any more has been expanded -/
  expanded : ∀ a, a = origin ∨ a ∈ s.seen →
    a ∈ s.pending ∨ ∀ b, m.DependsOn a b → b = origin ∨ b ∈ s.seen

theorem searching_start (m : SchemaModel) (origin : String) :
    m.Searching origin ⟨[origin], []⟩ where
  reaches_pending := by
    intro a ha
    obtain rfl := List.mem_singleton.1 ha
    exact .refl
  reaches_seen := fun a ha => absurd ha List.not_mem_nil
  expanded := by
    rintro a (rfl | ha)
    · exact Or.inl List.mem_cons_self
    · exact absurd ha List.not_mem_nil

/-- A step keeps it. -/
theorem Searching.of_expands (h : m.Searching origin s) (hstep : m.Expands origin s s') :
    m.Searching origin s' := by
  cases hstep with
  | @take pending rest next seen name hpending hnext =>
    have hname : m.Reaches origin name :=
      h.reaches_pending name (hpending.mem_iff.2 List.mem_cons_self)
    have hfresh : ∀ a ∈ m.fresh origin seen name, a ≠ origin ∧ m.Reaches origin a := by
      intro a ha
      obtain ⟨hdependsOn, hne, -⟩ := mem_fresh_iff.1 ha
      exact ⟨hne, hname.tail hdependsOn⟩
    refine ⟨fun a ha => ?_, fun a ha => ?_, fun a ha => ?_⟩
    · rcases List.mem_append.1 (hnext.mem_iff.1 ha) with ha | ha
      · exact (hfresh a ha).2
      · exact h.reaches_pending a (hpending.mem_iff.2 (List.mem_cons_of_mem name ha))
    · rcases List.mem_append.1 ha with ha | ha
      · exact hfresh a ha
      · exact h.reaches_seen a ha
    · by_cases hnew : a ∈ m.fresh origin seen name
      · exact Or.inl (hnext.mem_iff.2 (List.mem_append_left _ hnew))
      · have hold : a = origin ∨ a ∈ seen :=
          ha.imp_right fun ha => (List.mem_append.1 ha).resolve_left hnew
        rcases h.expanded a hold with hmem | hclosed
        · -- what was pending is pending still, or it is the name that is expanded now
          rcases List.mem_cons.1 (hpending.mem_iff.1 hmem) with rfl | hmem
          · exact Or.inr fun b hb => eq_or_mem_fresh_append hb
          · exact Or.inl (hnext.mem_iff.2 (List.mem_append_right _ hmem))
        · exact Or.inr fun b hb => (hclosed b hb).imp_right (List.mem_append_right _)

/-- So it holds all along a search. -/
theorem Searching.of_run (h : m.Searching origin s)
    (hrun : Relation.ReflTransGen (m.Expands origin) s s') : m.Searching origin s' := by
  induction hrun with
  | refl => exact h
  | tail _ hstep ih => exact ih.of_expands hstep

/-- **When nothing is pending** any more, what has been found is what steps lead to. -/
theorem Searching.mem_seen_iff (h : m.Searching origin s) (hdone : s.pending = []) :
    x ∈ s.seen ↔ x ≠ origin ∧ m.Reaches origin x := by
  constructor
  · exact h.reaches_seen x
  · rintro ⟨hne, hreaches⟩
    have hclosed : ∀ a, a = origin ∨ a ∈ s.seen → ∀ b, m.DependsOn a b → b = origin ∨ b ∈ s.seen := by
      intro a ha
      refine (h.expanded a ha).resolve_left fun hmem => ?_
      rw [hdone] at hmem
      exact absurd hmem List.not_mem_nil
    have hfound : x = origin ∨ x ∈ s.seen := by
      induction hreaches with
      | refl => exact Or.inl rfl
      | @tail before after _ hstep ih =>
        by_cases hbefore : before = origin
        · exact hclosed before (Or.inl hbefore) after hstep
        · exact hclosed before (ih hbefore) after hstep
    exact hfound.resolve_left hne

/-! ### The search of a model -/

/-- **The search of a model** takes the first of the pending names. -/
theorem expands_search (m : SchemaModel) (origin : String) (pending seen : List String) :
    Relation.ReflTransGen (m.Expands origin) ⟨pending, seen⟩
      ⟨[], m.search origin pending seen⟩ := by
  fun_induction search m origin pending seen with
  | case1 => exact .refl
  | case2 seen name rest hnew ih =>
    have hstep : m.Expands origin ⟨name :: rest, seen⟩ ⟨rest, m.fresh origin seen name ++ seen⟩ :=
      .take (.refl _) (by rw [hnew, List.nil_append])
    rw [hnew, List.nil_append] at hstep
    exact ih.head hstep
  | case3 seen name rest d more hnew ih =>
    have hstep : m.Expands origin ⟨name :: rest, seen⟩
        ⟨d :: more ++ rest, m.fresh origin seen name ++ seen⟩ :=
      .take (.refl _) (by rw [hnew])
    rw [hnew] at hstep
    exact ih.head hstep

/-- **What a name depends on** is what steps lead to, apart from the name itself. -/
theorem mem_dependencies_iff : x ∈ m.dependencies name ↔ x ≠ name ∧ m.Reaches name x := by
  have hsearching := (searching_start m name).of_run (expands_search m name [name] [])
  rw [dependencies, mem_sortedSet]
  exact hsearching.mem_seen_iff rfl

/-! ### Chains of names -/

/-- **Steps as a chain**: some steps lead to another name if names can be listed from the one to the
other, each depending on the next. -/
theorem reaches_iff_exists_chain (hne : x ≠ name) :
    m.Reaches name x ↔
      ∃ names, (name :: names).IsChain m.DependsOn ∧ names.getLast? = some x := by
  constructor
  · intro hreaches
    obtain ⟨names, hchain, hlast⟩ := List.exists_isChain_cons_of_relationReflTransGen hreaches
    cases names with
    | nil => exact absurd hlast.symm hne
    | cons next rest =>
      rw [List.getLast_cons (List.cons_ne_nil _ _)] at hlast
      exact ⟨next :: rest, hchain, hlast ▸ List.getLast?_eq_some_getLast (List.cons_ne_nil _ _)⟩
  · rintro ⟨names, hchain, hlast⟩
    refine List.relationReflTransGen_of_exists_isChain_cons names hchain ?_
    obtain ⟨front, rfl⟩ := List.getLast?_eq_some_iff.1 hlast
    rw [List.getLast_cons (by simp), List.getLast_append_singleton]

/-- **What a name depends on.** A search for it that takes any pending name next ends, and when it
does, what it has found are the dependencies of the name, whichever way it went. They are listed in
strictly ascending order, and they are the names other than that name to which a chain of one step or
more leads. A step leads from a name to what its newest revision imports or includes; a name that no
unit has is where a chain ends. -/
theorem dependencies_reachable (m : SchemaModel) (name : String) :
    (WellFounded fun after before => m.Expands name before after) ∧
    (∀ s, Relation.ReflTransGen (m.Expands name) ⟨[name], []⟩ s →
      (s.pending ≠ [] ∧ ∃ s', m.Expands name s s') ∨
      (s.pending = [] ∧ ∀ d, d ∈ s.seen ↔ d ∈ m.dependencies name)) ∧
    (m.dependencies name).Pairwise (· < ·) ∧
    (∀ d, d ∈ m.dependencies name ↔ d ≠ name ∧
      ∃ names, (name :: names).IsChain m.DependsOn ∧ names.getLast? = some d) ∧
    (∀ a d, m.DependsOn a d ↔ ∃ u, m.get? a = some u ∧ (d ∈ u.imports ∨ d ∈ u.includes)) ∧
    (∀ a, m.get? a = none ↔ ∀ u ∈ m.units, u.name ≠ a) ∧
    ∀ a u, m.get? a = some u →
      u ∈ m.units ∧ u.name = a ∧ ∀ v ∈ m.units, v.name = a → v.revisionKey ≤ u.revisionKey := by
  refine ⟨wellFounded_expands m name, fun s hrun => ?_, pairwise_lt_sortedSet _, fun d => ?_,
    fun a d => ?_, fun a => ?_, fun a u hu => ?_⟩
  · by_cases hdone : s.pending = []
    · refine Or.inr ⟨hdone, fun d => ?_⟩
      rw [((searching_start m name).of_run hrun).mem_seen_iff hdone, mem_dependencies_iff]
    · exact Or.inl ⟨hdone, exists_expands hdone⟩
  · rw [mem_dependencies_iff]
    exact and_congr_right fun hne => reaches_iff_exists_chain hne
  · simp only [dependsOn_iff, SchemaUnit.dependencies, List.mem_append]
  · simp [get?_eq_none_iff, contains]
  · obtain ⟨hmem, hname⟩ := mem_of_get?_eq_some hu
    exact ⟨hmem, hname, fun v hv hv' => revisionKey_le_of_get?_eq_some hu hv hv'⟩

end SchemaModel

end SchemaAssembly
