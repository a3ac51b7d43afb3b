import SchemaAssembly.Proofs.Visits
import SchemaAssembly.SourceSet

/-!
# Roles of sources

What sorting sources by role keeps, and of what. A file under test is primary or ignored by its text
alone. Of the library roots, and of what scans of them find, only the first of each place is kept;
that is the same walk through a list twice over, and `FirstsOf` says what it comes to.

- `firstsOf_distinctOn`: the walk keeps first occurrences;
- `distinctOn_append`: what comes later in a list adds to what is kept and takes nothing away;
- `rolesOf_classify`: which sources have which role, and in which order;
- `sortSources_of_rootsUsable` and `sortSources_of_unusable`: the sources are the result, unless the
  system cannot be asked for a root;
- `classify_stable`: more libraries at the end only add roots and sources at the end.
-/

namespace SchemaAssembly

section FirstOccurrences

variable {α β : Type} [DecidableEq β] {key : α → β} {seen : List β} {l more : List α} {a : α}

/-- **What is kept of a list by keys**: some of its elements in its order, no two of them with one
key, and for every key the first element that has it. -/
structure FirstsOf (key : α → β) (l kept : List α) : Prop where
  /-- what is kept comes in the order of the list -/
  sublist : kept.Sublist l
  /-- no key is kept twice -/
  nodup : (kept.map key).Nodup
  /-- of every key the first element is kept -/
  exists_find? : ∀ a ∈ l, ∃ b ∈ kept, l.find? (fun c => key c = key a) = some b

/-- The first element of a key that was not seen is kept. -/
theorem exists_find?_of_mem (ha : a ∈ l) (hnew : key a ∉ seen) :
    ∃ b ∈ distinctOnAfter key seen l, l.find? (fun c => key c = key a) = some b := by
  induction l generalizing seen with
  | nil => cases ha
  | cons c rest ih =>
    rw [distinctOnAfter_cons]
    by_cases hkey : key c = key a
    · rw [if_neg (hkey ▸ hnew), List.find?_cons_of_pos (by simpa using hkey)]
      exact ⟨c, List.mem_cons_self, rfl⟩
    · have hrest : a ∈ rest := by
        rcases List.mem_cons.1 ha with rfl | hrest
        · exact absurd rfl hkey
        · exact hrest
      rw [List.find?_cons_of_neg (by simpa using hkey)]
      split
      · exact ih hrest hnew
      · obtain ⟨b, hb, hfind⟩ := @ih (key c :: seen) hrest
          (List.not_mem_cons_of_ne_of_not_mem (Ne.symm hkey) hnew)
        exact ⟨b, List.mem_cons_of_mem c hb, hfind⟩

/-- Either all elements of a list pass a test, or there is a first one that does not. -/
theorem forall_or_exists_first {α : Type} (test : α → Bool) (l : List α) :
    (∀ a ∈ l, test a = true) ∨ ∃ before a after, l = before ++ a :: after ∧
      (∀ b ∈ before, test b = true) ∧ test a = false := by
  rcases hfirst : l.find? (fun a => !test a) with _ | a
  · exact Or.inl fun a ha => by simpa using List.find?_eq_none.1 hfirst a ha
  · obtain ⟨ha, before, after, hl, hbefore⟩ := List.find?_eq_some_iff_append.1 hfirst
    exact Or.inr ⟨before, a, after, hl, fun b hb => by simpa using hbefore b hb, by simpa using ha⟩

/-- **First occurrences are what is kept.** -/
theorem firstsOf_distinctOn (key : α → β) (l : List α) : FirstsOf key l (distinctOn key l) where
  sublist := distinctOnAfter_sublist key [] l
  nodup := nodup_map_distinctOn key l
  exists_find? _ ha := exists_find?_of_mem ha List.not_mem_nil

/-- Elements whose keys were seen are passed over. -/
theorem distinctOnAfter_eq_filter (key : α → β) (before seen : List β) (l : List α) :
    distinctOnAfter key (before ++ seen) l =
      distinctOnAfter key before (l.filter fun a => key a ∉ seen) := by
  induction l generalizing before with
  | nil => rfl
  | cons a rest ih =>
    rw [distinctOnAfter_cons]
    by_cases hseen : key a ∈ seen
    · rw [if_pos (List.mem_append_right before hseen), ih,
        List.filter_cons_of_neg (by simpa using hseen)]
    · have hmem : key a ∈ before ++ seen ↔ key a ∈ before := by simp [hseen]
      rw [List.filter_cons_of_pos (by simpa using hseen), distinctOnAfter_cons]
      simp only [hmem, ← List.cons_append, ih]

/-- **One list after another**: of the second one those are kept whose keys the first does not
have. -/
theorem distinctOn_append (key : α → β) (l more : List α) :
    distinctOn key (l ++ more) =
      distinctOn key l ++ distinctOn key (more.filter fun a => key a ∉ l.map key) := by
  have hmore := distinctOnAfter_eq_filter key [] (l.map key) more
  rw [List.nil_append] at hmore
  rw [distinctOn, distinctOnAfter_append, List.append_nil, hmore]
  rfl

/-- What is kept stays in front. -/
theorem distinctOn_prefix_append (key : α → β) (l more : List α) :
    distinctOn key l <+: distinctOn key (l ++ more) := by
  rw [distinctOn_append]
  exact List.prefix_append _ _

/-- The keys of a list are those of what is kept. -/
theorem mem_map_distinctOn {k : β} : k ∈ (distinctOn key l).map key ↔ k ∈ l.map key := by
  constructor
  · intro hk
    obtain ⟨a, ha, rfl⟩ := List.mem_map.1 hk
    exact List.mem_map_of_mem ((firstsOf_distinctOn key l).sublist.subset ha)
  · intro hk
    obtain ⟨a, ha, rfl⟩ := List.mem_map.1 hk
    obtain ⟨b, hb, hfind⟩ := (firstsOf_distinctOn key l).exists_find? a ha
    have hkey : key b = key a := by simpa using List.find?_some hfind
    exact hkey ▸ List.mem_map_of_mem hb

/-- Elements at the end whose keys are there already change nothing. -/
theorem distinctOn_append_eq_self (hmore : ∀ a ∈ more, key a ∈ (distinctOn key l).map key) :
    distinctOn key (l ++ more) = distinctOn key l := by
  have hnone : (more.filter fun a => key a ∉ l.map key) = [] := by
    refine List.filter_eq_nil_iff.2 fun a ha => ?_
    rw [decide_eq_true_eq]
    exact not_not_intro (mem_map_distinctOn.1 (hmore a ha))
  rw [distinctOn_append, hnone]
  exact List.append_nil _

end FirstOccurrences

/-- **Usable roots**: the system can be asked for all of them. -/
def SourceSet.RootsUsable (s : SourceSet) : Prop :=
  ∀ root ∈ s.roots, (Path.ofText root).isUsable = true

namespace FileTree

/-- Where a library root spells out that it lies. -/
def rootPlace (t : FileTree) (root : String) : Path :=
  t.place (.ofText root)

/-- What scans of library roots find, one root after the other. -/
def filesBelow (t : FileTree) (o : ScanOptions) (roots : List String) : List Path :=
  roots.flatMap fun root => t.sourcesBelow o (.ofText root)

/-- **Sources by role**, told by what was given. -/
structure RolesOf (t : FileTree) (o : ScanOptions) (libraries tests : List String)
    (sources : SourceSet) : Prop where
  /-- each file under test is primary if its text ends in the extension and ignored if it does not,
  both in the order given and as often as given -/
  exists_tested : ∃ tested : List String, sources.primary = tested.map Path.ofText ∧
    tested.Sublist tests ∧ sources.ignored.Sublist tests ∧
    (tested ++ sources.ignored).Perm tests ∧
    (∀ text ∈ tested, o.extension.toList <:+ text.toList) ∧
    ∀ text ∈ sources.ignored, ¬ o.extension.toList <:+ text.toList
  /-- no two roots lie at one place -/
  nodup_roots : (sources.roots.map t.rootPlace).Nodup
  /-- the first roots are the directories of the primary sources, the others are libraries at places
  of their own -/
  exists_derived : ∃ derived given, sources.roots = derived ++ given ∧
    FirstsOf t.rootPlace (sources.primary.map fun path => path.parent.text) derived ∧
    FirstsOf t.rootPlace (libraries.filter fun root => t.rootPlace root ∉ derived.map t.rootPlace)
      given
  /-- no two supporting sources lie at one place -/
  nodup_supporting : (sources.supporting.map t.place).Nodup
  /-- a supporting source is found by the scan of a root -/
  exists_root : ∀ p ∈ sources.supporting, ∃ root ∈ sources.roots,
    p ∈ t.sourcesBelow o (.ofText root)
  /-- of all that scans of the roots find, the first file at each place is kept, in order -/
  firstsOf_supporting : FirstsOf t.place (t.filesBelow o sources.roots) sources.supporting

section

variable (t : FileTree) (o : ScanOptions) (libraries tests : List String)

theorem filesBelow_append (roots more : List String) :
    t.filesBelow o (roots ++ more) = t.filesBelow o roots ++ t.filesBelow o more :=
  List.flatMap_append

/-- The roots are first occurrences. -/
theorem roots_classify :
    (t.classify o libraries tests).1.roots = distinctOn t.rootPlace
      (((t.classify o libraries tests).1.primary.map fun path => path.parent.text) ++ libraries) :=
  rfl

/-- So are the supporting sources. -/
theorem supporting_eq_distinctOn :
    (t.classify o libraries tests).1.supporting =
      distinctOn t.place (t.filesBelow o (t.classify o libraries tests).1.roots) := by
  simp only [classify, scanRoots, List.filterMap_flatMap]
  rfl

/-- **Every source has its role.** -/
theorem rolesOf_classify : t.RolesOf o libraries tests (t.classify o libraries tests).1 where
  exists_tested := by
    refine ⟨tests.filter (isSourceText o.extension), rfl, List.filter_sublist, List.filter_sublist,
      List.filter_append_perm _ tests, fun text htext => ?_, fun text htext => ?_⟩
    · exact List.isSuffixOf_iff_suffix.1 (List.mem_filter.1 htext).2
    · have hnot := (List.mem_filter.1 htext).2
      rw [Bool.not_eq_true'] at hnot
      exact fun hsuffix => Bool.eq_false_iff.1 hnot (List.isSuffixOf_iff_suffix.2 hsuffix)
  nodup_roots := nodup_map_distinctOn t.rootPlace _
  exists_derived := by
    refine ⟨_, _, (roots_classify t o libraries tests).trans (distinctOn_append _ _ _),
      firstsOf_distinctOn _ _, ?_⟩
    -- the places of the directories are those of the directories that are kept
    simp only [mem_map_distinctOn]
    exact firstsOf_distinctOn _ _
  nodup_supporting := nodup_map_distinctOn t.place _
  exists_root p hp := by
    rw [supporting_eq_distinctOn] at hp
    exact List.mem_flatMap.1 ((firstsOf_distinctOn _ _).sublist.subset hp)
  firstsOf_supporting := by
    rw [supporting_eq_distinctOn]
    exact firstsOf_distinctOn _ _

end

/-! ### Scans that break off -/

section

variable {t : FileTree} {o : ScanOptions} {libraries tests : List String}

/-- Scans of usable roots do not break off. -/
theorem unusable?_of_mem_scanRoots {roots : List String} {finding : Finding}
    (hroots : ∀ root ∈ roots, (Path.ofText root).isUsable = true)
    (h : finding ∈ t.scanRoots o roots) : finding.unusable? = none := by
  obtain ⟨root, hroot, h⟩ := List.mem_flatMap.1 h
  rw [scan, if_pos (hroots root hroot)] at h
  exact unusable?_of_mem_scanStack h

/-- **Usable roots**: the sources and what is reported are the result. -/
theorem sortSources_of_rootsUsable (h : (t.classify o libraries tests).1.RootsUsable) :
    t.sortSources o libraries tests =
      (.ok (t.classify o libraries tests).1, (t.classify o libraries tests).2) := by
  have hnone : (t.scanRoots o (t.classify o libraries tests).1.roots).findSome? Finding.unusable? =
      none := List.findSome?_eq_none_iff.2 fun finding hfinding => unusable?_of_mem_scanRoots h hfinding
  rw [sortSources]
  simp only [hnone]

/-- **A root that is not usable**: the first one ends it, and what the scans of those before it have
reported is all that is reported. -/
theorem sortSources_of_unusable {before after : List String} {root : String}
    (hroots : (t.classify o libraries tests).1.roots = before ++ root :: after)
    (hbefore : ∀ other ∈ before, (Path.ofText other).isUsable = true)
    (hroot : (Path.ofText root).isUsable = false) :
    t.sortSources o libraries tests =
      (.error (.ofText root), (t.scanRoots o before).filterMap Finding.event?) := by
  have hnone : ∀ finding ∈ t.scanRoots o before, finding.unusable? = none :=
    fun finding hfinding => unusable?_of_mem_scanRoots hbefore hfinding
  have hscan : t.scanRoots o (before ++ root :: after) =
      t.scanRoots o before ++ .unusableRoot (.ofText root) :: t.scanRoots o after := by
    have hbroken : t.scan o (.ofText root) = [.unusableRoot (.ofText root)] := by
      rw [scan, hroot, if_neg Bool.false_ne_true]
    simp only [scanRoots, List.flatMap_append, List.flatMap_cons, hbroken, List.singleton_append]
  have hfind : (t.scanRoots o (before ++ root :: after)).findSome? Finding.unusable? =
      some (.ofText root) := by
    rw [hscan, List.findSome?_append, List.findSome?_eq_none_iff.2 hnone]
    rfl
  have htake : (t.scanRoots o (before ++ root :: after)).takeWhile (·.unusable?.isNone) =
      t.scanRoots o before := by
    rw [hscan, List.takeWhile_append_of_pos fun finding hfinding => by
      rw [hnone finding hfinding, Option.isNone_none]]
    exact List.append_nil _
  rw [sortSources]
  simp only [hroots, hfind, htake]

/-- Either all roots are usable, or there is a first one that is not. -/
theorem rootsUsable_or_first_unusable (s : SourceSet) :
    s.RootsUsable ∨ ∃ before root after, s.roots = before ++ root :: after ∧
      (∀ other ∈ before, (Path.ofText other).isUsable = true) ∧
        (Path.ofText root).isUsable = false :=
  forall_or_exists_first (fun root => (Path.ofText root).isUsable) s.roots

/-- The system can be asked for every supporting source. -/
theorem isUsable_of_mem_supporting {p : Path}
    (hp : p ∈ (t.classify o libraries tests).1.supporting) : p.isUsable = true := by
  obtain ⟨root, -, hp⟩ := (t.rolesOf_classify o libraries tests).exists_root p hp
  exact isUsable_of_mem_sourcesBelow hp

/-- **When sources are the result**: those sorted by role are, and only if all roots are usable. -/
theorem sortSources_eq_ok_iff {sources : SourceSet} :
    (t.sortSources o libraries tests).1 = .ok sources ↔
      sources = (t.classify o libraries tests).1 ∧ sources.RootsUsable := by
  rcases rootsUsable_or_first_unusable (t.classify o libraries tests).1 with
    husable | ⟨before, root, after, hroots, hbefore, hroot⟩
  · rw [sortSources_of_rootsUsable husable, Except.ok.injEq]
    constructor
    · rintro rfl
      exact ⟨rfl, husable⟩
    · rintro ⟨rfl, -⟩
      rfl
  · rw [sortSources_of_unusable hroots hbefore hroot]
    refine iff_of_false (fun h => by cases h) ?_
    rintro ⟨rfl, husable⟩
    have hmem : root ∈ (t.classify o libraries tests).1.roots := by
      rw [hroots]
      exact List.mem_append_right before List.mem_cons_self
    rw [husable root hmem] at hroot
    cases hroot

end

/-! ### Stability -/

section

variable (t : FileTree) (o : ScanOptions) (libraries tests : List String)

/-- **Sorting sources by role is stable.** Every source has its role, and each root and each
supporting source is the first at its place. With more libraries at the end the files under test
have the same roles, and the roots and supporting sources are the same with others behind them.
Libraries at places of roots, however they are spelled, change nothing. The sources of which this is
said are the result, unless the system cannot be asked for a root. -/
theorem classify_stable :
    (∀ sources, (t.sortSources o libraries tests).1 = .ok sources ↔
      sources = (t.classify o libraries tests).1 ∧ sources.RootsUsable) ∧
    t.RolesOf o libraries tests (t.classify o libraries tests).1 ∧
    (∀ more,
      (t.classify o (libraries ++ more) tests).1.primary =
        (t.classify o libraries tests).1.primary ∧
      (t.classify o (libraries ++ more) tests).1.ignored =
        (t.classify o libraries tests).1.ignored ∧
      (t.classify o libraries tests).1.roots <+:
        (t.classify o (libraries ++ more) tests).1.roots ∧
      (t.classify o libraries tests).1.supporting <+:
        (t.classify o (libraries ++ more) tests).1.supporting) ∧
    ∀ more, (∀ library ∈ more, ∃ root ∈ (t.classify o libraries tests).1.roots,
        t.place (.ofText library) = t.place (.ofText root)) →
      t.classify o (libraries ++ more) tests = t.classify o libraries tests := by
  refine ⟨fun sources => sortSources_eq_ok_iff, t.rolesOf_classify o libraries tests,
    fun more => ?_, fun more hmore => ?_⟩
  · have hroots : (t.classify o libraries tests).1.roots <+:
        (t.classify o (libraries ++ more) tests).1.roots := by
      rw [roots_classify, roots_classify, ← List.append_assoc]
      exact distinctOn_prefix_append _ _ _
    refine ⟨rfl, rfl, hroots, ?_⟩
    obtain ⟨others, hothers⟩ := hroots
    rw [supporting_eq_distinctOn, supporting_eq_distinctOn, ← hothers,
      filesBelow_append]
    exact distinctOn_prefix_append _ _ _
  · have hroots : t.libraryRoots ((tests.filter (isSourceText o.extension)).map Path.ofText)
        (libraries ++ more) =
          t.libraryRoots ((tests.filter (isSourceText o.extension)).map Path.ofText) libraries := by
      rw [libraryRoots, libraryRoots, ← List.append_assoc]
      refine distinctOn_append_eq_self fun library hlibrary => ?_
      obtain ⟨root, hroot, hplace⟩ := hmore library hlibrary
      exact List.mem_map.2 ⟨root, hroot, hplace.symm⟩
    rw [classify, classify, hroots]

end

end FileTree

end SchemaAssembly
