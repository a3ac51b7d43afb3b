import SchemaAssembly.Proofs.Places
import SchemaAssembly.Proofs.RecursiveScan

/-!
# Searching the library roots

The directories of the sources under test and the libraries that are given are all to be searched.
Of roots with one place only the first is kept, and of files found at one place only the first is a
source. Nothing gets lost if paths are straight; if they are not, a root that is kept may lead
elsewhere than another at the same place, which is then not searched.

- `searchesAll_iff`: where places tell directories apart, all is searched exactly if the roots kept
  lead to every directory that holds a source;
- `library_roots_searched`: when that is so.
-/

namespace SchemaAssembly

/-- The scan of a library root: of the directory alone, or of all below it. -/
def ScanOptions.library (recursive : Bool) (extension : String) : ScanOptions where
  recursive := recursive
  extension := extension

namespace FileTree

/-- The roots asked for: the directories of the sources under test, then the libraries. -/
def rootsOf (extension : String) (libraries tests : List String) : List Path :=
  (tests.filter (isSourceText extension)).map (fun text => (Path.ofText text).parent) ++
    libraries.map Path.ofText

/-- The roots that are kept: the first one at each place. -/
def keptRoots (t : FileTree) (roots : List Path) : List Path :=
  distinctOn t.place roots

/-- A path stands for a file if it says of the same directory the same name. -/
def StandsFor (t : FileTree) (q p : Path) : Prop :=
  ∃ loc, t.placed p = (.ok loc, p.name) ∧ t.placed q = (.ok loc, p.name)

/-- **All roots are searched**: whatever the scan of one of them would find on its own, a supporting
source stands for. -/
def SearchesAll (t : FileTree) (o : ScanOptions) (libraries tests : List String) : Prop :=
  ∀ root ∈ rootsOf o.extension libraries tests, ∀ p ∈ t.sourcesBelow o root,
    ∃ q ∈ (t.classify o libraries tests).1.supporting, t.StandsFor q p

/-- **Places tell directories apart**: what is visited at one place lies at one location. -/
def PlacesTell (t : FileTree) (o : ScanOptions) (roots : List Path) : Prop :=
  ∀ r ∈ roots, ∀ v ∈ t.visits o r, ∀ s ∈ roots, ∀ w ∈ t.visits o s,
    t.place v.path = t.place w.path → v.location = w.location

/-- The roots that are kept lead to every directory in which one of the roots finds a source. -/
def LeadToAll (t : FileTree) (o : ScanOptions) (roots : List Path) : Prop :=
  ∀ root ∈ roots, ∀ p ∈ t.sourcesBelow o root,
    ∃ kept ∈ t.keptRoots roots, ∃ v ∈ t.visits o kept, t.resolve p.parent = .ok v.location

section

variable {t : FileTree} {o : ScanOptions} {recursive : Bool} {extension : String}
  {roots : List Path} {libraries tests : List String} {r s p : Path} {v w : Visit} {name : String}

/-! ### Sources and roots kept -/

/-- The supporting sources are what scans of the roots kept find, the first file at each place. -/
theorem supporting_classify (t : FileTree) (o : ScanOptions) (libraries tests : List String) :
    (t.classify o libraries tests).1.supporting = distinctOn t.place
      ((t.keptRoots (rootsOf o.extension libraries tests)).flatMap (t.sourcesBelow o)) := by
  have hparents : ∀ text, Path.ofText (Path.ofText text).parent.text = (Path.ofText text).parent :=
    fun text => Path.ofText_text (Path.wellFormed_ofText text).parent
  have hroots : (t.libraryRoots ((tests.filter (isSourceText o.extension)).map Path.ofText)
      libraries).map Path.ofText = t.keptRoots (rootsOf o.extension libraries tests) := by
    have hderived : (((tests.filter (isSourceText o.extension)).map Path.ofText).map
        fun path => path.parent.text).map Path.ofText =
          (tests.filter (isSourceText o.extension)).map fun text => (Path.ofText text).parent := by
      rw [List.map_map, List.map_map]
      exact List.map_congr_left fun text _ => hparents text
    rw [libraryRoots, map_distinctOn Path.ofText t.place, List.map_append, hderived]
    rfl
  rw [← hroots, List.flatMap_map]
  simp only [classify, scanRoots, List.filterMap_flatMap]
  rfl

/-- For every root one at the same place is kept. -/
theorem exists_mem_keptRoots (hr : r ∈ roots) : ∃ s ∈ t.keptRoots roots, t.place s = t.place r := by
  rcases @exists_mem_distinctOnAfter _ _ _ t.place [] _ _ hr with hseen | hkept
  · cases hseen
  · exact hkept

/-- What is kept was asked for. -/
theorem mem_of_mem_keptRoots (hr : r ∈ t.keptRoots roots) : r ∈ roots :=
  (mem_of_mem_distinctOnAfter hr).1

/-- A supporting source stands for every source in a directory that is visited from a root kept, if
places tell directories apart. -/
theorem exists_standsFor_of_visit (hentries : ∀ loc, ".." ∉ t.entries loc)
    (hunhindered : ∀ s ∈ roots, ∀ q ∈ t.scanPaths o s, t.Unhindered q)
    (htell : t.PlacesTell o roots) (hs : s ∈ roots) (hv : v ∈ t.visits o s)
    (hholds : t.HoldsSource o.extension v.location name) :
    ∃ q ∈ distinctOn t.place (roots.flatMap (t.sourcesBelow o)),
      t.placed q = (.ok v.location, name) := by
  have hfound : v.path.child name ∈ roots.flatMap (t.sourcesBelow o) :=
    List.mem_flatMap.2 ⟨s, hs, child_mem_sourcesBelow (hunhindered s hs) hv hholds⟩
  obtain hseen | ⟨q, hq, hplace⟩ := @exists_mem_distinctOnAfter _ _ _ t.place [] _ _ hfound
  · cases hseen
  refine ⟨q, hq, ?_⟩
  obtain ⟨r, hr, hq⟩ := List.mem_flatMap.1 (mem_of_mem_distinctOnAfter hq).1
  obtain ⟨w, hw, name', hholds', rfl⟩ := exists_visit_of_mem_sourcesBelow hq
  have hup : ∀ loc name, t.HoldsSource o.extension loc name → name ≠ ".." := by
    rintro loc name ⟨hname, -⟩ rfl
    exact hentries loc hname
  -- at one place both the directories and the names are the same
  rw [place_child (hup _ _ hholds'), place_child (hup _ _ hholds)] at hplace
  have hname : name' = name := by
    have h := congrArg Path.name hplace
    rwa [Path.name_child, Path.name_child] at h
  have hdir : t.place w.path = t.place v.path := by
    have h := congrArg Path.parent hplace
    rwa [Path.parent_child, Path.parent_child] at h
  rw [placed_child (reached_of_mem_visits hw).1, htell r hr w hw s hs v hv hdir, hname]

/-- **When all roots are searched**, if places tell directories apart: exactly if the roots kept
lead to every directory in which a source is found. -/
theorem searchesAll_iff (hentries : ∀ loc, ".." ∉ t.entries loc)
    (hunhindered : ∀ s ∈ t.keptRoots (rootsOf o.extension libraries tests),
      ∀ q ∈ t.scanPaths o s, t.Unhindered q)
    (htell : t.PlacesTell o (t.keptRoots (rootsOf o.extension libraries tests))) :
    t.SearchesAll o libraries tests ↔ t.LeadToAll o (rootsOf o.extension libraries tests) := by
  constructor
  · intro hall root hroot p hp
    obtain ⟨q, hq, loc, hplaced, hplaced'⟩ := hall root hroot p hp
    rw [supporting_classify] at hq
    obtain ⟨kept, hkept, hq⟩ := List.mem_flatMap.1 (mem_of_mem_distinctOnAfter hq).1
    obtain ⟨v, hv, name, -, rfl⟩ := exists_visit_of_mem_sourcesBelow hq
    rw [placed_child (reached_of_mem_visits hv).1] at hplaced'
    refine ⟨kept, hkept, v, hv, ?_⟩
    rw [(Prod.mk.inj hplaced').1]
    exact (Prod.mk.inj hplaced).1
  · intro hlead root hroot p hp
    obtain ⟨kept, hkept, v, hv, hparent⟩ := hlead root hroot p hp
    obtain ⟨w, hw, name, hholds, rfl⟩ := exists_visit_of_mem_sourcesBelow hp
    rw [Path.parent_child, (reached_of_mem_visits hw).1, Except.ok.injEq] at hparent
    -- the directory was also visited from a root that is kept, under a path that may be another
    rw [hparent] at hholds
    obtain ⟨q, hq, hplaced⟩ := exists_standsFor_of_visit hentries hunhindered htell hkept hv hholds
    rw [supporting_classify]
    refine ⟨q, hq, v.location, ?_, ?_⟩
    · rw [placed_child (reached_of_mem_visits hw).1, hparent, Path.name_child]
    · rw [hplaced, Path.name_child]

/-! ### When places tell directories apart -/

/-- A scan of one directory visits nothing but its root. -/
theorem eq_of_mem_visits_flat (hv : v ∈ t.visits (.flat extension) r) : v.path = r ∧ v.depth = 0 := by
  rcases mem_stack_or_stacked hv with hroot | ⟨w, -, hstacked⟩
  · exact Prod.mk.inj (List.mem_singleton.1 hroot)
  · have hdescends := (mem_stacked.1 hstacked).1
    rw [ScanOptions.descends_flat] at hdescends
    cases hdescends

/-- Directories that are not descended into are told apart: each is the root at its place. -/
theorem placesTell_flat (t : FileTree) (extension : String) (roots : List Path) :
    t.PlacesTell (.flat extension) (t.keptRoots roots) := by
  intro r hr v hv s hs w hw hplace
  have hv' := reached_of_mem_visits hv
  have hw' := reached_of_mem_visits hw
  rw [(eq_of_mem_visits_flat hv).1] at hplace hv'
  rw [(eq_of_mem_visits_flat hw).1] at hplace hw'
  obtain rfl := List.inj_on_of_nodup_map (nodup_map_distinctOn t.place roots) hr hs hplace
  exact Except.ok.inj (hv'.1.symm.trans hw'.1)

/-- What is visited from a straight root has a straight path. -/
theorem straight_of_mem_visits (hentries : ∀ loc, ".." ∉ t.entries loc) (hr : t.Straight r)
    (hv : v ∈ t.visits o r) : t.Straight v.path := by
  refine (@visitStack_induction t o [] [(r, 0)] (fun x => t.Straight x.1) (fun x hx => ?_)
    (fun w _ _ hw x hx => ?_) v hv).2.2
  · obtain rfl := List.mem_singleton.1 hx
    exact hr
  · obtain ⟨-, name, hname, -, rfl⟩ := mem_stacked.1 hx
    refine hw.child ?_
    rintro rfl
    exact hentries w.location hname

/-- **Straight roots** and what lies below them are told apart by their places. -/
theorem placesTell_of_straight (hentries : ∀ loc, ".." ∉ t.entries loc)
    (hroots : ∀ r ∈ roots, t.Straight r) : t.PlacesTell o roots := by
  intro r hr v hv s hs w hw hplace
  have hv' := straight_of_mem_visits hentries (hroots r hr) hv
  have hw' := straight_of_mem_visits hentries (hroots s hs) hw
  have hleads := leads_of_resolve (reached_of_mem_visits hv).1
  exact ((hv'.leads_iff hw' hplace).1 hleads).unique (leads_of_resolve (reached_of_mem_visits hw).1)

/-! ### Which directories are searched -/

/-- Steps from one root are steps from another that leads to the same directory. -/
theorem Reached.of_leads {steps : Nat} {loc : Location} (h : t.Reached r steps loc)
    (hleads : ∀ loc, t.Leads (t.start r) r.names loc → t.Leads (t.start s) s.names loc) :
    t.Reached s steps loc := by
  induction h with
  | here hr hnode => exact .here (hleads _ hr) hnode
  | further _ hbelow ih => exact .further ih hbelow

/-- What one root visits is visited from another that leads to the same directory. -/
theorem exists_visit_of_leads
    (hunhindered : ∀ q ∈ t.scanPaths (.library recursive extension) s, t.Unhindered q)
    (hleads : ∀ loc, t.Leads (t.start r) r.names loc → t.Leads (t.start s) s.names loc)
    (hv : v ∈ t.visits (.library recursive extension) r) :
    ∃ w ∈ t.visits (.library recursive extension) s, w.location = v.location := by
  have hreached := (reached_of_mem_visits hv).2.2.of_leads hleads
  -- without recursion the depth is zero, and only the root itself is to be visited
  cases recursive with
  | true => exact exists_visit_of_reached hunhindered hreached
  | false =>
    rw [(eq_of_mem_visits_flat hv).2] at hreached
    cases hreached with
    | here hs hnode => exact exists_visit_of_root (hunhindered s List.mem_cons_self) hs hnode

/-- **Straight roots lead everywhere**: the one kept leads where the others at its place lead. -/
theorem leadToAll_of_straight
    (hunhindered : ∀ s ∈ t.keptRoots roots,
      ∀ q ∈ t.scanPaths (.library recursive extension) s, t.Unhindered q)
    (hroots : ∀ r ∈ roots, t.Straight r) : t.LeadToAll (.library recursive extension) roots := by
  intro r hr p hp
  obtain ⟨v, hv, name, -, rfl⟩ := exists_visit_of_mem_sourcesBelow hp
  obtain ⟨s, hs, hplace⟩ := @exists_mem_keptRoots t roots r hr
  have hleads := fun loc =>
    (@Straight.leads_iff t r loc s (hroots r hr) (hroots s (mem_of_mem_keptRoots hs)) hplace.symm).1
  obtain ⟨w, hw, hloc⟩ := exists_visit_of_leads (hunhindered s hs) hleads hv
  exact ⟨s, hs, w, hw, by rw [Path.parent_child, (reached_of_mem_visits hv).1, hloc]⟩

/-- **Searching library roots.** Let nothing hinder the scans of the roots kept. Where places tell
directories apart, as they do without recursion, all roots are searched exactly if those kept lead to
every directory in which a source is found. If all roots are straight, all of them are searched. So
it is whenever `..` stands at the front of roots only and the working directory is settled. -/
theorem library_roots_searched (t : FileTree) (recursive : Bool) (extension : String)
    (libraries tests : List String) (hentries : ∀ loc, ".." ∉ t.entries loc)
    (hunhindered : ∀ s ∈ t.keptRoots (rootsOf extension libraries tests),
      ∀ q ∈ t.scanPaths (.library recursive extension) s, t.Unhindered q) :
    (t.PlacesTell (.library recursive extension)
        (t.keptRoots (rootsOf extension libraries tests)) →
      (t.SearchesAll (.library recursive extension) libraries tests ↔
        t.LeadToAll (.library recursive extension) (rootsOf extension libraries tests))) ∧
    (recursive = false →
      t.PlacesTell (.library recursive extension)
        (t.keptRoots (rootsOf extension libraries tests))) ∧
    ((∀ root ∈ rootsOf extension libraries tests, t.Straight root) →
      t.SearchesAll (.library recursive extension) libraries tests) ∧
    (t.Settled t.workingDirectory →
      (∀ root ∈ rootsOf extension libraries tests, root.UpFirst) →
        t.SearchesAll (.library recursive extension) libraries tests) := by
  have hiff := @searchesAll_iff t (.library recursive extension) libraries tests hentries hunhindered
  have hstraight : (∀ root ∈ rootsOf extension libraries tests, t.Straight root) →
      t.SearchesAll (.library recursive extension) libraries tests := by
    intro hroots
    have htell := @placesTell_of_straight t (.library recursive extension)
      (t.keptRoots (rootsOf extension libraries tests)) hentries
      fun root hroot => hroots root (mem_of_mem_keptRoots hroot)
    exact (hiff htell).2 (leadToAll_of_straight hunhindered hroots)
  refine ⟨hiff, ?_, hstraight,
    fun hworking hroots => hstraight fun root hroot =>
      straight_of_upFirst hworking (hroots root hroot)⟩
  rintro rfl
  exact placesTell_flat t extension _

end

/-! ### A directory passed by -/

/-- A working directory with a source and a link that leads into another directory, which also holds
a source. -/
def bypass : FileTree where
  nodes := [(["o"], .directory), (["o", "d"], .directory), (["o", "m.y"], .file []),
    (["w"], .directory), (["w", "k.y"], .file []), (["w", "l"], .link "/o/d")]
  workingDirectory := ["w"]

theorem up_not_mem_entries_bypass (loc : Location) : ".." ∉ bypass.entries loc := by
  intro hmem
  obtain ⟨n, hn, hlast⟩ := List.mem_filterMap.1 (mem_sortedSet.1 hmem)
  obtain ⟨-, hlast⟩ := Option.ite_none_right_eq_some.1 hlast
  exact (show ∀ n ∈ bypass.nodes, n.1.getLast? ≠ some ".." by decide) n hn hlast

theorem rootsOf_bypass :
    rootsOf ".y" [] ["k.y", "l/../m.y"] = [".", "l/.."].map Path.ofText := by
  cbv

/-- The directory of the second source has the same place as that of the first, which is kept. -/
theorem keptRoots_bypass :
    bypass.keptRoots (rootsOf ".y" [] ["k.y", "l/../m.y"]) = [.ofText "."] := by
  rw [rootsOf_bypass]
  cbv

theorem unhindered_bypass {p : Path}
    (hp : p ∈ [".", "k.y", "l", "../o", "../o/d", "../o/m.y"].map Path.ofText) :
    bypass.Unhindered p := by
  refine unhindered_of_map_resolve
    [["w"], ["w", "k.y"], ["o", "d"], ["o"], ["o", "d"], ["o", "m.y"]] ?_ hp
  cbv

theorem scanPaths_first_bypass (recursive : Bool) :
    bypass.scanPaths (.library recursive ".y") (.ofText ".") = [".", "k.y", "l"].map Path.ofText := by
  cases recursive <;> cbv

theorem sourcesBelow_first_bypass (recursive : Bool) :
    bypass.sourcesBelow (.library recursive ".y") (.ofText ".") = [.ofText "k.y"] := by
  cases recursive <;> cbv

theorem sourcesBelow_second_bypass (recursive : Bool) :
    bypass.sourcesBelow (.library recursive ".y") (.ofText "l/..") = [.ofText "l/../m.y"] := by
  cases recursive <;> cbv

/-- Nothing hinders the scan of the root that is kept; yet the directory of the second source is not
searched. -/
theorem not_searchesAll_bypass :
    (∀ loc, ".." ∉ bypass.entries loc) ∧
    ∀ recursive,
      (∀ s ∈ bypass.keptRoots (rootsOf ".y" [] ["k.y", "l/../m.y"]),
        ∀ q ∈ bypass.scanPaths (.library recursive ".y") s, bypass.Unhindered q) ∧
      ¬ bypass.SearchesAll (.library recursive ".y") [] ["k.y", "l/../m.y"] := by
  refine ⟨up_not_mem_entries_bypass, fun recursive => ⟨?_, fun hall => ?_⟩⟩
  · rw [keptRoots_bypass]
    intro s hs q hq
    obtain rfl := List.mem_singleton.1 hs
    rw [scanPaths_first_bypass] at hq
    exact unhindered_bypass (List.mem_of_mem_take (i := 3) hq)
  · have hroot : Path.ofText "l/.." ∈ rootsOf ".y" [] ["k.y", "l/../m.y"] := by
      rw [rootsOf_bypass]
      exact List.mem_cons_of_mem _ List.mem_cons_self
    have hfound : Path.ofText "l/../m.y" ∈
        bypass.sourcesBelow (.library recursive ".y") (.ofText "l/..") := by
      rw [sourcesBelow_second_bypass]
      exact List.mem_cons_self
    obtain ⟨q, hq, loc, -, hplaced⟩ := hall _ hroot _ hfound
    -- the one supporting source has another name
    have hkept : (bypass.classify (.library recursive ".y") [] ["k.y", "l/../m.y"]).1.supporting =
        [.ofText "k.y"] := by
      have hroots : bypass.keptRoots (rootsOf (ScanOptions.library recursive ".y").extension []
          ["k.y", "l/../m.y"]) = [.ofText "."] := keptRoots_bypass
      rw [supporting_classify, hroots, List.flatMap_singleton, sourcesBelow_first_bypass]
      rfl
    rw [hkept] at hq
    obtain rfl := List.mem_singleton.1 hq
    exact absurd (Prod.mk.inj hplaced).2 (by decide)

/-- With the other directory as a library, spelled in two ways, all roots are searched. -/
theorem library_roots_searched_bypass :
    (∀ loc, ".." ∉ bypass.entries loc) ∧
    (∀ s ∈ bypass.keptRoots (rootsOf ".y" ["../o", "/o"] ["k.y"]),
      ∀ q ∈ bypass.scanPaths (.library false ".y") s, bypass.Unhindered q) ∧
    bypass.Settled bypass.workingDirectory ∧
    bypass.SearchesAll (.library false ".y") ["../o", "/o"] ["k.y"] := by
  have hroots : rootsOf ".y" ["../o", "/o"] ["k.y"] = [".", "../o", "/o"].map Path.ofText := by
    cbv
  have hkept : bypass.keptRoots (rootsOf ".y" ["../o", "/o"] ["k.y"]) =
      [".", "../o"].map Path.ofText := by
    rw [hroots]
    cbv
  have hsecond : bypass.scanPaths (.library false ".y") (.ofText "../o") =
      ["../o", "../o/d", "../o/m.y"].map Path.ofText := by
    cbv
  have hunhindered : ∀ s ∈ bypass.keptRoots (rootsOf ".y" ["../o", "/o"] ["k.y"]),
      ∀ q ∈ bypass.scanPaths (.library false ".y") s, bypass.Unhindered q := by
    rw [hkept]
    simp only [List.map_cons, List.map_nil, List.forall_mem_cons, List.not_mem_nil, false_imp_iff,
      implies_true, and_true]
    refine ⟨fun q hq => ?_, fun q hq => ?_⟩
    · rw [scanPaths_first_bypass] at hq
      exact unhindered_bypass (List.mem_of_mem_take (i := 3) hq)
    · rw [hsecond] at hq
      exact unhindered_bypass (List.mem_of_mem_drop (i := 3) hq)
  have hworking : bypass.Settled bypass.workingDirectory := by
    refine ⟨fun front hfront => ?_, by decide⟩
    rcases List.prefix_cons_iff.1 hfront with rfl | ⟨rest, rfl, hrest⟩
    · decide
    · rw [List.prefix_nil.1 hrest]
      decide
  have hupFirst : ∀ root ∈ rootsOf ".y" ["../o", "/o"] ["k.y"], root.UpFirst := by
    rw [hroots]
    simp only [List.map_cons, List.map_nil, List.forall_mem_cons, List.not_mem_nil, false_imp_iff,
      implies_true, and_true]
    exact ⟨⟨0, [], by decide⟩, ⟨1, ["o"], by decide⟩, ⟨0, ["o"], by decide⟩⟩
  obtain ⟨-, -, -, hsearches⟩ := library_roots_searched bypass false ".y" ["../o", "/o"] ["k.y"]
    up_not_mem_entries_bypass hunhindered
  exact ⟨up_not_mem_entries_bypass, hunhindered, hworking, hsearches hworking hupFirst⟩

end FileTree

end SchemaAssembly
