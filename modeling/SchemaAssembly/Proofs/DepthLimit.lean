import SchemaAssembly.Proofs.RecursiveScan

/-!
# Scanning down to a limit

A scan with a depth limit is to find what lies in the directories that so many steps lead to, links
followed. All it finds lies there, but it may find less: the first visit to a directory is the only
one, and goes on from the depth at which it happens to come by. A directory may be listed at the
limit, by a way round through a link, although fewer steps lead to it, and then nothing below it is
looked at.

- `visits_eq_within_iff`: a scan visits all directories within the limit exactly if those that it
  lists too late have nothing below them that it does not visit;
- `depth_limited_scan`: what this means for the files.
-/

namespace SchemaAssembly

/-- Scanning down to a depth. -/
def ScanOptions.bounded (extension : String) (limit : Nat) : ScanOptions where
  recursive := true
  extension := extension
  maxDepth := some limit

@[simp] theorem ScanOptions.descends_bounded (extension : String) (limit depth : Nat) :
    (bounded extension limit).descends depth = decide (depth < limit) :=
  rfl

namespace FileTree

/-- **Within a limit**: no more steps than that lead to the directory. -/
def Within (t : FileTree) (root : Path) (limit : Nat) (loc : Location) : Prop :=
  ∃ steps ≤ limit, t.Reached root steps loc

/-- **The scan finds everything**: as pairs, the files it finds are the schema files in the
directories within the limit. -/
def FindsAll (t : FileTree) (extension : String) (root : Path) (limit : Nat) : Prop :=
  ∀ x, x ∈ (t.sourcesBelow (.bounded extension limit) root).map t.placed ↔
    ∃ loc name, t.Within root limit loc ∧ t.HoldsSource extension loc name ∧ x = (.ok loc, name)

/-- **Listed too late**: the directory is listed at the limit, although fewer steps lead to it. -/
def ListedLate (t : FileTree) (root : Path) (limit : Nat) (v : Visit) : Prop :=
  v.depth = limit ∧ ∃ steps < limit, t.Reached root steps v.location

/-- What lies right below a directory listed too late is visited all the same. -/
def CatchesUp (t : FileTree) (extension : String) (root : Path) (limit : Nat) : Prop :=
  ∀ v ∈ t.visits (.bounded extension limit) root, t.ListedLate root limit v →
    ∀ sub, t.Below v.location sub →
      ∃ w ∈ t.visits (.bounded extension limit) root, w.location = sub

section

variable {t : FileTree} {o : ScanOptions} {extension : String} {root : Path} {loc : Location}
  {limit : Nat} {v : Visit} {x : Except Fault Location × String}

/-! ### Directories within the limit -/

/-- No visit is deeper than the limit. -/
theorem depth_le_of_mem_visits (hv : v ∈ t.visits (.bounded extension limit) root) :
    v.depth ≤ limit := by
  refine (@visitStack_induction t _ [] [(root, 0)] (fun x => x.2 ≤ limit) (fun x hx => ?_)
    (fun w _ _ _ x hx => ?_) v hv).2.2
  · obtain rfl := List.mem_singleton.1 hx
    exact Nat.zero_le limit
  · obtain ⟨hdescends, name, -, -, rfl⟩ := mem_stacked.1 hx
    rw [ScanOptions.descends_bounded, decide_eq_true_eq] at hdescends
    exact hdescends

/-- **Every directory visited is within the limit.** -/
theorem within_of_mem_visits (hv : v ∈ t.visits (.bounded extension limit) root) :
    t.Within root limit v.location :=
  ⟨v.depth, depth_le_of_mem_visits hv, (reached_of_mem_visits hv).2.2⟩

/-- **Which directories are visited**: the root, and what lies right below a directory that is listed
above the limit. -/
theorem exists_visit_bounded_iff
    (hunhindered : ∀ p ∈ t.scanPaths (.bounded extension limit) root, t.Unhindered p) :
    (∃ v ∈ t.visits (.bounded extension limit) root, v.location = loc) ↔
      t.Reached root 0 loc ∨
        ∃ v ∈ t.visits (.bounded extension limit) root, v.depth < limit ∧
          t.Below v.location loc := by
  constructor
  · rintro ⟨v, hv, rfl⟩
    obtain ⟨hresolve, hdir, hreached⟩ := reached_of_mem_visits hv
    rcases mem_stack_or_stacked hv with hroot | ⟨w, hw, hstacked⟩
    · obtain ⟨-, hdepth⟩ := Prod.mk.inj (List.mem_singleton.1 hroot)
      rw [hdepth] at hreached
      exact Or.inl hreached
    · obtain ⟨hdescends, name, hname, -, hpath⟩ := mem_stacked.1 hstacked
      rw [ScanOptions.descends_bounded, decide_eq_true_eq] at hdescends
      rw [(Prod.mk.inj hpath).1] at hresolve
      have hleads := (leads_child_iff (reached_of_mem_visits hw).1 name).1 (leads_of_resolve hresolve)
      exact Or.inr ⟨w, hw, hdescends, name, hname, hleads, mem_directories_iff.1 hdir⟩
  · rintro (hroot | ⟨v, hv, hdepth, hbelow⟩)
    · cases hroot with
      | here hleads hnode =>
        exact exists_visit_of_root (hunhindered root List.mem_cons_self) hleads hnode
    · exact exists_visit_of_below hunhindered hv (by simpa using hdepth) hbelow

/-- If the scan catches up, what so many steps lead to is visited. -/
theorem exists_visit_of_catchesUp {steps : Nat}
    (hunhindered : ∀ p ∈ t.scanPaths (.bounded extension limit) root, t.Unhindered p)
    (hcatches : t.CatchesUp extension root limit) (hreached : t.Reached root steps loc)
    (hsteps : steps ≤ limit) :
    ∃ v ∈ t.visits (.bounded extension limit) root, v.location = loc := by
  induction hreached with
  | here hleads hnode =>
    exact exists_visit_of_root (hunhindered root List.mem_cons_self) hleads hnode
  | @further steps loc sub hreached hbelow ih =>
    obtain ⟨v, hv, rfl⟩ := ih (Nat.le_of_succ_le hsteps)
    -- the visit goes on, unless it is at the limit, where it comes too late
    rcases Nat.lt_or_eq_of_le (depth_le_of_mem_visits hv) with hlt | heq
    · exact exists_visit_of_below hunhindered hv (by simpa using hlt) hbelow
    · exact hcatches v hv ⟨heq, steps, hsteps, hreached⟩ sub hbelow

/-- **When all directories within the limit are visited**: if the scan catches up, and only then. -/
theorem visits_eq_within_iff
    (hunhindered : ∀ p ∈ t.scanPaths (.bounded extension limit) root, t.Unhindered p) :
    (∀ loc, (∃ v ∈ t.visits (.bounded extension limit) root, v.location = loc) ↔
        t.Within root limit loc) ↔
      t.CatchesUp extension root limit := by
  constructor
  · rintro hall v hv ⟨-, steps, hsteps, hreached⟩ sub hbelow
    exact (hall sub).2 ⟨steps + 1, hsteps, .further hreached hbelow⟩
  · intro hcatches loc
    constructor
    · rintro ⟨v, hv, rfl⟩
      exact within_of_mem_visits hv
    · rintro ⟨steps, hsteps, hreached⟩
      exact exists_visit_of_catchesUp hunhindered hcatches hreached hsteps

/-- No directory is listed too late if none that the limit leads to is nearer. -/
theorem not_listedLate_of_nearest
    (hnearest : ∀ loc, t.Reached root limit loc → ∀ steps < limit, ¬ t.Reached root steps loc)
    (hv : v ∈ t.visits (.bounded extension limit) root) : ¬ t.ListedLate root limit v := by
  rintro ⟨hdepth, steps, hsteps, hreached⟩
  refine hnearest v.location ?_ steps hsteps hreached
  rw [← hdepth]
  exact (reached_of_mem_visits hv).2.2

/-! ### Files within the limit -/

/-- What a scan with a limit finds are schema files in directories within the limit. -/
theorem exists_within_of_mem_map_placed
    (hx : x ∈ (t.sourcesBelow (.bounded extension limit) root).map t.placed) :
    ∃ loc name, t.Within root limit loc ∧ t.HoldsSource extension loc name ∧
      x = (.ok loc, name) := by
  obtain ⟨v, hv, name, hholds, rfl⟩ := exists_visit_of_mem_map_placed hx
  exact ⟨v.location, name, within_of_mem_visits hv, hholds, rfl⟩

/-- **When everything is found**: if every directory within the limit that holds a schema file is
visited. -/
theorem findsAll_iff
    (hunhindered : ∀ p ∈ t.scanPaths (.bounded extension limit) root, t.Unhindered p) :
    t.FindsAll extension root limit ↔
      ∀ loc name, t.Within root limit loc → t.HoldsSource extension loc name →
        ∃ v ∈ t.visits (.bounded extension limit) root, v.location = loc := by
  constructor
  · intro hfinds loc name hwithin hholds
    obtain ⟨v, hv, name', -, heq⟩ :=
      exists_visit_of_mem_map_placed ((hfinds _).2 ⟨loc, name, hwithin, hholds, rfl⟩)
    exact ⟨v, hv, (Except.ok.inj (Prod.mk.inj heq).1).symm⟩
  · intro hvisited x
    refine ⟨exists_within_of_mem_map_placed, ?_⟩
    rintro ⟨loc, name, hwithin, hholds, rfl⟩
    obtain ⟨v, hv, rfl⟩ := hvisited loc name hwithin hholds
    exact (mem_map_placed_sourcesBelow_iff hunhindered).2 ⟨v, hv, name, hholds, rfl⟩

/-- **Scanning down to a limit.** If nothing hinders the scan, it finds schema files in directories
within the limit, each once, and it finds all of them exactly if every directory within the limit
that holds one is the root or lies right below a directory listed above the limit. All directories
within the limit are visited exactly if the scan catches up below those that it lists too late, and
then everything is found. Where everything is found, a smaller limit finds no more. There is nothing
to catch up with if no directory that the limit leads to is nearer, as with the limit zero. -/
theorem depth_limited_scan (t : FileTree) (extension : String) (root : Path) (limit : Nat)
    (hunhindered : ∀ p ∈ t.scanPaths (.bounded extension limit) root, t.Unhindered p) :
    ((t.sourcesBelow (.bounded extension limit) root).map t.placed).Nodup ∧
    (∀ x ∈ (t.sourcesBelow (.bounded extension limit) root).map t.placed, ∃ loc name,
      t.Within root limit loc ∧ t.HoldsSource extension loc name ∧ x = (.ok loc, name)) ∧
    (t.FindsAll extension root limit ↔
      ∀ loc name, t.Within root limit loc → t.HoldsSource extension loc name →
        t.Reached root 0 loc ∨
          ∃ v ∈ t.visits (.bounded extension limit) root, v.depth < limit ∧
            t.Below v.location loc) ∧
    ((∀ loc, (∃ v ∈ t.visits (.bounded extension limit) root, v.location = loc) ↔
        t.Within root limit loc) ↔
      t.CatchesUp extension root limit) ∧
    (t.CatchesUp extension root limit → t.FindsAll extension root limit) ∧
    (t.FindsAll extension root limit → ∀ smaller ≤ limit,
      (t.sourcesBelow (.bounded extension smaller) root).map t.placed ⊆
        (t.sourcesBelow (.bounded extension limit) root).map t.placed) ∧
    ((∀ loc, t.Reached root limit loc → ∀ steps < limit, ¬ t.Reached root steps loc) →
      t.CatchesUp extension root limit) := by
  refine ⟨nodup_map_placed_sourcesBelow t _ root, fun x => exists_within_of_mem_map_placed, ?_,
    visits_eq_within_iff hunhindered, fun hcatches => ?_, fun hfinds smaller hsmaller x hx => ?_,
    fun hnearest v hv hlate => absurd hlate (not_listedLate_of_nearest hnearest hv)⟩
  · simp only [findsAll_iff hunhindered, exists_visit_bounded_iff hunhindered]
  · refine (findsAll_iff hunhindered).2 fun loc name hwithin _ => ?_
    exact ((visits_eq_within_iff hunhindered).2 hcatches loc).2 hwithin
  · obtain ⟨loc, name, ⟨steps, hsteps, hreached⟩, hholds, rfl⟩ :=
      exists_within_of_mem_map_placed hx
    exact (hfinds _).2 ⟨loc, name, ⟨steps, Nat.le_trans hsteps hsmaller, hreached⟩, hholds, rfl⟩

end

/-! ### A way round through a link -/

/-- A file in a directory two steps below the root, and a way round by three steps and a link to the
directory above it, which a scan comes by first. -/
def roundabout : FileTree where
  nodes := [(["a"], .directory), (["a", "x"], .directory), (["a", "x", "l"], .link "/b"),
    (["b"], .directory), (["b", "c"], .directory), (["b", "c", "f.y"], .file [])]
  workingDirectory := []

theorem visits_roundabout :
    roundabout.visits (.bounded ".y" 2) (.ofText ".") =
      [⟨.ofText ".", 0, []⟩, ⟨.ofText "a", 1, ["a"]⟩, ⟨.ofText "a/x", 2, ["a", "x"]⟩,
        ⟨.ofText "b", 1, ["b"]⟩, ⟨.ofText "b/c", 2, ["b", "c"]⟩] ∧
    roundabout.visits (.bounded ".y" 3) (.ofText ".") =
      [⟨.ofText ".", 0, []⟩, ⟨.ofText "a", 1, ["a"]⟩, ⟨.ofText "a/x", 2, ["a", "x"]⟩,
        ⟨.ofText "a/x/l", 3, ["b"]⟩] := by
  constructor
  · cbv
  · cbv

/-- With the limit two the file is found, and with the limit three nothing is. -/
theorem pairs_roundabout :
    (roundabout.sourcesBelow (.bounded ".y" 2) (.ofText ".")).map roundabout.placed =
      [(.ok ["b", "c"], "f.y")] ∧
    (roundabout.sourcesBelow (.bounded ".y" 3) (.ofText ".")).map roundabout.placed = [] := by
  rw [sourcesBelow_eq_flatMap, sourcesBelow_eq_flatMap, visits_roundabout.1, visits_roundabout.2]
  constructor
  · cbv
  · cbv

theorem unhindered_roundabout :
    (∀ p ∈ roundabout.scanPaths (.bounded ".y" 2) (.ofText "."), roundabout.Unhindered p) ∧
    (∀ p ∈ roundabout.scanPaths (.bounded ".y" 3) (.ofText "."), roundabout.Unhindered p) := by
  have htwo : roundabout.scanPaths (.bounded ".y" 2) (.ofText ".") =
      [".", "a", "b", "a/x", "a/x/l", "b/c", "b/c/f.y"].map Path.ofText := by
    rw [scanPaths, visits_roundabout.1]
    cbv
  have hthree : roundabout.scanPaths (.bounded ".y" 3) (.ofText ".") =
      [".", "a", "b", "a/x", "a/x/l", "a/x/l/c"].map Path.ofText := by
    rw [scanPaths, visits_roundabout.2]
    cbv
  rw [htwo, hthree]
  constructor
  · refine fun p => unhindered_of_map_resolve
      [[], ["a"], ["b"], ["a", "x"], ["b"], ["b", "c"], ["b", "c", "f.y"]] ?_
    cbv
  · refine fun p => unhindered_of_map_resolve [[], ["a"], ["b"], ["a", "x"], ["b"], ["b", "c"]] ?_
    cbv

/-- Nothing hinders the scan, and two steps lead to the directory of the file; yet with the limit
three the file is not found, although it is with the limit two. -/
theorem file_lost_roundabout :
    (∀ p ∈ roundabout.scanPaths (.bounded ".y" 3) (.ofText "."), roundabout.Unhindered p) ∧
    roundabout.Within (.ofText ".") 3 ["b", "c"] ∧
    roundabout.HoldsSource ".y" ["b", "c"] "f.y" ∧
    ¬ roundabout.FindsAll ".y" (.ofText ".") 3 ∧
    ¬ (roundabout.sourcesBelow (.bounded ".y" 2) (.ofText ".")).map roundabout.placed ⊆
      (roundabout.sourcesBelow (.bounded ".y" 3) (.ofText ".")).map roundabout.placed := by
  have hfound : ((.ok ["b", "c"], "f.y") : Except Fault Location × String) ∈
      (roundabout.sourcesBelow (.bounded ".y" 2) (.ofText ".")).map roundabout.placed := by
    rw [pairs_roundabout.1]
    exact List.mem_singleton_self _
  obtain ⟨loc, name, ⟨steps, hsteps, hreached⟩, hholds, heq⟩ := exists_within_of_mem_map_placed hfound
  obtain ⟨hloc, rfl⟩ := Prod.mk.inj heq
  obtain rfl := Except.ok.inj hloc
  have hwithin : roundabout.Within (.ofText ".") 3 ["b", "c"] :=
    ⟨steps, Nat.le_trans hsteps (by decide), hreached⟩
  refine ⟨unhindered_roundabout.2, hwithin, hholds, fun hfinds => ?_,
    fun hsub => ?_⟩
  · have hmem := (hfinds _).2 ⟨_, _, hwithin, hholds, rfl⟩
    rw [pairs_roundabout.2] at hmem
    cases hmem
  · have hmem := hsub hfound
    rw [pairs_roundabout.2] at hmem
    cases hmem

/-- With the limit two the scan lists the directory with the link at the limit, but no fewer steps
lead to it, and everything is found. -/
theorem depth_limited_scan_roundabout :
    (∀ p ∈ roundabout.scanPaths (.bounded ".y" 2) (.ofText "."), roundabout.Unhindered p) ∧
    roundabout.CatchesUp ".y" (.ofText ".") 2 ∧ roundabout.FindsAll ".y" (.ofText ".") 2 := by
  have hunhindered : ∀ p ∈ roundabout.scanPaths (.bounded ".y" 2) (.ofText "."),
      roundabout.Unhindered p := unhindered_roundabout.1
  obtain ⟨-, -, -, -, hfinds, -, -⟩ := depth_limited_scan roundabout ".y" (.ofText ".") 2 hunhindered
  have hcatches : roundabout.CatchesUp ".y" (.ofText ".") 2 := by
    rintro v hv ⟨hdepth, -⟩ sub ⟨name, hname, hleads, hnode⟩
    have hresolve := hunhindered _ (child_mem_scanPaths hv hname) sub
      ((leads_child_iff (reached_of_mem_visits hv).1 name).2 hleads)
    simp only [visits_roundabout.1, List.mem_cons, List.not_mem_nil, or_false] at hv ⊢
    -- of the two directories at the limit one holds the link, the other one the file
    rcases hv with rfl | rfl | rfl | rfl | rfl
    · cases hdepth
    · cases hdepth
    · obtain rfl : name = "l" := by
        rwa [show roundabout.entries ["a", "x"] = ["l"] by cbv, List.mem_singleton] at hname
      have hb : roundabout.resolve ((Path.ofText "a/x").child "l") = .ok ["b"] := by cbv
      rw [hb] at hresolve
      exact ⟨_, Or.inr (Or.inr (Or.inr (Or.inl rfl))), Except.ok.inj hresolve⟩
    · cases hdepth
    · obtain rfl : name = "f.y" := by
        rwa [show roundabout.entries ["b", "c"] = ["f.y"] by cbv, List.mem_singleton] at hname
      have hf : roundabout.resolve ((Path.ofText "b/c").child "f.y") = .ok ["b", "c", "f.y"] := by
        cbv
      rw [hf] at hresolve
      rw [← Except.ok.inj hresolve] at hnode
      exact absurd hnode (by decide)
  exact ⟨hunhindered, hcatches, hfinds hcatches⟩

end FileTree

end SchemaAssembly
