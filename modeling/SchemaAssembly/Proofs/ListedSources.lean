import SchemaAssembly.Proofs.Listings
import SchemaAssembly.Proofs.RealPaths
import SchemaAssembly.Proofs.Words

/-!
# The sources in a listing

A listing made at the working directory shows a source relative to it if its real location lies
there, and spelled as it was given otherwise. Either text, followed from the working directory, is to
lead where the source leads, through whatever links and `..` that goes.

- `realFollow_working_join`: following a path from the working directory is following the path;
- `exists_sourceBelow`: which paths are shown;
- `Nameable.exists_listedSource`: what is shown leads where the source leads. Texts show backslashes
  as slashes, so there must be none in what is shown, and a link can lead to one although the source
  has none: `backslashed` is such a tree.
-/

namespace SchemaAssembly

namespace Path

/-- A character of a path's text stands in one of its names, unless it is a slash or a dot. -/
theorem not_mem_text {c : Char} (hslash : c ≠ '/') (hdot : c ≠ '.') {p : Path}
    (h : ∀ name ∈ p.names, c ∉ name.toList) : c ∉ p.text.toList := by
  have hanchor : c ∉ p.anchor.text.toList := by
    cases p.anchor <;> simp [Anchor.text, hslash]
  have hnames : c ∉ ("/".intercalate p.names).toList := by
    rcases hnames : p.names with _ | ⟨name, names⟩
    · simp
    rw [hnames] at h
    rw [Text.toList_intercalate_cons, List.mem_append, List.mem_flatMap]
    rintro (hname | ⟨other, hother, hmem⟩)
    · exact h name List.mem_cons_self hname
    · rcases List.mem_append.1 hmem with hmem | hmem
      · exact hslash (by simpa using hmem)
      · exact h other (List.mem_cons_of_mem _ hother) hmem
  rw [text]
  split
  · simpa using hdot
  · rw [String.toList_append, List.mem_append, not_or]
    exact ⟨hanchor, hnames⟩

/-- A path without backslashes is shown as it is. -/
theorem slashed_eq_text {p : Path} (h : ∀ name ∈ p.names, '\\' ∉ name.toList) :
    p.slashed = p.text := by
  rw [slashed, ← String.toList_inj, String.toList_map]
  refine (List.map_congr_left fun c hc => if_neg ?_).trans (List.map_id' _)
  rintro rfl
  exact not_mem_text (by decide) (by decide) h hc

end Path

namespace FileTree

/-- The working directory as a path. -/
def workingPath (t : FileTree) : Path :=
  ⟨.root, t.workingDirectory⟩

/-- **Loopless paths**: no link on the way leads back into itself. -/
def Loopless (t : FileTree) (p : Path) : Prop :=
  (t.realFollow [] (t.start p) p.names).2 = true

/-- **Sources that a listing can name**: those that do not run into a loop and show no backslash,
neither in their own names nor in those that lead to them from the working directory. -/
structure Nameable (t : FileTree) (source : Path) : Prop where
  /-- the path has been read -/
  wellFormed : source.WellFormed
  /-- no link leads back into itself -/
  loopless : t.Loopless source
  /-- no backslash in the path -/
  plain : ∀ name ∈ source.names, '\\' ∉ name.toList
  /-- no backslash in the way down to the source, if it lies below the working directory -/
  plain_below : ∀ names, t.realPath source = t.workingDirectory ++ names →
    ∀ name ∈ names, '\\' ∉ name.toList

section

variable {t : FileTree} {source p : Path} {names : List String}

/-- Following a path from the working directory is following the path. -/
theorem realFollow_working_join (hworking : t.SpelledOut t.workingDirectory) (p : Path) :
    t.realFollow [] (t.start (t.workingPath.join p)) (t.workingPath.join p).names =
      t.realFollow [] (t.start p) p.names := by
  by_cases habsolute : p.isAbsolute = true
  · rw [Path.join_of_isAbsolute habsolute]
  · have hstart : t.start p = t.workingDirectory := if_neg habsolute
    rw [Path.join, if_neg habsolute, hstart]
    exact @SpelledOut.realFollow_append t [] [] t.workingDirectory p.names hworking

/-- The real location of a loopless path is spelled out. -/
theorem Loopless.realFollow_eq (h : t.Loopless p) :
    t.realFollow [] (t.start p) p.names = (t.realPath p, true) :=
  Prod.ext rfl h

theorem Loopless.spelledOut (hworking : t.SpelledOut t.workingDirectory) (hp : p.WellFormed)
    (h : t.Loopless p) : t.SpelledOut (t.realPath p) := by
  refine SpelledOut.of_realFollow hp ?_ h.realFollow_eq
  rw [start]
  split
  · exact t.spelledOut_nil
  · exact hworking

/-- A real location that is spelled out is one for a listing. -/
theorem realLocation_eq_ok (h : t.SpelledOut (t.realPath p)) :
    t.realLocation p = .ok (t.realPath p) := by
  have hresolve : t.resolve ⟨.root, t.realPath p⟩ ≠ .error .tooManyLinks := by
    rw [resolve, resolveAs]
    split
    · split
      · simp
      · exact @SpelledOut.follow_ne_tooManyLinks t [] _ _ h
    · simp
  rw [realLocation]
  split
  · exact absurd ‹_› hresolve
  · rfl

/-- No name on the way down from the working directory holds a slash. -/
theorem Loopless.slash_not_mem (hp : p.WellFormed) (h : t.Loopless p)
    (hbelow : t.realPath p = t.workingDirectory ++ names) : ∀ name ∈ names, '/' ∉ name.toList := by
  have hdrop : ∀ name ∈ (t.realPath p).drop t.workingDirectory.length, '/' ∉ name.toList := by
    refine realFollow_induction (P := fun loc =>
      ∀ name ∈ loc.drop t.workingDirectory.length, '/' ∉ name.toList) ?_ ?_ ?_ hp ?_ h.realFollow_eq
    · simp
    · exact fun loc hloc name hname =>
        hloc name (((List.dropLast_sublist loc).drop _).subset hname)
    · intro loc name hloc _ _ _ hslash _ other hother
      rw [List.drop_append, List.mem_append] at hother
      rcases hother with hother | hother
      · exact hloc other hother
      · rwa [List.mem_singleton.1 (List.mem_of_mem_drop hother)]
    · rw [start]
      split
      · simp
      · simp
  rwa [hbelow, List.drop_left] at hdrop

/-- The working directory is its own real location. -/
theorem realPath_workingPath (hworking : t.SpelledOut t.workingDirectory) :
    t.realPath t.workingPath = t.workingDirectory :=
  congrArg Prod.fst (@SpelledOut.realFollow_eq t [] [] t.workingDirectory hworking)

/-- A source is shown as the way down to it from the working directory if there is one. -/
theorem sourceBelow_workingPath (hworking : t.SpelledOut t.workingDirectory)
    (hsource : t.SpelledOut (t.realPath source)) (husable : source.isUsable = true)
    (hworkingUsable : t.workingPath.isUsable = true) :
    t.sourceBelow (some t.workingPath) source =
      .ok ((Location.below? t.workingDirectory (t.realPath source)).getD source) := by
  have hlocation : t.realLocation t.workingPath = .ok t.workingDirectory := by
    have hbase := realPath_workingPath hworking
    rw [realLocation_eq_ok (hbase ▸ hworking), hbase]
  simp only [sourceBelow, husable, hworkingUsable, realLocation_eq_ok hsource, hlocation]
  rfl

/-- **What is shown**: the source as it is spelled, or the way down to it from the working
directory. -/
theorem exists_sourceBelow (hworking : t.SpelledOut t.workingDirectory)
    (hsource : t.SpelledOut (t.realPath source)) :
    ∃ shown, t.sourceBelow (some t.workingPath) source = .ok shown ∧
      (shown = source ∨ ∃ names, t.realPath source = t.workingDirectory ++ names ∧
        shown = ⟨.here, names⟩) := by
  by_cases husable : source.isUsable = true
  · by_cases hworkingUsable : t.workingPath.isUsable = true
    · refine ⟨_, sourceBelow_workingPath hworking hsource husable hworkingUsable, ?_⟩
      rw [Location.below?]
      split
      · obtain ⟨names, hnames⟩ := List.isPrefixOf_iff_prefix.1 ‹_›
        refine Or.inr ⟨names, hnames.symm, ?_⟩
        rw [← hnames, List.drop_left, Option.getD_some]
      · exact Or.inl rfl
    · refine ⟨source, ?_, Or.inl rfl⟩
      simp only [sourceBelow, husable, hworkingUsable, realLocation_eq_ok hsource]
      rfl
  · refine ⟨source, ?_, Or.inl rfl⟩
    simp only [sourceBelow, husable]
    rfl

/-- **What is shown leads where the source leads.** -/
theorem Nameable.exists_listedSource (hworking : t.SpelledOut t.workingDirectory)
    (h : t.Nameable source) :
    ∃ shown, t.listedSource (some t.workingPath) source = .ok shown ∧
      t.Loopless (t.workingPath.join (.ofText shown)) ∧
      t.realPath (t.workingPath.join (.ofText shown)) = t.realPath source := by
  have hsource : t.SpelledOut (t.realPath source) := h.loopless.spelledOut hworking h.wellFormed
  obtain ⟨shown, hshown, hcases⟩ := exists_sourceBelow hworking hsource
  -- the path that is shown is followed like the source
  have hfollow : shown.WellFormed ∧ (∀ name ∈ shown.names, '\\' ∉ name.toList) ∧
      t.realFollow [] (t.start shown) shown.names = (t.realPath source, true) := by
    rcases hcases with rfl | ⟨names, hnames, rfl⟩
    · exact ⟨h.wellFormed, h.plain, h.loopless.realFollow_eq⟩
    · rw [hnames] at hsource ⊢
      refine ⟨fun name hname => ?_, h.plain_below names hnames, hsource.realFollow_eq⟩
      obtain ⟨front, back, rfl⟩ := List.append_of_mem hname
      obtain ⟨hempty, hdot, -⟩ := hsource (t.workingDirectory ++ front) name ⟨back, by simp⟩
      exact ⟨hempty, hdot, h.loopless.slash_not_mem h.wellFormed hnames name hname⟩
  obtain ⟨hwellFormed, hplain, hfollow⟩ := hfollow
  refine ⟨shown.text, ?_, ?_⟩
  · rw [listedSource, hshown, ← Path.slashed_eq_text hplain]
    rfl
  · rw [Path.ofText_text hwellFormed, Loopless, realPath, realFollow_working_join hworking, hfollow]
    exact ⟨rfl, rfl⟩

end

end FileTree

namespace SchemaModel

/-- **Sources in a listing.** If a listing can name all sources of a model, it is made, whatever the
tested names and the indentation are. Read again, it shows for each source a text that leads from the
working directory where the source leads. -/
theorem listed_sources_lead (m : SchemaModel) (t : FileTree) (tested : List String) (indent : Int)
    (hworking : t.Settled t.workingDirectory)
    (hsources : ∀ u ∈ m.units, ∀ source, u.source = some source → t.Nameable source) :
    ∃ text shown, m.listingReport t tested (some t.workingPath) indent = .ok text ∧
      JsonValue.read text = some (.object
        [("units", .list (m.units.map fun u =>
          u.entry (u.source.map shown) (tested.contains u.name || u.tested))),
         ("tested", .ofTexts ((sortedSet tested).filter m.contains))]) ∧
      ∀ u ∈ m.units, ∀ source, u.source = some source →
        t.Loopless (t.workingPath.join (.ofText (shown source))) ∧
        t.realPath (t.workingPath.join (.ofText (shown source))) = t.realPath source := by
  let shown : Path → String := fun source =>
    ((t.listedSource (some t.workingPath) source).toOption).getD ""
  have hshown : ∀ u ∈ m.units, ∀ source, u.source = some source →
      t.listedSource (some t.workingPath) source = .ok (shown source) ∧
        t.Loopless (t.workingPath.join (.ofText (shown source))) ∧
        t.realPath (t.workingPath.join (.ofText (shown source))) = t.realPath source := by
    intro u hu source husource
    obtain ⟨text, htext, hleads⟩ := (hsources u hu source husource).exists_listedSource
      hworking.spelledOut
    have heq : shown source = text := by simp only [shown, htext]; rfl
    rw [heq]
    exact ⟨htext, hleads⟩
  have hlisting := @listing_eq_ok m t tested (some t.workingPath) (fun u => u.source.map shown)
    fun u hu => by
      rcases husource : u.source with _ | source
      · rfl
      · rw [Option.mapM_some, (hshown u hu source husource).1]
        rfl
  refine ⟨_, shown, ?_, JsonValue.read_write indent _, fun u hu source husource =>
    (hshown u hu source husource).2⟩
  rw [listingReport, hlisting]
  rfl

end SchemaModel

/-! ### Trees with links across the working directory -/

namespace FileTree

/-- A path that the system gets somewhere by can be named if there are no backslashes. -/
theorem nameable_of_resolve {t : FileTree} {p : Path} {loc : Location} (hp : p.WellFormed)
    (hresolve : t.resolve p = .ok loc) (hplain : ∀ name ∈ p.names ++ loc, '\\' ∉ name.toList) :
    t.Nameable p where
  wellFormed := hp
  loopless := congrArg Prod.snd (realFollow_of_resolve hp.tidy hresolve)
  plain := fun name hname => hplain name (List.mem_append_left _ hname)
  plain_below := by
    intro names hnames name hname
    rw [← realPath_of_resolve hp.tidy hresolve, hnames] at hplain
    exact hplain name (by simp [hname])

/-- A working directory with a link out of it, and next to it a directory with a link back. -/
def crossroads : FileTree where
  nodes := [(["o"], .directory), (["o", "back"], .link "/w"), (["o", "m.y"], .file []),
    (["w"], .directory), (["w", "k.y"], .file []), (["w", "out"], .link "../o")]
  workingDirectory := ["w"]

/-- Units with sources that lead into the working directory and out of it. -/
def crossingUnits : SchemaModel where
  units :=
    [{ name := "k", source := some (.ofText "out/back/k.y") },
     { name := "l", source := some (.ofText "/o/back/../o/m.y") },
     { name := "m", source := some (.ofText "out/m.y") }]
  ordered := by decide

theorem settled_crossroads : crossroads.Settled crossroads.workingDirectory := by
  refine ⟨fun front hfront => ?_, by decide⟩
  rcases List.prefix_cons_iff.1 hfront with rfl | ⟨rest, rfl, hrest⟩
  · exact node?_nil crossroads
  · obtain rfl := List.prefix_nil.1 hrest
    decide

/-- Followed from the working directory, what is shown for the units leads to the two files. -/
theorem listed_sources_lead_crossroads :
    crossroads.Settled crossroads.workingDirectory ∧
    (∀ u ∈ crossingUnits.units, ∀ source, u.source = some source → crossroads.Nameable source) ∧
    ∃ (text : String) (shown : Path → String),
      crossingUnits.listingReport crossroads ["m"] (some crossroads.workingPath) = .ok text ∧
      ([Path.ofText "out/back/k.y", .ofText "/o/back/../o/m.y", .ofText "out/m.y"].map fun source =>
          crossroads.realPath (crossroads.workingPath.join (.ofText (shown source)))) =
        [["w", "k.y"], ["o", "m.y"], ["o", "m.y"]] := by
  have hk : crossroads.resolve (.ofText "out/back/k.y") = .ok ["w", "k.y"] := by cbv
  have hl : crossroads.resolve (.ofText "/o/back/../o/m.y") = .ok ["o", "m.y"] := by cbv
  have hm : crossroads.resolve (.ofText "out/m.y") = .ok ["o", "m.y"] := by cbv
  have hsources : ∀ u ∈ crossingUnits.units, ∀ source, u.source = some source →
      crossroads.Nameable source := by
    simp only [crossingUnits, List.forall_mem_cons, Option.some.injEq, forall_eq', List.not_mem_nil,
      false_imp_iff, implies_true, and_true]
    exact ⟨nameable_of_resolve (Path.wellFormed_ofText _) hk (by decide),
      nameable_of_resolve (Path.wellFormed_ofText _) hl (by decide),
      nameable_of_resolve (Path.wellFormed_ofText _) hm (by decide)⟩
  obtain ⟨text, shown, htext, -, hlead⟩ := crossingUnits.listed_sources_lead crossroads ["m"] 2
    settled_crossroads hsources
  simp only [crossingUnits, List.forall_mem_cons, Option.some.injEq, forall_eq', List.not_mem_nil,
    false_imp_iff, implies_true, and_true] at hlead
  obtain ⟨⟨-, hlead⟩, ⟨-, hlead'⟩, -, hlead''⟩ := hlead
  refine ⟨settled_crossroads, hsources, text, shown, htext, ?_⟩
  rw [List.map_cons, List.map_cons, List.map_singleton, hlead, hlead', hlead'',
    realPath_of_resolve (Path.wellFormed_ofText _).tidy hk,
    realPath_of_resolve (Path.wellFormed_ofText _).tidy hl,
    realPath_of_resolve (Path.wellFormed_ofText _).tidy hm]

/-- A link to a file with a backslash in its name, and another file that has this name with a slash
in place of it. -/
def backslashed : FileTree where
  nodes := [(["a"], .directory), (["a", "b.y"], .file []), (["a\\b.y"], .file []),
    (["l.y"], .link "a\\b.y")]
  workingDirectory := []

/-- The source has no backslash and no link runs into a loop, but what is shown is the path of the
other file. -/
theorem shown_elsewhere_backslashed :
    backslashed.Settled backslashed.workingDirectory ∧
    backslashed.Loopless (.ofText "l.y") ∧ (Path.ofText "l.y").WellFormed ∧
    (∀ name ∈ (Path.ofText "l.y").names, '\\' ∉ name.toList) ∧
    backslashed.listedSource (some backslashed.workingPath) (.ofText "l.y") = .ok "a/b.y" ∧
    backslashed.realPath (backslashed.workingPath.join (.ofText "a/b.y")) ≠
      backslashed.realPath (.ofText "l.y") := by
  have hworking : backslashed.Settled backslashed.workingDirectory := settled_nil backslashed
  have hsource := Path.wellFormed_ofText "l.y"
  have hresolve : backslashed.resolve (.ofText "l.y") = .ok ["a\\b.y"] := by cbv
  have hreal := realPath_of_resolve hsource.tidy hresolve
  have hloopless : backslashed.Loopless (.ofText "l.y") :=
    congrArg Prod.snd (realFollow_of_resolve hsource.tidy hresolve)
  refine ⟨hworking, hloopless, hsource, by decide, ?_, ?_⟩
  · rw [listedSource, sourceBelow_workingPath hworking.spelledOut
      (hloopless.spelledOut hworking.spelledOut hsource) (by decide) (by decide), hreal]
    decide +kernel
  · have hother : backslashed.realPath (.ofText "a/b.y") = ["a", "b.y"] :=
      realPath_of_resolve (Path.wellFormed_ofText "a/b.y").tidy (by cbv)
    rw [realPath, realFollow_working_join hworking.spelledOut, ← realPath, hother, hreal]
    decide

end FileTree

end SchemaAssembly
