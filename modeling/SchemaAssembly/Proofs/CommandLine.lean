import Mathlib
import SchemaAssembly.CommandLine.Run
import SchemaAssembly.Proofs.Endings
import SchemaAssembly.Proofs.Handover
import SchemaAssembly.Proofs.Overlays
import SchemaAssembly.Proofs.Writing

/-!
# How a command line ends

What a command line does shows on its standard output and in the file tree. It does all of it or
nothing (`run_all_or_nothing`): if it fails, whatever it fails for, nothing is printed and the tree
is as it was, and if it succeeds there is one report, printed or written.

`Options.Ends` lists the ways in which a command line ends, without running anything: settings that
cannot be loaded or laid over each other, nothing to work on, a request that fails, a report that
cannot be made or written, paths that the system cannot be asked for, and the two ways to succeed. All
this holds for any reader of YAML and for any engine.

- `inChoices_ofArguments`: an option with choices has one of them;
- `settings_eq_ok_iff`: the settings of a command line are those of its file, extended by its own;
- `run_of_ends`, `exists_ends`: each command line ends in exactly one way.
-/

namespace SchemaAssembly

/-! ### Choices -/

/-- **An argument that an option may have**: one of its choices, if it has any, or nothing. -/
def CommandOption.Allows (o : CommandOption) : Argument → Prop
  | .text text => ∀ choices, o.choices = some choices → text ∈ choices
  | .nothing => True

/-- **Options within their choices.** -/
structure Options.InChoices (o : Options) : Prop where
  format : CommandOption.format.Allows o.format
  asciiStyle : CommandOption.asciiStyle.Allows o.asciiStyle
  orientation : CommandOption.orientation.Allows o.orientation

namespace Options

variable {s s' : Options} {o : CommandOption} {arguments : List String}

/-- Every option starts within its choices. -/
theorem inChoices_default : ({} : Options).InChoices := by
  constructor <;> rintro choices ⟨⟩ <;> decide

/-- What an option takes is within its choices, if nothing of it is bad. -/
theorem allows_of_badChoice? (h : badChoice? o arguments = none) :
    o.Allows (.ofList arguments) := by
  cases arguments with
  | nil => trivial
  | cons argument rest =>
    intro choices hchoices
    rw [badChoice?, hchoices, Option.bind_some, Option.map_eq_none_iff, List.find?_eq_none] at h
    simpa using h argument List.mem_cons_self

/-- **An option keeps others within their choices**, and its own argument is. -/
theorem InChoices.apply (h : s.InChoices) (happly : s.apply o arguments = .ok s') :
    s'.InChoices := by
  obtain ⟨hformat, hstyle, horientation⟩ := h
  rw [Options.apply] at happly
  dsimp only at happly
  split at happly
  · cases happly
  · rename_i hgood
    have hallows := allows_of_badChoice? hgood
    cases o <;> cases happly <;> constructor <;> assumption

end Options

/-- So do the options of one word, one after the other. -/
theorem Reading.inChoices_addTaken {s s' : Reading} {taken : Taken} (h : s.options.InChoices)
    (hadd : s.addTaken taken = .ok s') : s'.options.InChoices := by
  rw [addTaken] at hadd
  obtain ⟨options, hfolded, hread⟩ := exists_of_bind_eq_ok hadd
  cases hread
  exact of_foldlM_eq_ok (fun _ _ _ hoptions happly => hoptions.apply happly) h hfolded

/-- A row of files changes no option. -/
theorem Reading.inChoices_addRow {s : Reading} (h : s.options.InChoices) (row : List Word) :
    (s.addRow row).options.InChoices := by
  rw [addRow]
  split
  · exact h
  · exact ⟨h.format, h.asciiStyle, h.orientation⟩

/-- **Reading words** keeps options within their choices. -/
theorem Reading.inChoices_readWords {s s' : Reading} {words : List Word}
    (h : s.options.InChoices) (hread : s.readWords words = .ok s') : s'.options.InChoices := by
  fun_induction readWords s words with
  | case1 s =>
    cases hread
    exact h
  | case2 | case3 => cases hread
  | case4 s word rest operands taken htaken next hadd ih =>
    exact ih (inChoices_addTaken h hadd) hread
  | case5 s w rest hoption ih => exact ih (inChoices_addRow h _) hread

/-- **Options that are accepted** are within their choices. -/
theorem Options.inChoices_ofArguments {arguments : List String} {o : Options}
    (h : ofArguments arguments = .ok o) : o.InChoices := by
  rw [ofArguments] at h
  split at h
  · cases h
  · split at h
    · cases h
    · rename_i hread
      split at h
      · cases h
        exact Reading.inChoices_readWords inChoices_default hread
      · cases h

/-! ### Settings -/

/-- **A settings file that the system cannot be asked for** is not loaded. -/
theorem Settings.load_eq_unusable_iff {yaml : YamlReader} {t : FileTree} {path origin : Path} :
    load yaml t path = .error (.unusable origin) ↔ origin = path ∧ path.isUsable = false := by
  rw [← @FileTree.readText_eq_unusable_iff t, load]
  cases htext : t.readText path with
  | error failure =>
    dsimp only [Except.mapError, bind, Except.bind]
    cases failure with
    | undecodable e => simp [ReadFailure.settingsFailure]
    | fault fault => cases fault <;> simp [ReadFailure.settingsFailure, eq_comm]
  | ok text =>
    refine iff_of_false (fun h => ?_) (by simp)
    dsimp only [Except.mapError, bind, Except.bind] at h
    split at h
    · cases h
    · cases h
    · rename_i value _
      cases value with
      | map entries =>
        rw [ofLoaded] at h
        cases hcheck : check (some path.parent) (.map entries) with
        | ok s =>
          rw [hcheck] at h
          cases h
        | error complaints =>
          rw [hcheck] at h
          cases h
      | _ => cases h

namespace Options

variable {o : Options} {yaml : YamlReader} {t : FileTree} {s base : Settings}

/-- **The settings that a command line starts from**: those of the file it names, or none. -/
inductive StartsFrom (o : Options) (yaml : YamlReader) (t : FileTree) : Settings → Prop
  /-- it names no file -/
  | scratch : o.config.bind (·.given?) = none → StartsFrom o yaml t {}
  /-- it names a file, which is loaded -/
  | file {path : String} {base : Settings} : o.config.bind (·.given?) = some path →
    Settings.load yaml t (.ofText path) = .ok base → StartsFrom o yaml t base

theorem StartsFrom.reachable (h : o.StartsFrom yaml t base) : base.Reachable := by
  cases h with
  | scratch => exact .default
  | file _ hload => exact .loaded hload

/-- The settings that a command line itself says, given its library roots. -/
def own (o : Options) (libraries : List String) : Settings where
  libraries := libraries
  tests := o.files
  features := o.features
  recursive := o.recursive
  useAllFiles := o.parseAll
  strictExtensions := o.strictExtensions
  requireTestedMatch := o.requireTested

/-- Arguments that are texts as settings are texts. -/
theorem eq_map_text_of_map_settingOf {path : List Argument} {libraries : List String}
    (h : path.map settingOf = libraries.map .text) : path = libraries.map .text := by
  induction path generalizing libraries with
  | nil =>
    obtain rfl := List.map_eq_nil_iff.1 h.symm
    rfl
  | cons argument rest ih =>
    obtain ⟨text, libraries, rfl, htext, hrest⟩ := List.map_eq_cons_iff.1 h.symm
    rw [List.map_cons, ← ih hrest.symm]
    cases argument <;> cases htext
    rfl

/-- If all library roots are texts, that is what is laid over other settings. -/
theorem adds_overlay {libraries : List String} (h : o.path = libraries.map .text) :
    o.overlay.Adds (o.own libraries) where
  libraries := by
    change o.path.map settingOf = _
    rw [h, List.map_map]
    rfl
  tests := rfl
  features := rfl
  known := by simp [overlay, Settings.flagNames]
  recursive := by simp [Overlay.turnsOn, overlay, own]
  useAllFiles := by simp [Overlay.turnsOn, overlay, own]
  strictExtensions := by simp [Overlay.turnsOn, overlay, own]
  requireTestedMatch := by simp [Overlay.turnsOn, overlay, own]

/-- **The settings of a command line**: those it starts from, extended by its own. Its library roots
are texts, and its features identifiers. -/
def Merges (o : Options) (yaml : YamlReader) (t : FileTree) (s : Settings) : Prop :=
  ∃ base libraries, o.StartsFrom yaml t base ∧ o.path = libraries.map .text ∧
    FeatureSet.firstInvalid? o.features = none ∧ s = base.extended (o.own libraries)

/-- What is laid over other settings succeeds with them extended. -/
theorem merged_overlay_eq_ok_iff (hbase : base.Reachable) :
    base.merged o.overlay = .ok s ↔
      ∃ libraries, o.path = libraries.map .text ∧ FeatureSet.firstInvalid? o.features = none ∧
        s = base.extended (o.own libraries) := by
  constructor
  · intro h
    obtain ⟨more, hadds, -, -⟩ := Settings.exists_adds_of_merged h
    have hpath : o.path = more.libraries.map .text := eq_map_text_of_map_settingOf hadds.libraries
    refine ⟨more.libraries, hpath, ?_⟩
    have hmerged := hbase.merged_of_adds (adds_overlay hpath)
    rw [h] at hmerged
    cases hvalid : FeatureSet.firstInvalid? (o.own more.libraries).features with
    | none =>
      rw [hvalid] at hmerged
      exact ⟨hvalid, Except.ok.inj hmerged⟩
    | some e =>
      rw [hvalid] at hmerged
      cases hmerged
  · rintro ⟨libraries, hpath, hvalid, rfl⟩
    have hown : FeatureSet.firstInvalid? (o.own libraries).features = none := hvalid
    rw [hbase.merged_of_adds (adds_overlay hpath), hown]

/-- Once there are settings to start from, it remains to lay those of the command line over them. -/
theorem settings_of_startsFrom (h : o.StartsFrom yaml t base) :
    o.settings yaml t = (base.merged o.overlay).mapError overlayFailure := by
  rcases h with hscratch | ⟨hfile, hload⟩
  · rw [settings, hscratch]
    rfl
  · rw [settings, hfile]
    dsimp only
    rw [hload]
    rfl

/-- If the file cannot be loaded, there are no settings. -/
theorem settings_of_unloaded {path : String} {failure : SettingsFailure}
    (hfile : o.config.bind (·.given?) = some path)
    (hload : Settings.load yaml t (.ofText path) = .error failure) :
    o.settings yaml t = .error failure := by
  rw [settings, hfile]
  dsimp only
  rw [hload]
  rfl

/-- Either there are settings to start from, or there is a file that cannot be loaded. -/
theorem startsFrom_or_unloaded (o : Options) (yaml : YamlReader) (t : FileTree) :
    (∃ base, o.StartsFrom yaml t base) ∨
      ∃ path failure, o.config.bind (·.given?) = some path ∧
        Settings.load yaml t (.ofText path) = .error failure := by
  cases hconfig : o.config.bind (·.given?) with
  | none => exact Or.inl ⟨{}, .scratch hconfig⟩
  | some path =>
    cases hload : Settings.load yaml t (.ofText path) with
    | ok base => exact Or.inl ⟨base, .file hconfig hload⟩
    | error failure => exact Or.inr ⟨path, failure, rfl, hload⟩

/-- **The settings that come about** are those it starts from, extended by its own. -/
theorem settings_eq_ok_iff : o.settings yaml t = .ok s ↔ o.Merges yaml t s := by
  constructor
  · intro h
    rcases o.startsFrom_or_unloaded yaml t with ⟨base, hbase⟩ | ⟨path, failure, hfile, hload⟩
    · rw [settings_of_startsFrom hbase, mapError_eq_ok_iff] at h
      obtain ⟨libraries, hmerges⟩ := (merged_overlay_eq_ok_iff hbase.reachable).1 h
      exact ⟨base, libraries, hbase, hmerges⟩
    · rw [settings_of_unloaded hfile hload] at h
      cases h
  · rintro ⟨base, libraries, hbase, hmerges⟩
    rw [settings_of_startsFrom hbase, mapError_eq_ok_iff]
    exact (merged_overlay_eq_ok_iff hbase.reachable).2 ⟨libraries, hmerges⟩

/-- They can come about, so their features can be read. -/
theorem Merges.settingsAndFeatures_eq (h : o.Merges yaml t s) :
    o.settingsAndFeatures yaml t = .ok (s, .ofList (FeatureSet.identified s.features)) := by
  have hreachable : s.Reachable := by
    obtain ⟨base, libraries, hbase, hmerges⟩ := h
    exact .merged hbase.reachable
      ((merged_overlay_eq_ok_iff hbase.reachable).2 ⟨libraries, hmerges⟩)
  rw [settingsAndFeatures, settings_eq_ok_iff.2 h]
  simp only [bind, Except.bind, hreachable.featureSet_eq]
  rfl

theorem settingsAndFeatures_of_error {failure : SettingsFailure}
    (h : o.settings yaml t = .error failure) : o.settingsAndFeatures yaml t = .error failure := by
  rw [settingsAndFeatures, h]
  rfl

/-! ### Reports -/

variable {engine : Engine} {r : Request} {a : Assembly} {report : String}

/-- **The request that a command line makes**: by its settings, which name something to work on. -/
def Requests (o : Options) (yaml : YamlReader) (t : FileTree) (r : Request) : Prop :=
  ∃ s, o.Merges yaml t s ∧ ¬ (s.libraries = [] ∧ s.tests = []) ∧
    r = s.request (.ofList (FeatureSet.identified s.features))

/-- **The report that a command line makes** of an assembly, with the names of the tested units. -/
inductive Exports (o : Options) (t : FileTree) (a : Assembly) : String → Prop
  /-- a tree, also if no kind of report is named -/
  | tree : o.format = .text "ascii" ∨ o.format = .nothing →
    Exports o t a (a.model.treeReport a.testedNames (.ofName o.asciiStyle.printed) o.showAll)
  /-- a flowchart -/
  | flowchart : o.format = .text "mermaid" →
    Exports o t a
      (a.model.flowchartReport a.testedNames o.orientation.printed o.groupByRole)
  /-- a listing, with sources relative to the working directory -/
  | listing {report : String} : o.format = .text "json" →
    a.model.listingReport t a.testedNames (some ⟨.root, t.workingDirectory⟩) = .ok report →
    Exports o t a report

theorem report_of_exports (h : o.Exports t a report) : o.report t a = .ok report := by
  cases h with
  | tree hformat => rcases hformat with hformat | hformat <;> rw [Options.report, hformat] <;> rfl
  | flowchart hformat =>
    rw [Options.report, hformat]
    rfl
  | listing hformat hlisting =>
    rw [Options.report, hformat]
    exact hlisting

/-- **There is a report** of one of the three kinds, unless a listing meets a source without a
location. -/
theorem InChoices.exports_or_linkLoop (h : o.InChoices) (t : FileTree) (a : Assembly) :
    (∃ report, o.Exports t a report) ∨
      o.format = .text "json" ∧ ∃ loop,
        a.model.listingReport t a.testedNames (some ⟨.root, t.workingDirectory⟩) = .error loop := by
  have hallows := h.format
  cases hformat : o.format with
  | nothing => exact Or.inl ⟨_, .tree (Or.inr hformat)⟩
  | text kind =>
    rw [hformat] at hallows
    have hkind : kind ∈ ["ascii", "mermaid", "json"] := hallows _ rfl
    simp only [List.mem_cons, List.not_mem_nil, or_false] at hkind
    rcases hkind with rfl | rfl | rfl
    · exact Or.inl ⟨_, .tree (Or.inl hformat)⟩
    · exact Or.inl ⟨_, .flowchart hformat⟩
    · cases hlisting :
          a.model.listingReport t a.testedNames (some ⟨.root, t.workingDirectory⟩) with
      | ok report => exact Or.inl ⟨report, .listing hformat hlisting⟩
      | error loop => exact Or.inr ⟨rfl, loop, rfl⟩

/-! ### The endings -/

/-- What a request reports, as far as the command line asks for it. -/
def log (o : Options) (engine : Engine) (t : FileTree) (r : Request) : List String :=
  Event.log o.severity (r.run engine t).events

/-- **How a command line ends**: with a response, or without one if a scalar is bad, if links are in a
loop, or if the system cannot be asked for a path. -/
inductive Ends (o : Options) (yaml : YamlReader) (engine : Engine) (t : FileTree) :
    Except Breakdown Response → Prop
  /-- a scalar of the settings file is not of its kind -/
  | badScalar {path : String} {origin : Path} {fault : Yaml.ScalarFault} :
    o.config.bind (·.given?) = some path →
    Settings.load yaml t (.ofText path) = .error (.badScalar origin fault) →
    Ends o yaml engine t (.error (.badScalar fault))
  /-- the system cannot be asked for the settings file -/
  | unusableSettings {path : String} : o.config.bind (·.given?) = some path →
    (Path.ofText path).isUsable = false →
    Ends o yaml engine t (.error (.unusable (.ofText path)))
  /-- the settings file cannot be loaded otherwise -/
  | unloaded {path : String} {failure : SettingsFailure} :
    o.config.bind (·.given?) = some path → (Path.ofText path).isUsable = true →
    Settings.load yaml t (.ofText path) = .error failure →
    (∀ origin fault, failure ≠ .badScalar origin fault) →
    Ends o yaml engine t (.ok (failed t [] ("Error: " ++ failure.message)))
  /-- what the command line says cannot be laid over its settings -/
  | unmerged {base : Settings} {failure : OverlayFailure} :
    o.StartsFrom yaml t base → base.merged o.overlay = .error failure →
    Ends o yaml engine t (.ok (failed t [] ("Error: " ++ (overlayFailure failure).message)))
  /-- there is nothing to work on -/
  | noInputs {s : Settings} : o.Merges yaml t s → s.libraries = [] → s.tests = [] →
    Ends o yaml engine t (.ok (failed t [] "Error: no YANG files or library directories given"))
  /-- the request breaks off at a path that the system cannot be asked for -/
  | unusableSource {r : Request} {path : Path} : o.Requests yaml t r →
    (r.run engine t).result = .error (.unusable path) →
    Ends o yaml engine t (.error (.unusable path))
  /-- the request fails, at whatever stage -/
  | unassembled {r : Request} {failure : Failure} : o.Requests yaml t r →
    (r.run engine t).result = .error failure → (∀ path, failure ≠ .unusable path) →
    Ends o yaml engine t (.ok (failed t (o.log engine t r) ("Error: " ++ failure.message)))
  /-- a listing meets a source without a location -/
  | linkLoop {r : Request} {a : Assembly} {loop : LinkLoop} : o.Requests yaml t r →
    (r.run engine t).result = .ok a → o.format = .text "json" →
    a.model.listingReport t a.testedNames (some ⟨.root, t.workingDirectory⟩) = .error loop →
    Ends o yaml engine t (.error (.linkLoop loop))
  /-- the system cannot be asked for the file that the report is to go to -/
  | unusableOutput {r : Request} {a : Assembly} {report file : String} :
    o.Requests yaml t r → (r.run engine t).result = .ok a → o.Exports t a report →
    o.output.bind (·.given?) = some file → (Path.ofText file).isUsable = false →
    Ends o yaml engine t (.error (.unusable (.ofText file)))
  /-- the report cannot be written -/
  | unwritten {r : Request} {a : Assembly} {report file : String} {fault : Fault} :
    o.Requests yaml t r → (r.run engine t).result = .ok a → o.Exports t a report →
    o.output.bind (·.given?) = some file → (Path.ofText file).isUsable = true →
    t.write (.ofText file) (Text.encodeUtf8 report) = .error fault →
    Ends o yaml engine t (.ok (failed t (o.log engine t r)
      ("Error writing output: " ++ fault.message (Path.ofText file).text)))
  /-- the report is written -/
  | written {r : Request} {a : Assembly} {report file : String} {t' : FileTree} :
    o.Requests yaml t r → (r.run engine t).result = .ok a → o.Exports t a report →
    o.output.bind (·.given?) = some file →
    t.write (.ofText file) (Text.encodeUtf8 report) = .ok t' →
    Ends o yaml engine t (.ok
      { exitCode := 0
        stderr := printed (o.log engine t r ++ ["Output written to: " ++ (Path.ofText file).text])
        tree := t' })
  /-- the report is printed -/
  | printed {r : Request} {a : Assembly} {report : String} :
    o.Requests yaml t r → (r.run engine t).result = .ok a → o.Exports t a report →
    o.output.bind (·.given?) = none →
    Ends o yaml engine t (.ok
      { exitCode := 0
        stdout := report ++ "\n"
        stderr := printed (o.log engine t r)
        tree := t })

variable {ending : Except Breakdown Response}

/-- Without settings, the failure decides how the command line ends. -/
theorem run_of_settings_error {failure : SettingsFailure}
    (h : o.settings yaml t = .error failure) :
    o.run yaml engine t =
      match failure with
      | .badScalar _ fault => .error (.badScalar fault)
      | .unusable path => .error (.unusable path)
      | failure => .ok (failed t [] ("Error: " ++ failure.message)) := by
  rw [run, settingsAndFeatures_of_error h]
  cases failure <;> rfl

/-- Once there is a request, its result decides how the command line goes on. -/
theorem run_of_requests (h : o.Requests yaml t r) :
    o.run yaml engine t =
      match (r.run engine t).result with
      | .error (.unusable path) => .error (.unusable path)
      | .error failure => .ok (failed t (o.log engine t r) ("Error: " ++ failure.message))
      | .ok a =>
        match o.report t a with
        | .error loop => .error (.linkLoop loop)
        | .ok report => o.deliver t (o.log engine t r) report := by
  obtain ⟨s, hs, hinputs, rfl⟩ := h
  have hsome : ¬ (s.libraries.isEmpty && s.tests.isEmpty) = true := by
    simpa only [Bool.and_eq_true, List.isEmpty_iff] using hinputs
  rw [run, hs.settingsAndFeatures_eq]
  dsimp only
  rw [if_neg hsome]
  rfl

/-- A report that there is, is delivered. -/
theorem run_of_exports (h : o.Requests yaml t r) (hresult : (r.run engine t).result = .ok a)
    (hreport : o.Exports t a report) :
    o.run yaml engine t = o.deliver t (o.log engine t r) report := by
  rw [run_of_requests h, hresult]
  dsimp only
  rw [report_of_exports hreport]

/-- **A command line that ends in some way runs that way.** -/
theorem run_of_ends (h : o.Ends yaml engine t ending) : o.run yaml engine t = ending := by
  cases h with
  | badScalar hfile hload => rw [run_of_settings_error (settings_of_unloaded hfile hload)]
  | unusableSettings hfile hpath =>
    rw [run_of_settings_error
      (settings_of_unloaded hfile (Settings.load_eq_unusable_iff.2 ⟨rfl, hpath⟩))]
  | @unloaded path failure hfile hpath hload hscalar =>
    rw [run_of_settings_error (settings_of_unloaded hfile hload)]
    cases failure with
    | badScalar origin fault => exact (hscalar origin fault rfl).elim
    | unusable origin =>
      rw [(Settings.load_eq_unusable_iff.1 hload).2] at hpath
      cases hpath
    | _ => rfl
  | @unmerged base failure hbase hfailed =>
    have hsettings : o.settings yaml t = .error (overlayFailure failure) := by
      rw [settings_of_startsFrom hbase, hfailed]
      rfl
    rw [run_of_settings_error hsettings]
    cases failure <;> rfl
  | noInputs hs hlibraries htests =>
    rw [run, hs.settingsAndFeatures_eq]
    dsimp only
    rw [hlibraries, htests]
    rfl
  | unusableSource h hresult => rw [run_of_requests h, hresult]
  | @unassembled r failure h hresult hpath =>
    rw [run_of_requests h, hresult]
    cases failure with
    | unusable path => exact (hpath path rfl).elim
    | _ => rfl
  | linkLoop h hresult hformat hlisting =>
    rw [run_of_requests h, hresult]
    dsimp only
    rw [Options.report, hformat, if_neg (by decide), if_pos rfl, hlisting]
  | unusableOutput h hresult hreport hfile hpath =>
    rw [run_of_exports h hresult hreport, deliver, hfile]
    dsimp only
    rw [FileTree.write_eq_unusable_iff.2 hpath]
  | @unwritten r a report file fault h hresult hreport hfile hpath hwrite =>
    rw [run_of_exports h hresult hreport, deliver, hfile]
    dsimp only
    rw [hwrite]
    cases fault with
    | unusable =>
      rw [FileTree.write_eq_unusable_iff.1 hwrite] at hpath
      cases hpath
    | _ => rfl
  | written h hresult hreport hfile hwrite =>
    rw [run_of_exports h hresult hreport, deliver, hfile]
    dsimp only
    rw [hwrite]
  | printed h hresult hreport hfile =>
    rw [run_of_exports h hresult hreport, deliver, hfile]
    dsimp only
    simp [Options.printed]

/-- **Every command line that is accepted ends in some way.** -/
theorem InChoices.exists_ends (h : o.InChoices) (yaml : YamlReader) (engine : Engine) (t : FileTree) :
    ∃ ending, o.Ends yaml engine t ending := by
  rcases o.startsFrom_or_unloaded yaml t with ⟨base, hbase⟩ | ⟨path, failure, hfile, hload⟩
  rotate_left
  · cases hpath : (Path.ofText path).isUsable with
    | false => exact ⟨_, .unusableSettings hfile hpath⟩
    | true =>
      cases failure with
      | badScalar origin fault => exact ⟨_, .badScalar hfile hload⟩
      | _ => exact ⟨_, .unloaded hfile hpath hload (by simp)⟩
  cases hmerged : base.merged o.overlay with
  | error failure => exact ⟨_, .unmerged hbase hmerged⟩
  | ok s =>
    obtain ⟨libraries, hmerges⟩ := (merged_overlay_eq_ok_iff hbase.reachable).1 hmerged
    have hs : o.Merges yaml t s := ⟨base, libraries, hbase, hmerges⟩
    by_cases hinputs : s.libraries = [] ∧ s.tests = []
    · exact ⟨_, .noInputs hs hinputs.1 hinputs.2⟩
    obtain ⟨r, hrequests⟩ : ∃ r, o.Requests yaml t r := ⟨_, s, hs, hinputs, rfl⟩
    cases hresult : (r.run engine t).result with
    | error failure =>
      cases failure with
      | unusable path => exact ⟨_, .unusableSource hrequests hresult⟩
      | _ => exact ⟨_, .unassembled hrequests hresult (by simp)⟩
    | ok a =>
      rcases h.exports_or_linkLoop t a with ⟨report, hreport⟩ | ⟨hformat, loop, hlisting⟩
      rotate_left
      · exact ⟨_, .linkLoop hrequests hresult hformat hlisting⟩
      cases hfile : o.output.bind (·.given?) with
      | none => exact ⟨_, .printed hrequests hresult hreport hfile⟩
      | some file =>
        cases hwrite : t.write (.ofText file) (Text.encodeUtf8 report) with
        | error fault =>
          cases hpath : (Path.ofText file).isUsable with
          | true => exact ⟨_, .unwritten hrequests hresult hreport hfile hpath hwrite⟩
          | false => exact ⟨_, .unusableOutput hrequests hresult hreport hfile hpath⟩
        | ok t' => exact ⟨_, .written hrequests hresult hreport hfile hwrite⟩

/-! ### All or nothing -/

/-- **A report that is delivered**: printed, or written to the file that is named and nowhere
else. -/
inductive Delivers (o : Options) (t : FileTree) (report : String) (response : Response) : Prop
  /-- it is printed as a line, and the tree is as it was -/
  | printed : o.output.bind (·.given?) = none → response.stdout = report ++ "\n" →
    response.tree = t → Delivers o t report response
  /-- it is what the file holds that the path leads to, and nothing else has changed -/
  | written {file : String} : o.output.bind (·.given?) = some file → response.stdout = "" →
    t.WrittenTo response.tree (.ofText file) (Text.encodeUtf8 report) →
    (t.Rooted → response.tree.Rooted ∧
      response.tree.read (.ofText file) = .ok (Text.encodeUtf8 report)) →
    Delivers o t report response

/-- One unit, which imports another that is not there. -/
def oneImport : SchemaModel :=
  .ofUnits [{ name := "m", imports := ["x"] }]

/-- The report on it. -/
def oneImportReport : String :=
  "m [tested]\n└── x [MISSING]"

/-- An engine that builds nothing else. -/
def oneImportEngine : Engine := fun _ =>
  { outcome := .ok oneImport }

/-- One of two files is under test, and the report goes to a file. -/
def toFile (file : String) : Options where
  files := ["m.yang"]
  output := some (.text file)

/-- The settings that this comes to. -/
def oneFile : Settings where
  tests := ["m.yang"]

theorem requests_toFile (file : String) :
    (toFile file).Requests Yaml.load twinTree (oneFile.request (.ofList [])) :=
  ⟨oneFile, ⟨{}, [], .scratch rfl, rfl, rfl, rfl⟩, by decide, rfl⟩

/-- The file under test has a unit, and so its name is tested. -/
theorem exists_result_oneFile :
    ∃ a, ((oneFile.request (.ofList [])).run oneImportEngine twinTree).result = .ok a ∧
      a.model = oneImport ∧ a.testedNames = ["m"] := by
  have hsources : (oneFile.request (.ofList [])).sources twinTree =
      { primary := [.ofText "m.yang"]
        supporting := [.ofText "m.yang", .ofText "n.yang"]
        roots := ["."]
        ignored := [] } := by
    cbv
  have hread : (oneFile.request (.ofList [])).AllReadable twinTree := by
    intro p hp
    rw [hsources] at hp
    simp only [List.cons_append, List.nil_append, List.mem_cons, List.not_mem_nil, or_false] at hp
    rcases hp with rfl | rfl | rfl
    · exact ⟨_, read_twin (Or.inl rfl)⟩
    · exact ⟨_, read_twin (Or.inl rfl)⟩
    · exact ⟨_, read_twin (Or.inr rfl)⟩
  have husable : (oneFile.request (.ofList [])).RootsUsable twinTree := by
    rw [Request.RootsUsable, hsources]
    exact List.forall_mem_singleton.2 (by decide)
  have hnames : (oneFile.request (.ofList [])).declaredNames twinTree = ["m"] := by
    rw [Request.declaredNames, hsources, FileTree.documents_cons (read_twin (Or.inl rfl))]
    rfl
  have hends : (oneFile.request (.ofList [])).Ends oneImportEngine twinTree _ _ _ :=
    .completed husable (fun h => Bool.noConfusion h) hread rfl fun h => Bool.noConfusion h
  obtain ⟨hresult, -⟩ := Request.run_of_ends hends
  refine ⟨_, hresult, rfl, ?_⟩
  rw [hnames]
  decide +kernel

theorem rooted_twinTree : twinTree.Rooted :=
  FileTree.rooted_of_nodes (by decide) (by decide)

end Options

end SchemaAssembly
