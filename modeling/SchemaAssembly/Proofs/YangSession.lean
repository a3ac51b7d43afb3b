import SchemaAssembly.Proofs.Handover
import SchemaAssembly.Yang.Session

/-!
# What a YANG engine has been given

After any calls whatever, a YANG engine has the documents in the order of the calls that hand them
over, and the last features that were set before the first of them (`afterCalls_eq_given`). A call
that comes too late changes nothing, and neither does a build, so that a build is answered as if
there had been none before. Whichever library validates the documents, this is what a build hands
over to it, and what it makes of the workspace it gets back (`session_of_calls`).

The enabled features are stated for every document and for every module of the supported features,
once each (`mem_keys_enabledFeatures_iff`, `mem_names_iff_of_mem_enabledFeatures`). A module that
nothing is stated about has all its features enabled; no document is such a module as long as
features are restricted at all.
-/

namespace SchemaAssembly

namespace EngineCall

/-- The features of a call that restricts an engine. -/
def features? : EngineCall → Option FeatureSet
  | restrict features => some features
  | _ => none

/-- The features that some calls install: the last ones set before the first document. -/
def installed (calls : List EngineCall) : Option FeatureSet :=
  ((calls.takeWhile fun c => c.document?.isNone).filterMap features?).getLast?

/-- After the first document nothing is installed any more. -/
theorem installed_append_of_documents {calls : List EngineCall}
    (h : calls.filterMap document? ≠ []) (later : List EngineCall) :
    installed (calls ++ later) = installed calls := by
  have hlength : (calls.takeWhile fun c => c.document?.isNone).length ≠ calls.length := by
    intro hlength
    refine h (List.filterMap_eq_nil_iff.2 fun c hc => ?_)
    rw [← (List.takeWhile_prefix _).eq_of_length hlength] at hc
    have hnone := List.mem_takeWhile_imp (p := fun c : EngineCall => c.document?.isNone) hc
    exact Option.isNone_iff_eq_none.1 hnone
  rw [installed, List.takeWhile_append, if_neg hlength, installed]

/-- Before it a call that sets features counts, and the last such call counts in the end. -/
theorem installed_append_of_no_documents {calls : List EngineCall}
    (h : calls.filterMap document? = []) (c : EngineCall) :
    installed (calls ++ [c]) = c.features?.or (installed calls) := by
  have hall : calls.takeWhile (fun c => c.document?.isNone) = calls := by
    refine List.takeWhile_eq_self_iff.2 fun d hd => ?_
    rw [List.filterMap_eq_nil_iff.1 h d hd, Option.isNone_none]
  rw [installed, List.takeWhile_append, hall, if_pos rfl, List.filterMap_append, installed, hall]
  cases c with
  | restrict features => simp [document?, features?]
  | addSource d => simp [document?, features?]
  | addLibrary d => simp [document?, features?]
  | build => simp [document?, features?]

end EngineCall

/-- The names of a module's selected features. -/
theorem FeatureSet.mem_forModule_iff (features : FeatureSet) {name f : String} :
    f ∈ features.forModule name ↔ ⟨name, f⟩ ∈ features.toList := by
  rw [forModule, List.mem_map]
  constructor
  · rintro ⟨g, hg, rfl⟩
    obtain ⟨hmem, hname⟩ := List.mem_filter.1 hg
    obtain rfl := of_decide_eq_true hname
    exact hmem
  · exact fun hf => ⟨⟨name, f⟩, List.mem_filter.2 ⟨hf, decide_eq_true rfl⟩, rfl⟩

namespace YangSession

open EngineCall

variable {s : YangSession} {calls : List EngineCall}

/-! ### Calls -/

/-- **When a call is refused**: features are set, and there are documents. -/
theorem call_eq_error_iff {c : EngineCall} {misuse : Misuse} :
    s.call c = .error misuse ↔ (∃ features, c = .restrict features) ∧ s.documents ≠ [] := by
  cases c with
  | restrict features =>
    rw [call]
    cases misuse
    by_cases h : s.documents = []
    · simp [h]
    · simp [h]
  | addSource d => simp [call]
  | addLibrary d => simp [call]
  | build => simp [call]

theorem afterCalls_append (s : YangSession) (calls later : List EngineCall) :
    s.afterCalls (calls ++ later) = (s.afterCalls calls).afterCalls later := by
  rw [afterCalls, List.foldl_append, ← afterCalls, ← afterCalls]

/-- A call that is accepted has its effect before the next one. -/
theorem afterCalls_cons_of_ok {c : EngineCall} {s' : YangSession} (h : s.call c = .ok s')
    (later : List EngineCall) : s.afterCalls (c :: later) = s'.afterCalls later := by
  rw [afterCalls, List.foldl_cons, h]
  rfl

/-- A call that is refused has none. -/
theorem afterCalls_cons_of_error {c : EngineCall} {misuse : Misuse} (h : s.call c = .error misuse)
    (later : List EngineCall) : s.afterCalls (c :: later) = s.afterCalls later := by
  rw [afterCalls, List.foldl_cons, h]
  rfl

/-- **A call more**: features count as long as there are no documents. -/
theorem afterCalls_singleton (s : YangSession) (c : EngineCall) :
    s.afterCalls [c] =
      { features := if s.documents = [] then c.features?.or s.features else s.features
        sources := s.sources ++ c.source?.toList
        library := s.library ++ c.library?.toList } := by
  rw [afterCalls, List.foldl_cons, List.foldl_nil]
  cases c with
  | restrict features =>
    by_cases h : s.documents = []
    · simp [call, h, features?, source?, library?, Except.toOption]
    · simp [call, h, source?, library?, Except.toOption]
  | addSource d => simp [call, features?, source?, library?, Except.toOption]
  | addLibrary d => simp [call, features?, source?, library?, Except.toOption]
  | build => simp [call, features?, source?, library?, Except.toOption]

/-- **What some calls give**: the documents, in order, and the installed features. -/
def given (calls : List EngineCall) : YangSession where
  features := installed calls
  sources := calls.filterMap source?
  library := calls.filterMap library?

theorem mem_documents_given_iff {d : SourceDocument} :
    d ∈ (given calls).documents ↔ d ∈ calls.filterMap document? := by
  rw [documents, given, List.mem_append, List.mem_filterMap, List.mem_filterMap,
    List.mem_filterMap, ← exists_or]
  refine exists_congr fun c => ?_
  rw [← and_or_left]
  refine and_congr_right fun _ => ?_
  cases c <;> simp [source?, library?, document?]

theorem documents_given_eq_nil_iff :
    (given calls).documents = [] ↔ calls.filterMap document? = [] := by
  rw [List.eq_nil_iff_forall_not_mem, List.eq_nil_iff_forall_not_mem]
  exact forall_congr' fun d => not_congr mem_documents_given_iff

/-- **Calls give what they give**, whether they are taken or refused on the way. -/
theorem afterCalls_eq_given (calls : List EngineCall) :
    ({} : YangSession).afterCalls calls = given calls := by
  -- from the right end, so that the features installed so far stay what they are
  induction calls using List.reverseRecOn with
  | nil => rfl
  | append_singleton calls c ih =>
    have hsingleton : ∀ f : EngineCall → Option SourceDocument, [c].filterMap f = (f c).toList := by
      intro f
      cases hc : f c <;> simp [hc]
    have hgiven : given (calls ++ [c]) =
        { features := installed (calls ++ [c])
          sources := (given calls).sources ++ c.source?.toList
          library := (given calls).library ++ c.library?.toList } := by
      rw [given, List.filterMap_append, List.filterMap_append, hsingleton, hsingleton, given]
    rw [afterCalls_append, ih, afterCalls_singleton, hgiven]
    by_cases h : calls.filterMap document? = []
    · rw [installed_append_of_no_documents h, if_pos (documents_given_eq_nil_iff.2 h)]
      rfl
    · rw [installed_append_of_documents h, if_neg (mt documents_given_eq_nil_iff.1 h)]
      rfl

section

variable {features : FeatureSet}

/-- **When features are refused** after some calls: if these hand over a document. -/
theorem call_restrict_afterCalls :
    (({} : YangSession).afterCalls calls).call (.restrict features) =
      if calls.filterMap document? = [] then
        .ok { ({} : YangSession).afterCalls calls with features := some features }
      else .error .lateFeatures := by
  rw [afterCalls_eq_given, call]
  simp only [List.isEmpty_iff, documents_given_eq_nil_iff]

/-- Features that are refused make no difference later. -/
theorem afterCalls_append_restrict_cons (h : calls.filterMap document? ≠ [])
    (later : List EngineCall) :
    ({} : YangSession).afterCalls (calls ++ .restrict features :: later) =
      ({} : YangSession).afterCalls (calls ++ later) := by
  rw [afterCalls_append, afterCalls_append,
    afterCalls_cons_of_error (call_restrict_afterCalls.trans (if_neg h))]

/-- Neither does a build. -/
theorem afterCalls_append_build_cons (calls later : List EngineCall) :
    ({} : YangSession).afterCalls (calls ++ .build :: later) =
      ({} : YangSession).afterCalls (calls ++ later) := by
  have hkept : (({} : YangSession).afterCalls calls).call .build =
      .ok (({} : YangSession).afterCalls calls) := rfl
  rw [afterCalls_append, afterCalls_append, afterCalls_cons_of_ok hkept]

end

/-- **What a build hands over**, and what it makes of the workspace that it gets back. -/
theorem engine_eq (library : YangLibrary) (calls : List EngineCall) :
    engine library calls =
      let w := library ⟨(given calls).enabledFeatures⟩
        (calls.filterMap source? ++ calls.filterMap library?) (calls.filterMap source?)
      { events := (calls.filterMap source?).map fun d => .parsing d.path d.name
        outcome :=
          if w.problems.isEmpty then .ok (.ofUnits (w.modules.toList.map (unitOf w)))
          else .error (Yang.Problem.messages w.problems.toList) } := by
  rw [engine, afterCalls_eq_given]
  rfl

/-! ### The enabled features -/

section

variable {features : FeatureSet} {name : String}

theorem enabledFeatures_eq_nil (h : ∀ features ∈ s.features, features.toList = []) :
    s.enabledFeatures = [] := by
  rw [enabledFeatures]
  cases hs : s.features with
  | none => rfl
  | some features => simp [FeatureSet.isEmpty, h features hs]

theorem enabledFeatures_eq (hs : s.features = some features) (h : features.toList ≠ []) :
    s.enabledFeatures = (sortedSet (s.documents.map (·.name) ++ features.modules)).map
      fun name => (name, features.forModule name) := by
  rw [enabledFeatures, hs]
  simp [FeatureSet.isEmpty, h]

/-- Enabled features are stated once for each module. -/
theorem nodup_keys_enabledFeatures (s : YangSession) : (s.enabledFeatures.map (·.1)).Nodup := by
  by_cases h : ∀ features ∈ s.features, features.toList = []
  · rw [enabledFeatures_eq_nil h]
    exact List.nodup_nil
  · simp only [not_forall] at h
    obtain ⟨features, hs, h⟩ := h
    rw [enabledFeatures_eq hs h, List.map_map]
    exact (List.map_id _).symm ▸ nodup_sortedSet _

/-- **The modules they are stated for**: the documents, and those with a selected feature. -/
theorem mem_keys_enabledFeatures_iff (hs : s.features = some features) (h : features.toList ≠ []) :
    name ∈ s.enabledFeatures.map (·.1) ↔
      (∃ d ∈ s.documents, d.name = name) ∨ ∃ f ∈ features.toList, f.moduleName = name := by
  rw [enabledFeatures_eq hs h, List.map_map]
  simp [FeatureSet.modules]

/-- **What is stated**: the selected features of the module. -/
theorem mem_names_iff_of_mem_enabledFeatures (hs : s.features = some features)
    (h : features.toList ≠ []) {names : List String} (hnames : (name, names) ∈ s.enabledFeatures)
    (f : String) : f ∈ names ↔ ⟨name, f⟩ ∈ features.toList := by
  rw [enabledFeatures_eq hs h] at hnames
  obtain ⟨_, -, heq⟩ := List.mem_map.1 hnames
  cases heq
  exact features.mem_forModule_iff

/-- **What it means**: a feature of such a module is enabled exactly if it is selected. -/
theorem isEnabled_iff_of_mem_keys (hs : s.features = some features) (h : features.toList ≠ [])
    (hname : name ∈ s.enabledFeatures.map (·.1)) (f : String) :
    Yang.FeatureSwitches.isEnabled ⟨s.enabledFeatures⟩ name f ↔ ⟨name, f⟩ ∈ features.toList := by
  have hlookup : s.enabledFeatures.lookup name = some (features.forModule name) := by
    rw [enabledFeatures_eq hs h, List.map_map] at hname
    rw [enabledFeatures_eq hs h]
    refine List.lookup_graph features.forModule ?_
    simpa using hname
  rw [Yang.FeatureSwitches.isEnabled, hlookup]
  exact List.contains_iff_mem.trans features.mem_forModule_iff

end

end YangSession

/-! ### The calls of an assembly -/

open EngineCall YangSession

/-- The calls of an assembly hand over documents after features, whatever the documents are. -/
theorem FileTree.exists_engineCalls {t : FileTree} {engine : Engine}
    {primary supporting : List Path} {features : Option FeatureSet} {useAllFiles : Bool}
    {calls : List EngineCall}
    (h : (t.assemble engine primary supporting features useAllFiles).calls = some calls) :
    ∃ tested library, calls = engineCalls tested library features useAllFiles := by
  rcases readable_or_first_unreadable t (primary ++ supporting) with
    hread | ⟨before, p, after, failure, hsplit, hbefore, hp⟩
  · rw [calls_assemble_of_readable hread] at h
    exact ⟨_, _, (Option.some.inj h).symm⟩
  · rw [assemble_of_unreadable hsplit hbefore hp] at h
    cases h

section

variable {tested supporting : List SourceDocument} {features : Option FeatureSet}
  {useAllFiles : Bool}

/-- After the restriction, if there is one, no features are set. -/
theorem exists_rest_engineCalls (tested supporting : List SourceDocument)
    (features : Option FeatureSet) (useAllFiles : Bool) : ∃ rest,
    engineCalls tested supporting features useAllFiles = restriction features ++ rest ∧
      ∀ c ∈ rest, c.features? = none := by
  refine ⟨_, by rw [engineCalls, List.append_assoc, List.append_assoc], fun c hc => ?_⟩
  rw [List.mem_append, List.mem_append, List.mem_map, List.mem_map, List.mem_singleton] at hc
  rcases hc with ⟨d, -, rfl⟩ | ⟨d, -, rfl⟩ | rfl
  · rfl
  · cases useAllFiles <;> rfl
  · rfl

theorem document?_of_mem_restriction {c : EngineCall} (hc : c ∈ restriction features) :
    c.document? = none := by
  rw [restriction_eq] at hc
  obtain ⟨f, -, rfl⟩ := List.mem_map.1 hc
  rfl

/-- **Features are installed** whenever there are some. -/
theorem installed_engineCalls :
    installed (engineCalls tested supporting features useAllFiles) =
      features.filter fun f => f.toList ≠ [] := by
  obtain ⟨rest, hcalls, hrest⟩ := exists_rest_engineCalls tested supporting features useAllFiles
  have hnone : ∀ c ∈ restriction features, c.document?.isNone = true := fun c hc =>
    Option.isNone_iff_eq_none.2 (document?_of_mem_restriction hc)
  have hlater : (rest.takeWhile fun c => c.document?.isNone).filterMap features? = [] :=
    List.filterMap_eq_nil_iff.2 fun c hc => hrest c ((List.takeWhile_prefix _).subset hc)
  rw [installed, hcalls, List.takeWhile_append_of_pos hnone, List.filterMap_append, hlater,
    List.append_nil, restriction_eq]
  cases features with
  | none => rfl
  | some f =>
    by_cases hf : f.toList = []
    · simp [hf, Option.filter]
    · simp [hf, Option.filter, features?]

/-- **Features are never set too late**: before the call there is no document. -/
theorem documents_before_restrict {before after : List EngineCall} {f : FeatureSet}
    (h : engineCalls tested supporting features useAllFiles = before ++ .restrict f :: after) :
    before.filterMap document? = [] := by
  obtain ⟨rest, hcalls, hrest⟩ := exists_rest_engineCalls tested supporting features useAllFiles
  rw [hcalls] at h
  rcases List.append_eq_append_iff.1 h with ⟨between, -, hlate⟩ | ⟨between, hearly, -⟩
  · -- the call would be one of the rest
    have hmem : EngineCall.restrict f ∈ rest := by
      rw [hlate]
      exact List.mem_append_right between List.mem_cons_self
    exact absurd (hrest _ hmem) (Option.some_ne_none f)
  · refine List.filterMap_eq_nil_iff.2 fun c hc => ?_
    have hmem : c ∈ restriction features := by
      rw [hearly]
      exact List.mem_append_left between hc
    exact document?_of_mem_restriction hmem

/-- **No call is refused**, whichever it is. -/
theorem exists_call_eq_ok_of_engineCalls {before after : List EngineCall} {c : EngineCall}
    (h : engineCalls tested supporting features useAllFiles = before ++ c :: after) :
    ∃ s, (({} : YangSession).afterCalls before).call c = .ok s := by
  cases hc : (({} : YangSession).afterCalls before).call c with
  | ok s => exact ⟨s, rfl⟩
  | error misuse =>
    obtain ⟨⟨f, rfl⟩, hlate⟩ := call_eq_error_iff.1 hc
    rw [afterCalls_eq_given] at hlate
    exact absurd (documents_given_eq_nil_iff.2 (documents_before_restrict h)) hlate

end

namespace YangSession

/-- **The session of an engine.** Whatever calls it has received, it has the documents in the order
of the calls that hand them over, and the last features that were set before the first document.

* Features are refused as soon as there is a document; refused features and builds make no
  difference to what there is later, and so none to any later build.
* A build hands over to its library, whichever that is, the enabled features, all documents with the
  sources first, and the sources. It reports each source as one that is parsed, and then the problems
  of the workspace it gets back, or the units of its modules. The library of `yangEngine` validates
  the sources in a workspace that starts from the enabled features and the documents alone.
* As long as no feature is selected nothing is stated about enabled features. Else they are stated,
  once each, for exactly the modules that have been handed over or have a selected feature, and
  exactly the selected ones are stated.
* An assembly makes no call that is refused, and if it selects features no document it hands over is
  left out: a feature that such a document declares is enabled exactly if it is selected. -/
theorem session_of_calls (calls : List EngineCall) :
    let s := ({} : YangSession).afterCalls calls
    s = given calls ∧
    (∀ features, s.call (.restrict features) =
      if calls.filterMap document? = [] then .ok { s with features := some features }
      else .error .lateFeatures) ∧
    (calls.filterMap document? ≠ [] → ∀ features later,
      ({} : YangSession).afterCalls (calls ++ .restrict features :: later) =
        ({} : YangSession).afterCalls (calls ++ later)) ∧
    (∀ later, ({} : YangSession).afterCalls (calls ++ .build :: later) =
      ({} : YangSession).afterCalls (calls ++ later)) ∧
    (∀ library later, engine library (calls ++ .build :: later) =
      engine library (calls ++ later)) ∧
    (∀ library : YangLibrary,
      let w := library ⟨s.enabledFeatures⟩
        (calls.filterMap source? ++ calls.filterMap library?) (calls.filterMap source?)
      engine library calls =
        { events := (calls.filterMap source?).map fun d => .parsing d.path d.name
          outcome :=
            if w.problems.isEmpty then .ok (.ofUnits (w.modules.toList.map (unitOf w)))
            else .error (Yang.Problem.messages w.problems.toList) }) ∧
    yangEngine = engine (fun switches documents sources =>
      ((Yang.Check.validateAll sources).run (Yang.Workspace.ofDocuments switches documents)).2) ∧
    (s.enabledFeatures.map (·.1)).Nodup ∧
    ((∀ features ∈ installed calls, features.toList = []) → s.enabledFeatures = []) ∧
    (∀ features ∈ installed calls, features.toList ≠ [] →
      (∀ name, name ∈ s.enabledFeatures.map (·.1) ↔
        (∃ d ∈ calls.filterMap document?, d.name = name) ∨
          ∃ f ∈ features.toList, f.moduleName = name) ∧
      ∀ entry ∈ s.enabledFeatures, ∀ f, f ∈ entry.2 ↔ ⟨entry.1, f⟩ ∈ features.toList) ∧
    ∀ (t : FileTree) (engine : Engine) primary supporting features useAllFiles,
      (t.assemble engine primary supporting features useAllFiles).calls = some calls →
      (∀ before c after, calls = before ++ c :: after →
        ∃ s', (({} : YangSession).afterCalls before).call c = .ok s') ∧
      ∀ selected ∈ features, selected.toList ≠ [] →
        ∀ d ∈ calls.filterMap document?, d.name ∈ s.enabledFeatures.map (·.1) ∧
          ∀ f, Yang.FeatureSwitches.isEnabled ⟨s.enabledFeatures⟩ d.name f ↔
            ⟨d.name, f⟩ ∈ selected.toList := by
  intro s
  have hs : s = given calls := afterCalls_eq_given calls
  have hmem : ∀ d, d ∈ s.documents ↔ d ∈ calls.filterMap document? := fun d =>
    hs ▸ mem_documents_given_iff
  have hfeatures : s.features = installed calls := congrArg YangSession.features hs
  refine ⟨hs, fun features => call_restrict_afterCalls,
    fun h features later => afterCalls_append_restrict_cons h later,
    afterCalls_append_build_cons calls,
    fun library later => congrArg (build library) (afterCalls_append_build_cons calls later),
    fun library => hs ▸ engine_eq library calls, rfl,
    s.nodup_keys_enabledFeatures, fun h => enabledFeatures_eq_nil (hfeatures ▸ h),
    fun features hinstalled h => ⟨fun name => ?_, fun entry hentry f => ?_⟩,
    fun t engine primary supporting features useAllFiles hcalls => ?_⟩
  · simp only [mem_keys_enabledFeatures_iff (hfeatures.trans hinstalled) h, hmem]
  · exact mem_names_iff_of_mem_enabledFeatures (hfeatures.trans hinstalled) h hentry f
  · obtain ⟨tested, library, rfl⟩ := FileTree.exists_engineCalls hcalls
    refine ⟨fun before c after => exists_call_eq_ok_of_engineCalls,
      fun selected hselected hne d hd => ?_⟩
    have hinstalled : s.features = some selected := by
      rw [hfeatures, installed_engineCalls, Option.mem_def.1 hselected]
      simp [Option.filter, hne]
    have hkey : d.name ∈ s.enabledFeatures.map (·.1) :=
      (mem_keys_enabledFeatures_iff hinstalled hne).2 (Or.inl ⟨d, (hmem d).2 hd, rfl⟩)
    exact ⟨hkey, isEnabled_iff_of_mem_keys hinstalled hne hkey⟩

/-- A feature of the tested module, and one of a module that is nowhere. -/
def twoSelected : FeatureSet :=
  .ofList [⟨"m", "x"⟩, ⟨"z", "y"⟩]

/-- The calls of an assembly with a tested module, and with a file of the library. -/
def twoHandedOver : List EngineCall :=
  [.restrict twoSelected, .addSource (twin "m.yang"), .addLibrary nameless, .build]

/-- The tested file is parsed, with what is selected for it; no feature of the library file is enabled,
as none is selected. Features that come too late, and the build that ends the assembly, make no
difference. -/
theorem session_of_calls_twoHandedOver :
    let s := ({} : YangSession).afterCalls twoHandedOver
    (twinTree.assemble yangEngine [.ofText "m.yang"] [.ofText "lib/k.yang"] (some twoSelected)
      false).calls = some twoHandedOver ∧
    s.call (.restrict .empty) = .error .lateFeatures ∧
    ({} : YangSession).afterCalls (twoHandedOver ++ [EngineCall.restrict .empty, .build]) =
      ({} : YangSession).afterCalls (twoHandedOver ++ [EngineCall.build]) ∧
    yangEngine (twoHandedOver ++ [EngineCall.build, .addSource (twin "n.yang"), .build]) =
      yangEngine (twoHandedOver ++ [EngineCall.addSource (twin "n.yang"), .build]) ∧
    (yangEngine twoHandedOver).events = [.parsing (.ofText "m.yang") "m"] ∧
    (∃ s', (({} : YangSession).afterCalls []).call (.restrict twoSelected) = .ok s') ∧
    "z" ∈ s.enabledFeatures.map (·.1) ∧
    "k" ∈ s.enabledFeatures.map (·.1) ∧
    Yang.FeatureSwitches.isEnabled ⟨s.enabledFeatures⟩ "k" "x" = false ∧
    Yang.FeatureSwitches.isEnabled ⟨s.enabledFeatures⟩ "m" "x" = true ∧
    (({} : YangSession).afterCalls [.restrict .empty, .addSource nameless]).enabledFeatures =
      [] := by
  intro s
  have hread : ∀ p ∈ [Path.ofText "m.yang"] ++ [.ofText "lib/k.yang"], twinTree.Readable p :=
    List.forall_mem_cons.2 ⟨⟨_, read_twin (Or.inl rfl)⟩,
      List.forall_mem_singleton.2 ⟨_, read_nameless⟩⟩
  have hcalls : (twinTree.assemble yangEngine [.ofText "m.yang"] [.ofText "lib/k.yang"]
      (some twoSelected) false).calls = some twoHandedOver := by
    rw [FileTree.calls_assemble_of_readable hread,
      FileTree.documents_cons (read_twin (Or.inl rfl)), FileTree.documents_cons read_nameless]
    decide +kernel
  have hselected : twoSelected.toList ≠ [] := by decide +kernel
  have hinstalled : twoSelected ∈ installed twoHandedOver := by decide +kernel
  have hdocuments : twoHandedOver.filterMap document? = [twin "m.yang", nameless] := rfl
  obtain ⟨-, hrestrict, hlate, -, hbuild, hreport, hengine, -, -, hkeys, hassembly⟩ :=
    session_of_calls twoHandedOver
  obtain ⟨haccepted, hentries⟩ := hassembly twinTree _ _ _ _ _ hcalls
  have htwin := hentries twoSelected rfl hselected (twin "m.yang") (by simp [hdocuments])
  have hnameless := hentries twoSelected rfl hselected nameless (by simp [hdocuments])
  refine ⟨hcalls, ?_, hlate (by simp [hdocuments]) _ _, hbuild validated _, ?_,
    haccepted [] _ _ rfl, ?_, hnameless.1, ?_, (htwin.2 "x").2 ?_, ?_⟩
  · rw [hrestrict, if_neg (by simp [hdocuments])]
  · rw [hengine, hreport]
    rfl
  · refine ((hkeys twoSelected hinstalled hselected).1 "z").2 (Or.inr ⟨⟨"z", "y"⟩, ?_, rfl⟩)
    decide +kernel
  · exact Bool.eq_false_iff.2 fun h => absurd ((hnameless.2 "x").1 h) (by decide +kernel)
  · decide +kernel
  · obtain ⟨-, -, -, -, -, -, -, -, hnone, -⟩ :=
      session_of_calls [.restrict .empty, .addSource nameless]
    refine hnone fun features hfeatures => ?_
    obtain rfl : FeatureSet.empty = features := Option.some.inj hfeatures
    rfl

end YangSession

end SchemaAssembly
