import SchemaAssembly.Proofs.Documents
import SchemaAssembly.Proofs.SourceRoles

/-!
# What a run consists of

Spec lemmas for the two stages that read files and drive an engine. Later proofs use these and open
neither `FileTree.assemble` nor `Request.run` again.

* `FileTree.assemble_of_built`, `FileTree.assemble_of_unbuildable`,
  `FileTree.assemble_of_unreadable` — the three ways in which assembling ends;
* `Request.Completed` — everything that is known about a run once it has a result
  (`Request.completed_of_run`);
* `Request.exists_result` — when it has one.
-/

namespace SchemaAssembly

namespace FileTree

variable {t : FileTree} {primary supporting : List Path}

section Readable

variable (h : ∀ p ∈ primary ++ supporting, t.Readable p) {engine : Engine}
  {features : Option FeatureSet} {useAllFiles : Bool}

include h

/-- If every source can be read and the engine builds a model, that is the result. -/
theorem assemble_of_built {model : SchemaModel}
    (hbuilt : (engine (engineCalls (t.documents primary) (t.documents supporting) features
      useAllFiles)).outcome = .ok model) :
    t.assemble engine primary supporting features useAllFiles =
      let calls := engineCalls (t.documents primary) (t.documents supporting) features useAllFiles
      { result := .ok (model, (t.documents primary).map (·.name))
        events := shadowEvents (t.documents primary) (t.documents supporting) ++
          (engine calls).events ++ [.built model.size]
        calls := some calls } := by
  rw [assemble, readAll_of_readable fun p hp => h p (List.mem_append_left supporting hp),
    readAll_of_readable fun p hp => h p (List.mem_append_right primary hp)]
  simp only [bind, Except.bind, pure, Except.pure, hbuilt]

/-- If every source can be read and the engine builds no model, its messages are the failure. -/
theorem assemble_of_unbuildable {messages : List String}
    (hfailed : (engine (engineCalls (t.documents primary) (t.documents supporting) features
      useAllFiles)).outcome = .error messages) :
    t.assemble engine primary supporting features useAllFiles =
      let calls := engineCalls (t.documents primary) (t.documents supporting) features useAllFiles
      { result := .error (.unbuildable messages (engine calls).summary)
        events := shadowEvents (t.documents primary) (t.documents supporting) ++
          (engine calls).events
        calls := some calls } := by
  rw [assemble, readAll_of_readable fun p hp => h p (List.mem_append_left supporting hp),
    readAll_of_readable fun p hp => h p (List.mem_append_right primary hp)]
  simp only [bind, Except.bind, pure, Except.pure, hfailed]

/-- The calls do not depend on what the engine answers. -/
theorem calls_assemble_of_readable :
    (t.assemble engine primary supporting features useAllFiles).calls =
      some (engineCalls (t.documents primary) (t.documents supporting) features useAllFiles) := by
  cases houtcome : (engine (engineCalls (t.documents primary) (t.documents supporting) features
      useAllFiles)).outcome with
  | error messages => rw [assemble_of_unbuildable h houtcome]
  | ok model => rw [assemble_of_built h houtcome]

end Readable

/-- Reading two lists of paths one after the other is reading them as one list. -/
theorem readAll_append (paths paths' : List Path) :
    t.readAll (paths ++ paths') = do return (← t.readAll paths) ++ (← t.readAll paths') := by
  simp only [readAll, List.mapM_append]

/-- If some source cannot be read, the first such source is the failure, and no engine is used. -/
theorem assemble_of_unreadable {before after : List Path} {p : Path} {failure : ReadFailure}
    (hsplit : primary ++ supporting = before ++ p :: after) (hbefore : ∀ q ∈ before, t.Readable q)
    (hp : SourceDocument.read t p = .error failure) {engine : Engine}
    {features : Option FeatureSet} {useAllFiles : Bool} :
    t.assemble engine primary supporting features useAllFiles =
      { result := .error (failure.ending p) } := by
  have hall : t.readAll (primary ++ supporting) = .error (failure.ending p) := by
    rw [hsplit]
    exact readAll_of_unreadable hbefore hp
  rw [readAll_append] at hall
  rw [assemble]
  cases hprimary : t.readAll primary with
  | error f =>
    rw [hprimary] at hall
    cases hall
    rfl
  | ok tested =>
    rw [hprimary] at hall
    cases hsupporting : t.readAll supporting with
    | error f =>
      rw [hsupporting] at hall
      cases hall
      rfl
    | ok library =>
      rw [hsupporting] at hall
      cases hall

end FileTree

/-- An outcome that goes on has a result only if both parts have one. -/
theorem Outcome.andThen_eq_ok {α β : Type} {o : Outcome α}
    {f : α → Except Failure (β × List Event)} {b : β} (h : (o.andThen f).result = .ok b) :
    ∃ a events, o.result = .ok a ∧ f a = .ok (b, events) := by
  rw [Outcome.andThen] at h
  cases ha : o.result with
  | error failure =>
    rw [ha] at h
    cases h
  | ok a =>
    rw [ha] at h
    cases hf : f a with
    | error failure =>
      simp only [hf] at h
      cases h
    | ok p =>
      obtain ⟨b', events⟩ := p
      simp only [hf] at h
      obtain rfl : b' = b := Except.ok.inj h
      exact ⟨a, events, rfl, hf⟩

/-- What goes on uses no engine of its own. -/
theorem Outcome.calls_andThen {α β : Type} (o : Outcome α)
    (f : α → Except Failure (β × List Event)) : (o.andThen f).calls = o.calls := by
  rw [Outcome.andThen]
  split
  · rfl
  · split <;> rfl

/-- A selection that succeeds selects the units of the names. -/
theorem SchemaModel.tested_of_select {m : SchemaModel} {names : List String} {strict : Bool}
    {units : List SchemaUnit} {events : List Event}
    (h : m.select names strict = .ok (units, events)) : units = m.tested names := by
  rw [SchemaModel.select] at h
  split at h
  · cases h
  · cases h
    rfl

namespace Request

variable {r : Request} {engine : Engine} {t : FileTree} {a : Assembly}

/-- The calls that an engine receives for some sources. -/
def callsFor (r : Request) (t : FileTree) (sources : SourceSet) : List EngineCall :=
  engineCalls (t.documents sources.primary) (t.documents sources.supporting) r.features
    r.useAllFiles

/-- **A completed run**: what lies between a request and its result. -/
structure Completed (r : Request) (engine : Engine) (t : FileTree) (a : Assembly) : Prop where
  /-- the sources are those of the request -/
  sources_eq : a.sources = (t.classify r.scanOptions r.libraries r.tests).1
  /-- all library roots could be scanned -/
  rootsUsable : a.sources.RootsUsable
  /-- all of them have been read -/
  readable : ∀ p ∈ a.sources.primary ++ a.sources.supporting, t.Readable p
  /-- the engine has been called with their documents -/
  calls_eq : (r.run engine t).calls = some (r.callsFor t a.sources)
  /-- it has built the model -/
  built : (engine (r.callsFor t a.sources)).outcome = .ok a.model
  /-- the names are those of the tested documents -/
  names_eq : a.names = (t.documents a.sources.primary).map (·.name)
  /-- the tested units have been selected by these names -/
  testedUnits_eq : a.testedUnits = a.model.tested a.names

/-- If all roots are usable, a run goes on with the sources sorted by role. -/
theorem run_of_rootsUsable (h : (t.classify r.scanOptions r.libraries r.tests).1.RootsUsable) :
    r.run engine t =
      match r.strictExtensions, (t.classify r.scanOptions r.libraries r.tests).1.ignored with
      | true, path :: _ =>
        { result := .error (.notASource path)
          events := (t.classify r.scanOptions r.libraries r.tests).2 }
      | _, ignored =>
        (r.runWith engine t (t.classify r.scanOptions r.libraries r.tests).1).after
          ((t.classify r.scanOptions r.libraries r.tests).2 ++
            ignored.map fun path => .ignored path r.extension) := by
  unfold run
  exact FileTree.sortSources_of_rootsUsable h ▸ rfl

/-- The first root that is not usable ends the run. -/
theorem run_of_unusable_root {before after : List String} {root : String}
    (hroots : (t.classify r.scanOptions r.libraries r.tests).1.roots = before ++ root :: after)
    (hbefore : ∀ other ∈ before, (Path.ofText other).isUsable = true)
    (hroot : (Path.ofText root).isUsable = false) :
    r.run engine t =
      { result := .error (.unusable (.ofText root))
        events := (t.scanRoots r.scanOptions before).filterMap Finding.event? } := by
  rw [run, FileTree.sortSources_of_unusable hroots hbefore hroot]

/-- A run that gets past its roots and the test of extensions is a run with known sources. -/
theorem run_eq_after_runWith (h : (r.run engine t).result = .ok a) :
    (t.classify r.scanOptions r.libraries r.tests).1.RootsUsable ∧
    ∃ events, r.run engine t =
      (r.runWith engine t (t.classify r.scanOptions r.libraries r.tests).1).after events := by
  rcases FileTree.rootsUsable_or_first_unusable
      (t.classify r.scanOptions r.libraries r.tests).1 with
    husable | ⟨before, root, after, hroots, hbefore, hroot⟩
  · rw [run_of_rootsUsable husable] at h ⊢
    split at h
    · cases h
    · exact ⟨husable, _, rfl⟩
  · rw [run_of_unusable_root hroots hbefore hroot] at h
    cases h

/-- **A run with a result is completed.** -/
theorem completed_of_run (h : (r.run engine t).result = .ok a) : r.Completed engine t a := by
  obtain ⟨husable, events, hrun⟩ := run_eq_after_runWith h
  generalize hsources : (t.classify r.scanOptions r.libraries r.tests).1 = sources at hrun husable
  rw [hrun] at h
  obtain ⟨⟨model, names⟩, events', hmodel, hselect⟩ := Outcome.andThen_eq_ok h
  -- without every source there would be no model
  have hreadable : ∀ p ∈ sources.primary ++ sources.supporting, t.Readable p := by
    rcases FileTree.readable_or_first_unreadable t (sources.primary ++ sources.supporting) with
      hall | ⟨before, p, after, failure, hsplit, hbefore, hp⟩
    · exact hall
    · rw [FileTree.assemble_of_unreadable hsplit hbefore hp] at hmodel
      cases hmodel
  have hcalls : (r.run engine t).calls = some (r.callsFor t sources) := by
    rw [hrun]
    exact (Outcome.calls_andThen _ _).trans
      (FileTree.calls_assemble_of_readable hreadable)
  cases hbuilt : (engine (r.callsFor t sources)).outcome with
  | error messages =>
    rw [FileTree.assemble_of_unbuildable hreadable hbuilt] at hmodel
    cases hmodel
  | ok built =>
    rw [FileTree.assemble_of_built hreadable hbuilt] at hmodel
    cases hmodel
    dsimp only at hselect
    cases hunits : model.select ((t.documents sources.primary).map (·.name))
        r.requireTestedMatch with
    | error failure =>
      rw [hunits] at hselect
      cases hselect
    | ok selected =>
      obtain ⟨units, selectEvents⟩ := selected
      rw [hunits] at hselect
      cases hselect
      exact ⟨hsources.symm, husable, hreadable, hcalls, hbuilt, rfl,
        SchemaModel.tested_of_select hunits⟩

/-- **When a run has a result**: all roots can be scanned, no file under test is refused, every source
can be read, the engine builds a model, and every name has a unit if it must. -/
theorem exists_result {sources : SourceSet} {model : SchemaModel}
    (hsources : (t.classify r.scanOptions r.libraries r.tests).1 = sources)
    (husable : sources.RootsUsable)
    (hignored : r.strictExtensions = true → sources.ignored = [])
    (hread : ∀ p ∈ sources.primary ++ sources.supporting, t.Readable p)
    (hbuilt : (engine (r.callsFor t sources)).outcome = .ok model)
    (hmatch : r.requireTestedMatch = true →
      model.unmatched ((t.documents sources.primary).map (·.name)) = []) :
    ∃ a, (r.run engine t).result = .ok a := by
  obtain ⟨events, hselect⟩ : ∃ events,
      model.select ((t.documents sources.primary).map (·.name)) r.requireTestedMatch =
        .ok (model.tested ((t.documents sources.primary).map (·.name)), events) := by
    rw [SchemaModel.select]
    cases hstrict : r.requireTestedMatch with
    | false => exact ⟨_, rfl⟩
    | true =>
      rw [hmatch hstrict]
      exact ⟨_, rfl⟩
  obtain ⟨a, ha⟩ : ∃ a, (r.runWith engine t sources).result = .ok a := by
    rw [runWith, FileTree.assemble_of_built hread hbuilt]
    simp only [Outcome.andThen, hselect]
    exact ⟨_, rfl⟩
  refine ⟨a, ?_⟩
  rw [run_of_rootsUsable (hsources ▸ husable), hsources]
  split
  · rename_i path rest hstrict hpaths
    rw [hignored hstrict] at hpaths
    cases hpaths
  · exact ha

end Request

end SchemaAssembly
