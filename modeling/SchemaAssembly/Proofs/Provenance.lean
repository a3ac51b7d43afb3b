import SchemaAssembly.Engine.Shallow
import SchemaAssembly.Proofs.Handover

/-!
# Where tested units come from

A unit is tested because of its name, while a source is under test because of its path. Between the
two lie the sorting of sources, two ways of dropping documents and an engine. For an engine that
makes units of the documents it is handed and of nothing else the two notions agree
(`tested_iff_source_primary`): what comes from a library is never reported as tested, and nothing
that comes from a file under test is missed.

What carries this is `FileTree.name_mem_iff_path_mem`: a document that an engine is handed is under
test by its name exactly if it is by its path.
-/

namespace SchemaAssembly

/-- **Engines that make units of documents**: every unit has the name and the path of a document
that was handed over. -/
def Engine.DrawsOnDocuments (engine : Engine) : Prop :=
  ∀ calls model, (engine calls).outcome = .ok model → ∀ u ∈ model.units,
    ∃ d ∈ calls.filterMap EngineCall.document?, u.name = d.name ∧ u.source = some d.path

section

variable {r : Request} {engine : Engine} {t : FileTree} {a : Assembly}

/-- **Under test by name, under test by path.** For a document that an engine is handed, to declare
the name of a tested document and to have the path of one are the same. -/
theorem FileTree.name_mem_iff_path_mem {primary supporting : List Path} {d : SourceDocument}
    (hread : ∀ p ∈ primary, t.Readable p)
    (hd : d ∈ t.documents primary ++
      unshadowed (t.documents primary) (t.documents supporting)) :
    d.name ∈ (t.documents primary).map (·.name) ↔ d.path ∈ primary := by
  rcases List.mem_append.1 hd with hd | hd
  · exact iff_of_true (List.mem_map_of_mem hd) (mem_documents_iff.1 hd).1
  · -- a supporting document that is handed over is under test in neither sense
    obtain ⟨hd, hpath⟩ := mem_of_mem_distinctOnAfter hd
    have hname := (List.mem_filter.1 hd).2
    rw [map_path_documents hread] at hpath
    refine iff_of_false ?_ hpath
    simpa [List.contains_eq_mem] using hname

/-- A unit of the model has the name of a tested document exactly if it has the path of one. -/
theorem Request.Completed.name_mem_iff (hrun : r.Completed engine t a)
    (hengine : engine.DrawsOnDocuments) {u : SchemaUnit} (hu : u ∈ a.model.units) :
    u.name ∈ a.names ↔ ∃ p ∈ a.sources.primary, u.source = some p := by
  obtain ⟨d, hd, hname, hsource⟩ := hengine _ _ hrun.built u hu
  rw [callsFor, documents_engineCalls] at hd
  have hiff := FileTree.name_mem_iff_path_mem
    (fun p hp => hrun.readable p (List.mem_append_left a.sources.supporting hp)) hd
  rw [hname, hrun.names_eq, hiff, hsource]
  constructor
  · intro hpath
    exact ⟨d.path, hpath, rfl⟩
  · rintro ⟨p, hp, hpath⟩
    rw [Option.some.inj hpath]
    exact hp

/-- **Where tested units come from.** A unit of the model is among the tested units, with the flag
set, exactly if its source is a file under test; and the tested units are in the order of the model,
each of them as it is there but for the flag, which is set. -/
theorem tested_iff_source_primary (hengine : engine.DrawsOnDocuments)
    (hrun : (r.run engine t).result = .ok a) :
    (∀ u ∈ a.model.units,
      { u with tested := true } ∈ a.testedUnits ↔ ∃ p ∈ a.sources.primary, u.source = some p) ∧
    a.testedUnits =
      (a.model.units.filter fun u => a.sources.primary.any fun p => u.source = some p).map
        fun u => { u with tested := true } := by
  have hrun := Request.completed_of_run hrun
  have hunits : a.testedUnits =
      (a.model.units.filter fun u => a.sources.primary.any fun p => u.source = some p).map
        fun u => { u with tested := true } := by
    rw [hrun.testedUnits_eq, SchemaModel.tested]
    -- to flag a unit is to set this field, so only the filters differ
    refine congrArg (List.map SchemaUnit.markTested) (List.filter_congr fun u hu => ?_)
    rw [Bool.eq_iff_iff, List.contains_iff_mem, hrun.name_mem_iff hengine hu]
    simp
  refine ⟨fun u hu => ?_, hunits⟩
  rw [hunits, List.mem_map]
  constructor
  · rintro ⟨v, hv, heq⟩
    -- flagging changes neither the name nor the source
    have hsource := congrArg SchemaUnit.source heq
    change v.source = u.source at hsource
    simpa [hsource] using (List.mem_filter.1 hv).2
  · rintro ⟨p, hp, hsource⟩
    exact ⟨u, List.mem_filter.2 ⟨hu, by simpa using ⟨p, hp, hsource⟩⟩, rfl⟩

end

/-! ### The shallow engine -/

namespace ShallowEngine

/-- The last document of a name is one of the documents. -/
theorem mem_of_mem_lastOfName {documents : List SourceDocument} {d : SourceDocument}
    (h : d ∈ lastOfName documents) : d ∈ documents :=
  List.mem_reverse.1 (mem_of_mem_distinctOnAfter h).1

/-- Growing adds documents of the library only. -/
theorem mem_of_mem_grow {library chosen : List SourceDocument} {d : SourceDocument}
    (h : d ∈ grow library chosen) : d ∈ chosen ∨ d ∈ library :=
  (List.mem_append.1 h).imp_right fun h => (List.mem_filter.1 h).1

/-- The documents chosen are documents that were there. -/
theorem mem_of_mem_chosen {sources library : List SourceDocument} {d : SourceDocument}
    (h : d ∈ chosen sources library) : d ∈ sources ++ library := by
  -- on the rounds, of which the library gives the number
  have hrounds : ∀ (rounds first : List SourceDocument), (∀ d ∈ first, d ∈ sources ++ library) →
      ∀ d ∈ rounds.foldl (fun chosen _ => grow (lastOfName library) chosen) first,
        d ∈ sources ++ library := by
    intro rounds
    induction rounds with
    | nil => exact fun first hfirst => hfirst
    | cons x rest ih =>
      intro first hfirst
      refine ih _ fun d hd => ?_
      rcases mem_of_mem_grow hd with hd | hd
      · exact hfirst d hd
      · exact List.mem_append_right sources (mem_of_mem_lastOfName hd)
  exact hrounds library _
    (fun d hd => List.mem_append_left library (mem_of_mem_lastOfName hd)) d h

/-- The shallow engine makes units of the documents it is handed. -/
theorem drawsOnDocuments (e : ShallowEngine) : e.engine.DrawsOnDocuments := by
  intro calls model hmodel u hu
  have hdocument : ∀ d ∈ calls.filterMap EngineCall.source? ++
      calls.filterMap EngineCall.library?, d ∈ calls.filterMap EngineCall.document? := by
    intro d hd
    rcases List.mem_append.1 hd with hd | hd
    · obtain ⟨c, hc, hd⟩ := List.mem_filterMap.1 hd
      exact List.mem_filterMap.2 ⟨c, hc, EngineCall.document?_of_source? hd⟩
    · obtain ⟨c, hc, hd⟩ := List.mem_filterMap.1 hd
      exact List.mem_filterMap.2 ⟨c, hc, EngineCall.document?_of_library? hd⟩
  rw [engine] at hmodel
  split at hmodel
  · cases hmodel
    obtain ⟨d, hd, rfl⟩ := List.mem_map.1 (SchemaModel.mem_units_ofUnits.1 hu)
    exact ⟨d, hdocument d (mem_of_mem_chosen (List.mem_filter.1 hd).1), rfl, rfl⟩
  · cases hmodel

end ShallowEngine

/-- One of the two files that declare `m` is under test, and all files are used. -/
def oneTested : Request where
  libraries := ["lib"]
  tests := ["m.yang"]
  useAllFiles := true

theorem sources_oneTested :
    (twinTree.classify oneTested.scanOptions oneTested.libraries oneTested.tests).1 =
      { primary := [.ofText "m.yang"]
        supporting := [.ofText "m.yang", .ofText "n.yang", .ofText "lib/k.yang"]
        roots := [".", "lib"]
        ignored := [] } := by
  cbv

/-- No unit of the model is flagged. Among the tested units, the one of the file under test is, and
the one of the library file is missing. -/
theorem tested_iff_source_primary_oneTested :
    (ShallowEngine.engine {}).DrawsOnDocuments ∧
    ∃ a, (oneTested.run (ShallowEngine.engine {}) twinTree).result = .ok a ∧
      (∃ u ∈ a.model.units, u.source = some (.ofText "m.yang") ∧ u.tested = false ∧
        { u with tested := true } ∈ a.testedUnits) ∧
      ∃ u ∈ a.model.units, u.source = some (.ofText "lib/k.yang") ∧ u.tested = false ∧
        { u with tested := true } ∉ a.testedUnits := by
  have hread : ∀ p ∈ [Path.ofText "m.yang"] ++
      [.ofText "m.yang", .ofText "n.yang", .ofText "lib/k.yang"], twinTree.Readable p :=
    List.forall_mem_cons.2 ⟨⟨_, read_twin (Or.inl rfl)⟩,
      List.forall_mem_cons.2 ⟨⟨_, read_twin (Or.inl rfl)⟩,
        List.forall_mem_cons.2 ⟨⟨_, read_twin (Or.inr rfl)⟩,
          List.forall_mem_singleton.2 ⟨_, read_nameless⟩⟩⟩⟩
  obtain ⟨a, ha⟩ : ∃ a, (oneTested.run (ShallowEngine.engine {}) twinTree).result = .ok a :=
    Request.exists_result sources_oneTested
      (List.forall_mem_cons.2 ⟨by decide, List.forall_mem_singleton.2 (by decide)⟩) (fun _ => rfl)
      hread rfl fun h => Bool.noConfusion h
  have hrun := Request.completed_of_run ha
  have hsources := hrun.sources_eq.trans sources_oneTested
  have hbuilt := hrun.built
  rw [hsources, Request.callsFor] at hbuilt
  simp only [FileTree.documents_cons (read_twin (Or.inl rfl)),
    FileTree.documents_cons (read_twin (Or.inr rfl)), FileTree.documents_cons read_nameless]
    at hbuilt
  have hmodel := Except.ok.inj hbuilt
  have hunits : ∀ d ∈ [twin "m.yang", nameless], ShallowEngine.unitOf d ∈ a.model.units := by
    rw [← hmodel]
    intro d hd
    refine SchemaModel.mem_units_ofUnits.2 (List.mem_map_of_mem ?_)
    revert d
    decide +kernel
  obtain ⟨hiff, -⟩ := tested_iff_source_primary (ShallowEngine.drawsOnDocuments {}) ha
  have hm := hunits (twin "m.yang") (by simp)
  have hk := hunits nameless (by simp)
  refine ⟨ShallowEngine.drawsOnDocuments {}, a, ha, ⟨_, hm, rfl, rfl, (hiff _ hm).2 ?_⟩,
    _, hk, rfl, rfl, fun htested => ?_⟩
  · rw [hsources]
    exact ⟨_, List.mem_singleton_self _, rfl⟩
  · obtain ⟨p, hp, hsource⟩ := (hiff _ hk).1 htested
    rw [hsources, List.mem_singleton] at hp
    rw [hp] at hsource
    revert hsource
    decide +kernel

end SchemaAssembly
