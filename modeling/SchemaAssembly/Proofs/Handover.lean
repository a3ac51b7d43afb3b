import Mathlib
import SchemaAssembly.Engine.Shallow
import SchemaAssembly.Proofs.Run

/-!
# What an engine is handed

The calls of an assembly, said without the way in which they come about. Sources may be listed
twice, and supporting ones may be tested ones at the same time; since the tree stays as it is, a
path has one document, and this is what makes the two ways of dropping documents (by the name they
declare, by the path they come from) agree.

* **protocol** — `engine_protocol`: which calls an engine receives, in which order, and when there
  is no engine at all;
* **names** — `nodup_names_sources_iff`: when the documents to be validated declare different
  names. They need not: a tested document wins against a supporting one, and that is all.
-/

namespace SchemaAssembly

/-! ### First occurrences by position -/

section Positions

variable {α β : Type} [DecidableEq β]

/-- The elements that satisfy `p` and have a key that no element before them has. -/
def firstWith (key : α → β) (p : α → Bool) (l : List α) : List α :=
  (l.zipIdx.filter fun x => key x.1 ∉ (l.take x.2).map key ∧ p x.1).map (·.1)

/-- One more element at the end changes nothing about the elements before it. -/
theorem firstWith_append_singleton (key : α → β) (p : α → Bool) (l : List α) (a : α) :
    firstWith key p (l ++ [a]) =
      firstWith key p l ++ if key a ∉ l.map key ∧ p a then [a] else [] := by
  have hbefore : ∀ x ∈ l.zipIdx, (l ++ [a]).take x.2 = l.take x.2 := by
    intro x hx
    have hlt : x.2 < l.length := List.snd_lt_of_mem_zipIdx hx
    rw [List.take_append_of_le_length (Nat.le_of_lt hlt)]
  rw [firstWith, List.zipIdx_append, List.filter_append, List.map_append]
  congr 1
  · rw [firstWith]
    congr 1
    refine List.filter_congr fun x hx => ?_
    rw [hbefore x hx]
  · simp only [List.zipIdx_singleton, Nat.zero_add, List.filter_cons, List.filter_nil,
      List.take_left']
    split <;> simp_all

/-- **First occurrences by position**: where `p` depends on the key alone and excludes the keys
already seen, what is kept of the elements that satisfy it is told by positions. -/
theorem distinctOnAfter_filter {key : α → β} {seen : List β} {p : α → Bool} {l : List α}
    (hseen : ∀ a ∈ l, p a = true → key a ∉ seen)
    (hkey : ∀ a ∈ l, ∀ b ∈ l, key a = key b → p a = p b) :
    distinctOnAfter key seen (l.filter p) = firstWith key p l := by
  -- from the right end, so that the elements before a position stay what they are
  induction l using List.reverseRecOn with
  | nil => rfl
  | append_singleton l a ih =>
    have hold := ih (fun b hb => hseen b (List.mem_append_left [a] hb))
      fun b hb c hc => hkey b (List.mem_append_left [a] hb) c (List.mem_append_left [a] hc)
    have hmem : a ∈ l ++ [a] := List.mem_append_right l List.mem_cons_self
    rw [List.filter_append, distinctOnAfter_append, hold, firstWith_append_singleton]
    congr 1
    by_cases hp : p a = true
    · have hiff : key a ∈ (l.filter p).map key ++ seen ↔ key a ∈ l.map key := by
        rw [List.mem_append]
        constructor
        · rintro (h | h)
          · obtain ⟨b, hb, hk⟩ := List.mem_map.1 h
            exact List.mem_map.2 ⟨b, (List.mem_filter.1 hb).1, hk⟩
          · exact absurd h (hseen a hmem hp)
        · intro h
          obtain ⟨b, hb, hk⟩ := List.mem_map.1 h
          have hpb : p b = true := (hkey b (List.mem_append_left [a] hb) a hmem hk).trans hp
          exact Or.inl (List.mem_map.2 ⟨b, List.mem_filter.2 ⟨hb, hpb⟩, hk⟩)
      rw [List.filter_cons_of_pos hp, List.filter_nil, distinctOnAfter, distinctOnAfter]
      simp only [hiff, hp, and_true]
      by_cases h : key a ∈ l.map key
      · rw [if_pos h, if_neg (not_not_intro h)]
      · rw [if_neg h, if_pos h, distinctOnAfter]
    · rw [List.filter_cons_of_neg hp, List.filter_nil, distinctOnAfter,
        if_neg fun h => hp h.2]

end Positions

/-! ### Documents that reach an engine -/

/-- **The supporting documents that reach an engine**: the first of each path, unless a tested
document declares its name. -/
def reaching (tested supporting : List SourceDocument) : List SourceDocument :=
  firstWith (·.path) (fun d => !(tested.map (·.name)).contains d.name) supporting

/-- The document of a call that hands one over. -/
def EngineCall.document? : EngineCall → Option SourceDocument
  | addSource document | addLibrary document => some document
  | _ => none

theorem EngineCall.document?_of_source? {c : EngineCall} {d : SourceDocument}
    (h : c.source? = some d) : c.document? = some d := by
  cases c with
  | addSource document => exact h
  | _ => cases h

theorem EngineCall.document?_of_library? {c : EngineCall} {d : SourceDocument}
    (h : c.library? = some d) : c.document? = some d := by
  cases c with
  | addLibrary document => exact h
  | _ => cases h

section Calls

variable (tested supporting : List SourceDocument) (features : Option FeatureSet)

theorem restriction_eq :
    restriction features = (features.toList.filter fun f => f.toList ≠ []).map .restrict := by
  cases features with
  | none => rfl
  | some f =>
    rw [restriction, FeatureSet.isEmpty]
    by_cases hf : f.toList = []
    · simp [hf]
    · simp [hf]

/-- The documents handed over in one way: all of them, or none. -/
theorem filterMap_engineCalls (doc? : EngineCall → Option SourceDocument)
    (hrestrict : ∀ f, doc? (.restrict f) = none) (hbuild : doc? .build = none)
    (hsource : ∀ d, doc? (.addSource d) = some d) (useAllFiles : Bool) :
    (engineCalls tested supporting features useAllFiles).filterMap doc? =
      tested ++ (unshadowed tested supporting).filterMap
        fun d => doc? (if useAllFiles then .addSource d else .addLibrary d) := by
  have hnone : (restriction features).filterMap doc? = [] := by
    refine List.filterMap_eq_nil_iff.2 fun c hc => ?_
    rw [restriction_eq] at hc
    obtain ⟨f, -, rfl⟩ := List.mem_map.1 hc
    exact hrestrict f
  have htested : (tested.map EngineCall.addSource).filterMap doc? = tested := by
    rw [List.filterMap_map]
    exact (List.filterMap_congr fun d _ => hsource d).trans List.filterMap_some
  rw [engineCalls, List.filterMap_append, List.filterMap_append, List.filterMap_append, hnone,
    htested, List.filterMap_cons, hbuild, List.filterMap_nil, List.append_nil, List.nil_append,
    List.filterMap_map]
  cases useAllFiles <;> rfl

/-- The documents to be validated: the tested ones, and the others if all files are used. -/
theorem sources_engineCalls (useAllFiles : Bool) :
    (engineCalls tested supporting features useAllFiles).filterMap EngineCall.source? =
      tested ++ if useAllFiles then unshadowed tested supporting else [] := by
  rw [filterMap_engineCalls tested supporting features _ (fun _ => rfl) rfl fun _ => rfl]
  cases useAllFiles with
  | false => simp [EngineCall.source?]
  | true => simp [EngineCall.source?]

/-- The documents handed over do not depend on how they are. -/
theorem documents_engineCalls (useAllFiles : Bool) :
    (engineCalls tested supporting features useAllFiles).filterMap EngineCall.document? =
      tested ++ unshadowed tested supporting := by
  rw [filterMap_engineCalls tested supporting features _ (fun _ => rfl) rfl fun _ => rfl]
  cases useAllFiles with
  | false => simp [EngineCall.document?]
  | true => simp [EngineCall.document?]

end Calls

namespace FileTree

variable {t : FileTree} {primary supporting : List Path}

/-- A supporting document with the path of a tested one declares its name. -/
theorem name_mem_of_path_mem {d : SourceDocument} (hd : d ∈ t.documents supporting)
    (hpath : d.path ∈ (t.documents primary).map (·.path)) :
    d.name ∈ (t.documents primary).map (·.name) := by
  obtain ⟨e, he, hpath⟩ := List.mem_map.1 hpath
  obtain rfl : e = d := eq_of_path_eq he hd hpath
  exact List.mem_map_of_mem he

/-- What is left when tested names and known paths are dropped on the way is what is left when
names and positions are looked at. -/
theorem unshadowed_eq_reaching (t : FileTree) (primary supporting : List Path) :
    unshadowed (t.documents primary) (t.documents supporting) =
      reaching (t.documents primary) (t.documents supporting) := by
  refine distinctOnAfter_filter (fun d hd hnew hpath => ?_) fun d hd e he hpath => ?_
  · rw [List.contains_iff_mem.2 (name_mem_of_path_mem hd hpath)] at hnew
    cases hnew
  · rw [eq_of_path_eq hd he hpath]

/-- **The protocol of an engine.** If every source can be read, one engine is used. It is restricted
to the features exactly if there are some; it is handed every tested document, in order and to be
validated; then, in order, each supporting document that is the first with its path and whose name
no tested document declares; and then it builds, once. Otherwise no engine is used, and the first
source that cannot be read is the failure: one that is foreseen, with the reason, if the system can
be asked for that path. How supporting documents are handed over does not matter for which they
are. -/
theorem engine_protocol (t : FileTree) (engine : Engine) (primary supporting : List Path)
    (features : Option FeatureSet) (useAllFiles : Bool) :
    ((∀ p ∈ primary ++ supporting, t.Readable p) →
      (t.documents primary).map (·.path) = primary ∧
      (t.documents supporting).map (·.path) = supporting ∧
      (t.assemble engine primary supporting features useAllFiles).calls =
        some ((features.toList.filter fun f => f.toList ≠ []).map .restrict ++
          (t.documents primary).map .addSource ++
          (reaching (t.documents primary) (t.documents supporting)).map
            (if useAllFiles then .addSource else .addLibrary) ++
          [.build])) ∧
    (∀ before p after failure, primary ++ supporting = before ++ p :: after →
      (∀ q ∈ before, t.Readable q) → SourceDocument.read t p = .error failure →
      (t.assemble engine primary supporting features useAllFiles).result =
          .error (if p.isUsable then .unreadable p (failure.reason p) else .unusable p) ∧
        (t.assemble engine primary supporting features useAllFiles).calls = none) ∧
    (t.assemble engine primary supporting features true).calls.map
        (·.filterMap EngineCall.document?) =
      (t.assemble engine primary supporting features false).calls.map
        (·.filterMap EngineCall.document?) := by
  refine ⟨fun h => ⟨?_, ?_, ?_⟩, fun before p after failure hsplit hbefore hp => ?_, ?_⟩
  · exact map_path_documents fun p hp => h p (List.mem_append_left supporting hp)
  · exact map_path_documents fun p hp => h p (List.mem_append_right primary hp)
  · rw [calls_assemble_of_readable h, engineCalls, restriction_eq, unshadowed_eq_reaching]
  · rw [assemble_of_unreadable hsplit hbefore hp, ending_of_read hp]
    exact ⟨rfl, rfl⟩
  · rcases readable_or_first_unreadable t (primary ++ supporting) with
      h | ⟨before, p, after, failure, hsplit, hbefore, hp⟩
    · rw [calls_assemble_of_readable h, calls_assemble_of_readable h, Option.map_some,
        Option.map_some, documents_engineCalls, documents_engineCalls]
    · rw [assemble_of_unreadable hsplit hbefore hp, assemble_of_unreadable hsplit hbefore hp]

end FileTree

/-! ### Two files that declare one name -/

/-- A working directory with two files that declare `m`, and a file without a header below it. -/
def twinTree : FileTree where
  nodes :=
    [(["w"], .directory), (["w", "m.yang"], .file ("module m".toList.map (·.toUInt8))),
      (["w", "n.yang"], .file ("module m".toList.map (·.toUInt8))), (["w", "lib"], .directory),
      (["w", "lib", "k.yang"], .file [])]
  workingDirectory := ["w"]

/-- The document of one of the two files. -/
def twin (file : String) : SourceDocument where
  path := .ofText file
  text := "module m"
  name := "m"
  kind := some .main

/-- The document without a header. -/
def nameless : SourceDocument where
  path := .ofText "lib/k.yang"
  text := ""
  name := "k"

theorem read_twin {file : String} (h : file = "m.yang" ∨ file = "n.yang") :
    SourceDocument.read twinTree (.ofText file) = .ok (twin file) := by
  have htext : twinTree.readText (.ofText file) = .ok "module m" := by
    rcases h with rfl | rfl
    · cbv
    · cbv
  have hdocument : SourceDocument.ofText (.ofText file) "module m" = twin file := by
    rcases h with rfl | rfl
    · decide +kernel
    · decide +kernel
  rw [SourceDocument.read, htext, ← hdocument]
  rfl

theorem read_nameless : SourceDocument.read twinTree (.ofText "lib/k.yang") = .ok nameless := by
  cbv

namespace FileTree

/-- With one of the two files under test, the other one is dropped for its name, and the file below
is handed over once. With a file that does not exist nothing is handed over. -/
theorem engine_protocol_twins :
    (∀ p ∈ [Path.ofText "m.yang"] ++ ["n.yang", "lib/k.yang", "m.yang", "lib/k.yang"].map .ofText,
      twinTree.Readable p) ∧
    (twinTree.assemble (ShallowEngine.engine {}) [.ofText "m.yang"]
        (["n.yang", "lib/k.yang", "m.yang", "lib/k.yang"].map .ofText) none false).calls =
      some [.addSource (twin "m.yang"), .addLibrary nameless, .build] ∧
    SourceDocument.read twinTree (.ofText "gone.yang") = .error (.fault .notFound) ∧
    (twinTree.assemble (ShallowEngine.engine {}) [.ofText "m.yang"] [.ofText "gone.yang"]
        none false).result =
      .error (.unreadable (.ofText "gone.yang")
        "[Errno 2] No such file or directory: 'gone.yang'") ∧
    (twinTree.assemble (ShallowEngine.engine {}) [.ofText "m.yang"] [.ofText "gone.yang"]
        none false).calls = none := by
  have hread : ∀ p ∈ [Path.ofText "m.yang"] ++
      ["n.yang", "lib/k.yang", "m.yang", "lib/k.yang"].map .ofText, twinTree.Readable p := by
    intro p hp
    simp only [List.map_cons, List.map_nil, List.cons_append, List.nil_append, List.mem_cons,
      List.not_mem_nil, or_false] at hp
    rcases hp with rfl | rfl | rfl | rfl | rfl
    · exact ⟨_, read_twin (Or.inl rfl)⟩
    · exact ⟨_, read_twin (Or.inr rfl)⟩
    · exact ⟨_, read_nameless⟩
    · exact ⟨_, read_twin (Or.inl rfl)⟩
    · exact ⟨_, read_nameless⟩
  have hgone : SourceDocument.read twinTree (.ofText "gone.yang") = .error (.fault .notFound) := by
    cbv
  refine ⟨hread, ?_, hgone, ?_⟩
  · obtain ⟨-, -, hcalls⟩ := (engine_protocol twinTree (ShallowEngine.engine {})
      [.ofText "m.yang"] (["n.yang", "lib/k.yang", "m.yang", "lib/k.yang"].map .ofText)
      none false).1 hread
    rw [hcalls]
    simp only [List.map_cons, List.map_nil, documents_cons (read_twin (Or.inl rfl)),
      documents_cons (read_twin (Or.inr rfl)), documents_cons read_nameless]
    decide +kernel
  · have hfault := (engine_protocol twinTree (ShallowEngine.engine {}) [.ofText "m.yang"]
      [.ofText "gone.yang"] none false).2.1 [.ofText "m.yang"] (.ofText "gone.yang") []
      (.fault .notFound) rfl
      (List.forall_mem_singleton.2 ⟨_, read_twin (Or.inl rfl)⟩) hgone
    have hreason : (ReadFailure.fault .notFound).reason (.ofText "gone.yang") =
        "[Errno 2] No such file or directory: 'gone.yang'" := by cbv
    have hasked : (Path.ofText "gone.yang").isUsable = true := by decide
    rwa [hreason, if_pos hasked] at hfault

/-- A file that cannot be read, after one that can: the failure is not that of a file that cannot be
read, with whatever reason. -/
theorem result_assemble_twins_zero :
    ¬ twinTree.Readable (.ofText "a\x00.yang") ∧
    ∀ engine,
      let outcome := twinTree.assemble engine [.ofText "m.yang", .ofText "a\x00.yang"] [] none false
      outcome.calls = none ∧ outcome.result = .error (.unusable (.ofText "a\x00.yang")) ∧
      ∀ reason, outcome.result ≠ .error (.unreadable (.ofText "a\x00.yang") reason) := by
  have hasked : (Path.ofText "a\x00.yang").isUsable = false := by decide
  refine ⟨fun hread => absurd hread.isUsable (by simp [hasked]), fun engine => ?_⟩
  intro outcome
  have houtcome : outcome = { result := .error (.unusable (.ofText "a\x00.yang")) } :=
    assemble_of_unreadable (List.append_nil _)
      (List.forall_mem_singleton.2 ⟨_, read_twin (Or.inl rfl)⟩)
      (read_document_eq_unusable_iff.2 hasked)
  rw [houtcome]
  exact ⟨rfl, rfl, fun reason h => nomatch h⟩

end FileTree

/-! ### Names of the documents to be validated -/

section Names

variable {r : Request} {engine : Engine} {t : FileTree} {a : Assembly}

/-- No supporting source is listed twice. -/
theorem FileTree.nodup_supporting (t : FileTree) (o : ScanOptions) (libraries tests : List String) :
    (t.classify o libraries tests).1.supporting.Nodup :=
  (nodup_map_distinctOn t.place _).of_map

/-- Where no path is listed twice, only names decide what reaches an engine. -/
theorem FileTree.unshadowed_eq_filter {primary supporting : List Path}
    (hnodup : supporting.Nodup) (hread : ∀ p ∈ supporting, t.Readable p) :
    unshadowed (t.documents primary) (t.documents supporting) =
      (t.documents supporting).filter fun d =>
        !((t.documents primary).map (·.name)).contains d.name := by
  have hpaths : ((t.documents supporting).map (·.path)).Nodup := by
    rwa [map_path_documents hread]
  refine distinctOnAfter_eq_self (hpaths.sublist (List.filter_sublist.map _)) fun d hd hpath => ?_
  obtain ⟨hd, hnew⟩ := List.mem_filter.1 hd
  rw [List.contains_iff_mem.2 (name_mem_of_path_mem hd hpath)] at hnew
  cases hnew

/-- The names of some documents, and of others with names of their own: they are different if the
names are on both sides. -/
theorem nodup_names_append_iff (tested library : List SourceDocument) :
    ((tested ++ library.filter fun d => !(tested.map (·.name)).contains d.name).map
        (·.name)).Nodup ↔
      (tested.map (·.name)).Nodup ∧
        ((library.map (·.name)).filter fun name => name ∉ tested.map (·.name)).Nodup := by
  have hfilter : (library.filter fun d => !(tested.map (·.name)).contains d.name).map (·.name) =
      (library.map (·.name)).filter fun name => name ∉ tested.map (·.name) := by
    rw [List.filter_map]
    congr 1
    refine List.filter_congr fun d _ => ?_
    rw [List.contains_eq_mem, Function.comp_apply, decide_not]
  rw [List.map_append, hfilter, List.nodup_append]
  constructor
  · rintro ⟨h₁, h₂, -⟩
    exact ⟨h₁, h₂⟩
  · rintro ⟨h₁, h₂⟩
    refine ⟨h₁, h₂, fun name hname name' hname' heq => ?_⟩
    have hnew := (List.mem_filter.1 hname').2
    simp only [decide_eq_true_eq] at hnew
    exact hnew (heq ▸ hname)

/-- **Names of the documents to be validated.** They are different exactly if the tested documents
declare different names and, when all files are used, so do the supporting ones whose names no
tested document declares. In any case a tested document wins: what comes from no file under test
declares none of the tested names. -/
theorem nodup_names_sources_iff (hrun : (r.run engine t).result = .ok a) :
    ∃ calls, (r.run engine t).calls = some calls ∧
      (((calls.filterMap EngineCall.source?).map (·.name)).Nodup ↔
        ((t.documents a.sources.primary).map (·.name)).Nodup ∧
        (r.useAllFiles = true →
          (((t.documents a.sources.supporting).map (·.name)).filter fun name =>
            name ∉ (t.documents a.sources.primary).map (·.name)).Nodup)) ∧
      ∀ d ∈ calls.filterMap EngineCall.source?, d.path ∉ a.sources.primary →
        d.name ∉ (t.documents a.sources.primary).map (·.name) := by
  have hrun := Request.completed_of_run hrun
  have hnodup : a.sources.supporting.Nodup := by
    rw [hrun.sources_eq]
    exact t.nodup_supporting _ _ _
  refine ⟨_, hrun.calls_eq, ?_⟩
  rw [Request.callsFor, sources_engineCalls, FileTree.unshadowed_eq_filter hnodup fun p hp =>
    hrun.readable p (List.mem_append_right a.sources.primary hp)]
  generalize htested : t.documents a.sources.primary = tested
  generalize t.documents a.sources.supporting = library
  constructor
  · cases r.useAllFiles with
    | false => simp
    | true =>
      rw [if_pos rfl, nodup_names_append_iff]
      exact and_congr_right fun _ => ⟨fun h _ => h, fun h => h rfl⟩
  · intro d hd hpath
    rcases List.mem_append.1 hd with hd | hd
    · rw [← htested] at hd
      exact absurd (FileTree.mem_documents_iff.1 hd).1 hpath
    · cases hall : r.useAllFiles with
      | false =>
        rw [hall] at hd
        cases hd
      | true =>
        rw [hall, if_pos rfl] at hd
        simpa [List.contains_eq_mem] using (List.mem_filter.1 hd).2

end Names

/-- Both files are under test. -/
def bothTested : Request where
  tests := ["m.yang", "n.yang"]

/-- Both files are found in a library, and all files are used. -/
def bothFound : Request where
  libraries := ["."]
  useAllFiles := true

theorem scan_twins :
    twinTree.scan {} (.ofText ".") =
      [.file (.ofText "m.yang"), .file (.ofText "n.yang")] := by
  cbv

/-- Either way the working directory is the one root. -/
theorem sources_twins {libraries tests : List String}
    (h : (libraries, tests) = ([], ["m.yang", "n.yang"]) ∨ (libraries, tests) = (["."], [])) :
    (twinTree.classify {} libraries tests).1 =
      { primary := tests.map .ofText
        supporting := [.ofText "m.yang", .ofText "n.yang"]
        roots := ["."]
        ignored := [] } := by
  have hroots : twinTree.libraryRoots (tests.map .ofText) libraries = ["."] := by
    rcases h with h | h
    all_goals
      cases h
      cbv
  have htests : tests.filter (FileTree.isSourceText schemaExtension) = tests := by
    rcases h with h | h
    all_goals
      cases h
      cbv
  have hplaces : distinctOn twinTree.place [.ofText "m.yang", .ofText "n.yang"] =
      [.ofText "m.yang", .ofText "n.yang"] := by cbv
  have hignored : tests.filter (fun text => !FileTree.isSourceText schemaExtension text) = [] := by
    rw [← htests, List.filter_filter]
    simp
  simp only [FileTree.classify, htests, hroots, hignored, FileTree.scanRoots, List.flatMap_cons,
    List.flatMap_nil, List.append_nil, scan_twins, List.filterMap_cons, List.filterMap_nil,
    Finding.file?, hplaces]

theorem readable_twins : ∀ p ∈ [Path.ofText "m.yang", .ofText "n.yang"], twinTree.Readable p :=
  List.forall_mem_cons.2 ⟨⟨_, read_twin (Or.inl rfl)⟩,
    List.forall_mem_singleton.2 ⟨_, read_twin (Or.inr rfl)⟩⟩

theorem documents_twins :
    twinTree.documents [.ofText "m.yang", .ofText "n.yang"] = [twin "m.yang", twin "n.yang"] := by
  rw [FileTree.documents_cons (read_twin (Or.inl rfl)),
    FileTree.documents_cons (read_twin (Or.inr rfl))]
  rfl

/-- Both requests have a result, and both files are to be validated. -/
theorem result_twins {r : Request} (hr : r = bothTested ∨ r = bothFound) :
    ∃ a, (r.run (ShallowEngine.engine {}) twinTree).result = .ok a ∧
      a.sources.primary = r.tests.map .ofText ∧
      ∃ calls, (r.run (ShallowEngine.engine {}) twinTree).calls = some calls ∧
        (calls.filterMap EngineCall.source?).map (·.name) = ["m", "m"] := by
  have hsources : (twinTree.classify r.scanOptions r.libraries r.tests).1 =
      { primary := r.tests.map .ofText
        supporting := [.ofText "m.yang", .ofText "n.yang"]
        roots := ["."]
        ignored := [] } := by
    rcases hr with rfl | rfl
    · exact sources_twins (Or.inl rfl)
    · exact sources_twins (Or.inr rfl)
  have hresult : ∃ a, (r.run (ShallowEngine.engine {}) twinTree).result = .ok a := by
    refine Request.exists_result hsources (List.forall_mem_singleton.2 (by decide)) (fun _ => rfl)
      ?_ rfl fun h => ?_
    · rcases hr with rfl | rfl
      · exact List.forall_mem_append.2 ⟨readable_twins, readable_twins⟩
      · exact readable_twins
    · rcases hr with rfl | rfl
      · cases h
      · cases h
  obtain ⟨a, ha⟩ := hresult
  have hrun := Request.completed_of_run ha
  have ha_sources := hrun.sources_eq.trans hsources
  refine ⟨a, ha, by rw [ha_sources], _, hrun.calls_eq, ?_⟩
  rw [ha_sources, Request.callsFor, documents_twins]
  rcases hr with rfl | rfl
  · rw [show bothTested.tests.map .ofText = [Path.ofText "m.yang", .ofText "n.yang"] from rfl,
      documents_twins]
    decide +kernel
  · decide +kernel

/-- Two files under test may declare one name, and so may two files of a library. -/
theorem names_sources_repeat :
    (∃ a calls, (bothTested.run (ShallowEngine.engine {}) twinTree).result = .ok a ∧
      (bothTested.run (ShallowEngine.engine {}) twinTree).calls = some calls ∧
      ¬((calls.filterMap EngineCall.source?).map (·.name)).Nodup) ∧
    ∃ a calls, (bothFound.run (ShallowEngine.engine {}) twinTree).result = .ok a ∧
      (bothFound.run (ShallowEngine.engine {}) twinTree).calls = some calls ∧
      ¬((calls.filterMap EngineCall.source?).map (·.name)).Nodup := by
  constructor
  · obtain ⟨a, ha, -, calls, hcalls, hnames⟩ := result_twins (Or.inl rfl)
    refine ⟨a, calls, ha, hcalls, ?_⟩
    rw [hnames]
    decide
  · obtain ⟨a, ha, -, calls, hcalls, hnames⟩ := result_twins (Or.inr rfl)
    refine ⟨a, calls, ha, hcalls, ?_⟩
    rw [hnames]
    decide

/-- With both files under test the tested names repeat, and with them those to be validated. -/
theorem nodup_names_sources_bothTested :
    ∃ a, (bothTested.run (ShallowEngine.engine {}) twinTree).result = .ok a ∧
      ¬((twinTree.documents a.sources.primary).map (·.name)).Nodup ∧
      ∃ calls, (bothTested.run (ShallowEngine.engine {}) twinTree).calls = some calls ∧
        ¬((calls.filterMap EngineCall.source?).map (·.name)).Nodup := by
  obtain ⟨a, ha, hprimary, -⟩ := result_twins (Or.inl rfl)
  obtain ⟨calls, hcalls, hiff, -⟩ := nodup_names_sources_iff ha
  have hrepeat : ¬((twinTree.documents a.sources.primary).map (·.name)).Nodup := by
    rw [hprimary, show bothTested.tests.map .ofText = [Path.ofText "m.yang", .ofText "n.yang"]
      from rfl, documents_twins]
    decide
  exact ⟨a, ha, hrepeat, calls, hcalls, fun h => hrepeat (hiff.1 h).1⟩

end SchemaAssembly
