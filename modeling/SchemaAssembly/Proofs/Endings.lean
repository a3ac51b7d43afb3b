import Mathlib
import SchemaAssembly.Proofs.Run

/-!
# How a request ends

A request goes through five stages, and the first of them that fails ends it: a file under test is
refused, a source cannot be read, the engine builds no model, a tested name has no unit; or there is
a result. None of these is what happens at a path that the system cannot be asked for: there the
request breaks off, with a failure that is not foreseen. `Request.Ends` says when each of these
happens, without running anything: what the result is, which calls an engine has received, and which
warnings have been given.

- `run_of_ends`: a request that ends in some way runs that way;
- `exists_ends`: every request ends in some way;
- `request_ends`: so there is exactly one, the one in which it runs.
-/

namespace SchemaAssembly

/-! ### Warnings -/

/-- Scanning gives no warning. -/
theorem log_filterMap_event? (found : List Finding) :
    Event.log .warning (found.filterMap Finding.event?) = [] := by
  refine Event.log_warning_eq_nil fun e he => ?_
  obtain ⟨finding, -, hevent⟩ := List.mem_filterMap.1 he
  cases finding <;> cases hevent <;> simp [Event.severity]

/-- Nor does sorting sources by role. -/
theorem FileTree.log_classify (t : FileTree) (o : ScanOptions) (libraries tests : List String) :
    Event.log .warning (t.classify o libraries tests).2 = [] := by
  rw [classify, Event.log_append, log_filterMap_event?, List.nil_append]
  exact Event.log_warning_eq_nil fun e he => by
    rw [List.mem_singleton.1 he]
    simp [Event.severity]

/-- Nor does passing over a document that is shadowed. -/
theorem log_shadowEvents (tested supporting : List SourceDocument) :
    Event.log .warning (shadowEvents tested supporting) = [] :=
  Event.log_warning_eq_nil (List.forall_mem_map.2 fun d _ => by simp [Event.severity])

/-! ### Names without a unit -/

namespace SchemaModel

variable {m : SchemaModel} {names : List String} {name : String}

/-- **Unmatched names** are those that no unit has. -/
theorem mem_unmatched : name ∈ m.unmatched names ↔ name ∈ names ∧ ∀ u ∈ m.units, u.name ≠ name := by
  simp [unmatched, contains]

/-- They are listed in strictly ascending order. -/
theorem pairwise_unmatched (m : SchemaModel) (names : List String) :
    (m.unmatched names).Pairwise (· < ·) :=
  (pairwise_lt_sortedSet names).filter _

/-- A selection that must match everything fails for any name without a unit. -/
theorem select_of_unmatched (h : m.unmatched names ≠ []) :
    m.select names true = .error (.unmatched (m.unmatched names)) := by
  have hsorted : (m.unmatched names).Pairwise (· ≤ ·) :=
    (m.pairwise_unmatched names).imp fun hlt => String.not_lt.1 (String.lt_asymm hlt)
  simp [select, Failure.ofUnmatched, h, sortTexts_eq_self hsorted]

/-- A selection that need not match everything succeeds, and so does one that matches it. -/
theorem select_of_matched {strict : Bool} (h : strict = true → m.unmatched names = []) :
    m.select names strict = .ok (m.tested names, (m.unmatched names).map .unmatched) := by
  cases strict with
  | false => exact m.select_eq_ok names
  | true => simp [select, h rfl]

end SchemaModel

/-! ### The five endings -/

namespace Request

/-- The sources of a request by role. -/
def sources (r : Request) (t : FileTree) : SourceSet :=
  (t.classify r.scanOptions r.libraries r.tests).1

/-- The names that the sources under test declare, in the order given. -/
def declaredNames (r : Request) (t : FileTree) : List String :=
  (t.documents (r.sources t).primary).map (·.name)

/-- The system can be asked for every library root. -/
def RootsUsable (r : Request) (t : FileTree) : Prop :=
  (r.sources t).RootsUsable

/-- No file under test is refused. -/
def Accepts (r : Request) : Prop :=
  r.strictExtensions = true → ∀ text ∈ r.tests, FileTree.isSourceText r.extension text = true

/-- All sources can be read. -/
def AllReadable (r : Request) (t : FileTree) : Prop :=
  ∀ p ∈ (r.sources t).primary ++ (r.sources t).supporting, t.Readable p

/-- The warnings about files under test that are passed over. -/
def passedOver (r : Request) : List String :=
  (r.tests.filter fun text => !FileTree.isSourceText r.extension text).map fun text =>
    (Event.ignored text r.extension).line

/-- **How a request ends**: with its result, the calls to an engine if there is one, and the
warnings. Five of the endings are foreseen. The other two are paths that the system cannot be asked
for, among the roots and among the sources. -/
inductive Ends (r : Request) (engine : Engine) (t : FileTree) :
    Except Failure Assembly → Option (List EngineCall) → List String → Prop
  /-- the scan of a root breaks off, and nothing else is done -/
  | brokenOff {before after : List String} {root : String} :
    (r.sources t).roots = before ++ root :: after →
    (∀ other ∈ before, (Path.ofText other).isUsable = true) →
    (Path.ofText root).isUsable = false →
    Ends r engine t (.error (.unusable (.ofText root))) none []
  /-- the first file under test that is no source is refused, and nothing else is done -/
  | refused {before after : List String} {path : String} : r.RootsUsable t →
    r.strictExtensions = true → r.tests = before ++ path :: after →
    (∀ text ∈ before, FileTree.isSourceText r.extension text = true) →
    FileTree.isSourceText r.extension path = false →
    Ends r engine t (.error (.notASource path)) none []
  /-- the first source that cannot be read ends it, before there is an engine -/
  | unreadable {before after : List Path} {p : Path} {failure : ReadFailure} : r.RootsUsable t →
    r.Accepts → (r.sources t).primary ++ (r.sources t).supporting = before ++ p :: after →
    (∀ q ∈ before, t.Readable q) → SourceDocument.read t p = .error failure → p.isUsable = true →
    Ends r engine t (.error (.unreadable p (failure.reason p))) none r.passedOver
  /-- it breaks off there if the system cannot be asked for that source -/
  | unusable {before after : List Path} {p : Path} : r.RootsUsable t → r.Accepts →
    (r.sources t).primary ++ (r.sources t).supporting = before ++ p :: after →
    (∀ q ∈ before, t.Readable q) → p.isUsable = false →
    Ends r engine t (.error (.unusable p)) none r.passedOver
  /-- the engine builds no model, and its failure is passed on -/
  | unbuildable {messages : List String} : r.RootsUsable t → r.Accepts → r.AllReadable t →
    (engine (r.callsFor t (r.sources t))).outcome = .error messages →
    Ends r engine t
      (.error (.unbuildable messages (engine (r.callsFor t (r.sources t))).summary))
      (some (r.callsFor t (r.sources t)))
      (r.passedOver ++ Event.log .warning (engine (r.callsFor t (r.sources t))).events)
  /-- a name has no unit although every name must have one -/
  | unmatched {model : SchemaModel} : r.RootsUsable t → r.Accepts → r.AllReadable t →
    (engine (r.callsFor t (r.sources t))).outcome = .ok model → r.requireTestedMatch = true →
    model.unmatched (r.declaredNames t) ≠ [] →
    Ends r engine t (.error (.unmatched (model.unmatched (r.declaredNames t))))
      (some (r.callsFor t (r.sources t)))
      (r.passedOver ++ Event.log .warning (engine (r.callsFor t (r.sources t))).events)
  /-- there is a result, and each name without a unit is warned about -/
  | completed {model : SchemaModel} : r.RootsUsable t → r.Accepts → r.AllReadable t →
    (engine (r.callsFor t (r.sources t))).outcome = .ok model →
    (r.requireTestedMatch = true → model.unmatched (r.declaredNames t) = []) →
    Ends r engine t
      (.ok ⟨model, r.declaredNames t, model.tested (r.declaredNames t), r.sources t⟩)
      (some (r.callsFor t (r.sources t)))
      (r.passedOver ++ Event.log .warning (engine (r.callsFor t (r.sources t))).events ++
        (model.unmatched (r.declaredNames t)).map fun name => (Event.unmatched name).line)

variable {r : Request} {engine : Engine} {t : FileTree} {result : Except Failure Assembly}
  {calls : Option (List EngineCall)} {warnings : List String}

/-! ### Stage by stage -/

/-- The first file under test that is refused ends the run, and nothing but sorting has been done. -/
theorem run_of_refused {before after : List String} {path : String} (husable : r.RootsUsable t)
    (hstrict : r.strictExtensions = true) (htests : r.tests = before ++ path :: after)
    (hbefore : ∀ text ∈ before, FileTree.isSourceText r.extension text = true)
    (hpath : FileTree.isSourceText r.extension path = false) :
    r.run engine t =
      { result := .error (.notASource path)
        events := (t.classify r.scanOptions r.libraries r.tests).2 } := by
  have hignored : (t.classify r.scanOptions r.libraries r.tests).1.ignored =
      path :: after.filter fun text => !FileTree.isSourceText r.extension text := by
    have hnone : before.filter (fun text => !FileTree.isSourceText r.extension text) = [] :=
      List.filter_eq_nil_iff.2 fun text htext => by simp [hbefore text htext]
    change r.tests.filter (fun text => !FileTree.isSourceText r.extension text) = _
    rw [htests, List.filter_append, hnone, List.nil_append, List.filter_cons_of_pos]
    rw [hpath]
    rfl
  rw [run_of_rootsUsable husable, hstrict, hignored]

/-- Otherwise the sources are assembled, and files that are passed over are reported before. -/
theorem run_of_accepts (husable : r.RootsUsable t) (h : r.Accepts) :
    r.run engine t = (r.runWith engine t (r.sources t)).after
      ((t.classify r.scanOptions r.libraries r.tests).2 ++
        (r.sources t).ignored.map fun path => .ignored path r.extension) := by
  rw [run_of_rootsUsable husable]
  split
  · -- a file that is passed over would have been refused
    rename_i path rest hstrict hignored
    have hpath : path ∈ (r.sources t).ignored := by
      rw [sources, hignored]
      exact List.mem_cons_self
    obtain ⟨hmem, hpath⟩ := List.mem_filter.1 hpath
    rw [Bool.not_eq_true'] at hpath
    exact absurd (h hstrict path hmem) (by simpa [scanOptions] using hpath)
  · rfl

/-- The warnings of a run that is not refused: first those about files passed over. -/
theorem log_run_of_accepts (husable : r.RootsUsable t) (h : r.Accepts) :
    Event.log .warning (r.run engine t).events =
      r.passedOver ++ Event.log .warning (r.runWith engine t (r.sources t)).events := by
  rw [run_of_accepts husable h, Outcome.after, Event.log_append, Event.log_append, FileTree.log_classify,
    Event.log_ignored, List.nil_append]
  rfl

/-- Once a model is built, what remains is to select the tested units. -/
theorem runWith_of_built {model : SchemaModel} (hread : r.AllReadable t)
    (hbuilt : (engine (r.callsFor t (r.sources t))).outcome = .ok model) :
    r.runWith engine t (r.sources t) =
      Outcome.andThen
        { result := .ok (model, r.declaredNames t)
          events := shadowEvents (t.documents (r.sources t).primary)
              (t.documents (r.sources t).supporting) ++
            (engine (r.callsFor t (r.sources t))).events ++ [.built model.size]
          calls := some (r.callsFor t (r.sources t)) }
        fun (model, names) => do
          let (testedUnits, events) ← model.select names r.requireTestedMatch
          return (⟨model, names, testedUnits, r.sources t⟩, events) := by
  rw [runWith, FileTree.assemble_of_built hread hbuilt]
  rfl

/-- **A request that ends in some way runs that way.** -/
theorem run_of_ends (h : r.Ends engine t result calls warnings) :
    (r.run engine t).result = result ∧ (r.run engine t).calls = calls ∧
      Event.log .warning (r.run engine t).events = warnings := by
  cases h with
  | brokenOff hroots hbefore hroot =>
    rw [run_of_unusable_root hroots hbefore hroot]
    exact ⟨rfl, rfl, log_filterMap_event? _⟩
  | refused husable hstrict htests hbefore hpath =>
    rw [run_of_refused husable hstrict htests hbefore hpath]
    exact ⟨rfl, rfl, t.log_classify r.scanOptions r.libraries r.tests⟩
  | unreadable husable haccepts hsplit hbefore hp hasked =>
    rw [log_run_of_accepts husable haccepts, run_of_accepts husable haccepts, runWith,
      FileTree.assemble_of_unreadable hsplit hbefore hp, FileTree.ending_of_read hp, if_pos hasked]
    exact ⟨rfl, rfl, List.append_nil _⟩
  | unusable husable haccepts hsplit hbefore hasked =>
    rw [log_run_of_accepts husable haccepts, run_of_accepts husable haccepts, runWith,
      FileTree.assemble_of_unreadable hsplit hbefore
        (FileTree.read_document_eq_unusable_iff.2 hasked)]
    exact ⟨rfl, rfl, List.append_nil _⟩
  | unbuildable husable haccepts hread hfailed =>
    rw [log_run_of_accepts husable haccepts, run_of_accepts husable haccepts, runWith,
      FileTree.assemble_of_unbuildable hread hfailed]
    refine ⟨rfl, rfl, ?_⟩
    -- of what assembling reports, only what the engine says can be a warning
    simp only [Outcome.andThen, Event.log_append, log_shadowEvents, List.nil_append]
    rfl
  | unmatched husable haccepts hread hbuilt hmatch hunmatched =>
    rw [log_run_of_accepts husable haccepts, run_of_accepts husable haccepts,
      runWith_of_built hread hbuilt, hmatch]
    simp only [SchemaModel.select_of_unmatched hunmatched, Outcome.andThen, Outcome.after, bind,
      Except.bind, Event.log_append, log_shadowEvents, Event.log_built, List.nil_append,
      List.append_nil, and_self]
  | completed husable haccepts hread hbuilt hmatch =>
    rw [log_run_of_accepts husable haccepts, run_of_accepts husable haccepts,
      runWith_of_built hread hbuilt]
    simp only [SchemaModel.select_of_matched hmatch, Outcome.andThen, Outcome.after, bind,
      Except.bind, pure, Except.pure, Event.log_append, log_shadowEvents, Event.log_built,
      Event.log_unmatched, List.nil_append, List.append_assoc, and_self]

/-- Either no file under test is refused, or there is a first one that is. -/
theorem accepts_or_first_refused (r : Request) :
    r.Accepts ∨ r.strictExtensions = true ∧ ∃ before path after, r.tests = before ++ path :: after ∧
      (∀ text ∈ before, FileTree.isSourceText r.extension text = true) ∧
        FileTree.isSourceText r.extension path = false := by
  by_cases hstrict : r.strictExtensions = true
  · rcases forall_or_exists_first (FileTree.isSourceText r.extension) r.tests with hall | hfirst
    · exact Or.inl fun _ => hall
    · exact Or.inr ⟨hstrict, hfirst⟩
  · exact Or.inl fun h => absurd h hstrict

/-- **Every request ends in some way.** -/
theorem exists_ends (r : Request) (engine : Engine) (t : FileTree) :
    ∃ result calls warnings, r.Ends engine t result calls warnings := by
  rcases FileTree.rootsUsable_or_first_unusable (r.sources t) with
    husable | ⟨_, _, _, hroots, hbefore, hroot⟩
  rotate_left
  · exact ⟨_, _, _, .brokenOff hroots hbefore hroot⟩
  rcases r.accepts_or_first_refused with haccepts | ⟨hstrict, _, _, _, htests, hbefore, hpath⟩
  rotate_left
  · exact ⟨_, _, _, .refused husable hstrict htests hbefore hpath⟩
  rcases FileTree.readable_or_first_unreadable t
      ((r.sources t).primary ++ (r.sources t).supporting) with
    hread | ⟨_, p, _, _, hsplit, hbefore, hp⟩
  rotate_left
  · cases hasked : p.isUsable with
    | true => exact ⟨_, _, _, .unreadable husable haccepts hsplit hbefore hp hasked⟩
    | false => exact ⟨_, _, _, .unusable husable haccepts hsplit hbefore hasked⟩
  cases houtcome : (engine (r.callsFor t (r.sources t))).outcome with
  | error messages => exact ⟨_, _, _, .unbuildable husable haccepts hread houtcome⟩
  | ok model =>
    by_cases hmatch : r.requireTestedMatch = true → model.unmatched (r.declaredNames t) = []
    · exact ⟨_, _, _, .completed husable haccepts hread houtcome hmatch⟩
    · obtain ⟨hrequire, hunmatched⟩ := Classical.not_imp.1 hmatch
      exact ⟨_, _, _, .unmatched husable haccepts hread houtcome hrequire hunmatched⟩

/-- **What a request breaks off at**: a library root or a file under test. -/
theorem mem_roots_or_mem_primary_of_unusable {p : Path}
    (h : (r.run engine t).result = .error (.unusable p)) :
    p.isUsable = false ∧ (p ∈ (r.sources t).roots.map Path.ofText ∨ p ∈ (r.sources t).primary) := by
  obtain ⟨result, calls, warnings, hends⟩ := exists_ends r engine t
  obtain rfl := (run_of_ends hends).1.symm.trans h
  cases hends with
  | @brokenOff before after root hroots _ hroot =>
    refine ⟨hroot, Or.inl (List.mem_map_of_mem ?_)⟩
    rw [hroots]
    exact List.mem_append_right before List.mem_cons_self
  | @unusable before after _ _ _ hsplit _ hasked =>
    have hmem : p ∈ (r.sources t).primary ++ (r.sources t).supporting := by
      rw [hsplit]
      exact List.mem_append_right before List.mem_cons_self
    refine ⟨hasked, Or.inr ((List.mem_append.1 hmem).resolve_right fun hsupporting => ?_)⟩
    -- what a scan has found is no such path
    rw [FileTree.isUsable_of_mem_supporting hsupporting] at hasked
    cases hasked

/-- **How requests end.** There is exactly one way in which a request ends, and it is the result, the
calls and the warnings of the run. It is one of the five that are foreseen, unless the system cannot be
asked for a library root or for a file under test, which is where the run breaks off.

If a file under test is refused, all that has been done is to sort sources by role. Once all sources
can be read, the declared names are those of one document for each file under test that is a source,
in the order given. The names that are told to have no unit are those declared names that no unit has,
in strictly ascending order. -/
theorem request_ends (r : Request) (engine : Engine) (t : FileTree) :
    (∀ result calls warnings, r.Ends engine t result calls warnings ↔
      (r.run engine t).result = result ∧ (r.run engine t).calls = calls ∧
        Event.log .warning (r.run engine t).events = warnings) ∧
    (∀ p, (r.run engine t).result = .error (.unusable p) →
      p.isUsable = false ∧
        (p ∈ (r.sources t).roots.map Path.ofText ∨ p ∈ (r.sources t).primary)) ∧
    (∀ path, (r.run engine t).result = .error (.notASource path) →
      r.run engine t =
        { result := .error (.notASource path)
          events := (t.classify r.scanOptions r.libraries r.tests).2 }) ∧
    (r.AllReadable t → (t.documents (r.sources t).primary).map (·.path) =
      (r.tests.filter (FileTree.isSourceText r.extension)).map .ofText) ∧
    ∀ model : SchemaModel, (model.unmatched (r.declaredNames t)).Pairwise (· < ·) ∧
      ∀ name, name ∈ model.unmatched (r.declaredNames t) ↔
        name ∈ r.declaredNames t ∧ ∀ u ∈ model.units, u.name ≠ name := by
  obtain ⟨result, calls, warnings, hends⟩ := exists_ends r engine t
  obtain ⟨hresult, hcalls, hwarnings⟩ := run_of_ends hends
  refine ⟨fun _ _ _ => ⟨run_of_ends, ?_⟩, fun p => mem_roots_or_mem_primary_of_unusable,
    fun path hpath => ?_,
    fun hread => FileTree.map_path_documents fun p hp => hread p (List.mem_append_left _ hp),
    fun model => ⟨model.pairwise_unmatched _, fun name => SchemaModel.mem_unmatched⟩⟩
  · rintro ⟨rfl, rfl, rfl⟩
    rwa [hresult, hcalls, hwarnings]
  · obtain rfl := hresult.symm.trans hpath
    cases hends with
    | refused husable hstrict htests hbefore hrefused =>
      exact run_of_refused husable hstrict htests hbefore hrefused

/-! ### Paths that hold the character zero -/

/-- A tree without any files. -/
def bare : FileTree := ⟨[], []⟩

/-- A file under test that the system cannot be asked for. -/
def zeroTest : Request where
  tests := ["a\x00.yang"]

/-- A library root that the system cannot be asked for. -/
def zeroLibrary : Request where
  libraries := ["b\x00c"]

theorem sources_zeroTest : zeroTest.sources bare =
    { primary := [.ofText "a\x00.yang"], supporting := [], roots := ["."], ignored := [] } := by
  cbv

theorem roots_zeroLibrary : (zeroLibrary.sources bare).roots = ["b\x00c"] := by
  cbv

/-- **Neither ends in one of the five foreseen ways.** The file cannot be read, but that is not how the
request fails; and the library root is not passed over as one that cannot be listed. -/
theorem result_zero :
    ¬ bare.Readable (.ofText "a\x00.yang") ∧
    ∀ engine, (zeroTest.run engine bare).result = .error (.unusable (.ofText "a\x00.yang")) ∧
      (zeroTest.run engine bare).calls = none ∧
      (zeroLibrary.run engine bare).result = .error (.unusable (.ofText "b\x00c")) ∧
      (zeroLibrary.run engine bare).calls = none := by
  have hasked : (Path.ofText "a\x00.yang").isUsable = false := by decide
  have husable : zeroTest.RootsUsable bare := by
    intro root hroot
    rw [sources_zeroTest, List.mem_singleton] at hroot
    rw [hroot]
    decide
  have hsplit : (zeroTest.sources bare).primary ++ (zeroTest.sources bare).supporting =
      [] ++ .ofText "a\x00.yang" :: [] := by
    rw [sources_zeroTest]
    rfl
  refine ⟨fun hread => absurd hread.isUsable (by simp [hasked]), fun engine => ?_⟩
  have htest := run_of_ends (@Ends.unusable zeroTest engine bare [] [] _ husable
    (fun hstrict => Bool.noConfusion hstrict) hsplit (List.forall_mem_nil _) hasked)
  have hlibrary := run_of_ends (@Ends.brokenOff zeroLibrary engine bare [] [] _ roots_zeroLibrary
    (List.forall_mem_nil _) (by decide))
  exact ⟨htest.1, htest.2.1, hlibrary.1, hlibrary.2.1⟩

end Request

end SchemaAssembly
