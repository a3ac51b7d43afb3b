import Mathlib
import SchemaAssembly.Proofs.FeatureSets
import SchemaAssembly.Proofs.Results
import SchemaAssembly.Settings.Load

/-!
# Settings laid over settings

Settings that have come about in whatever way — from nothing, from a file, by laying something over
others — have features that can be read (`Settings.Reachable.firstInvalid?_features`). That is why
laying an overlay of texts and flags over them fails for the overlay's own features or not at all
(`Settings.Reachable.merged_of_adds`), and why it makes no difference whether overlays are laid one
after the other or joined first (`Settings.overlay_action`).

`Settings.extended` is what comes out, with settings as what is added: lists one after the other,
and a flag on if it is on on either side. With it settings are a monoid, which overlays let act on
settings.
-/

namespace SchemaAssembly

/-! ### Checks -/

namespace Checked

variable {α β : Type} {a : Checked α} {b : Checked β}

/-- Two checks have both results, or what is wrong with either. -/
theorem both_eq_ok_iff {x : α} {y : β} : a.both b = .ok (x, y) ↔ a = .ok x ∧ b = .ok y := by
  cases a with
  | ok x' =>
    cases b with
    | ok y' => simp [both]
    | error complaints => simp [both]
  | error complaints =>
    cases b with
    | ok y' => simp [both]
    | error complaints => simp [both]

theorem map_eq_ok_iff {f : α → β} {y : β} : a.map f = .ok y ↔ ∃ x, a = .ok x ∧ f x = y := by
  cases a with
  | ok x => simp [Except.map]
  | error complaints => simp [Except.map]

end Checked

namespace Settings

open FeatureSet

section

variable {key : String} {items : List Value} {texts : List String}

theorem complaintsAbout_map_text (i : Nat) (texts : List String) :
    complaintsAbout key i (texts.map .text) = [] := by
  induction texts generalizing i with
  | nil => rfl
  | cons text rest ih =>
    rw [List.map_cons, complaintsAbout]
    exact ih (i + 1)

theorem eq_map_text_of_complaintsAbout {i : Nat} (h : complaintsAbout key i items = []) :
    items = (items.filterMap Value.text?).map .text := by
  induction items generalizing i with
  | nil => rfl
  | cons item rest ih =>
    rw [complaintsAbout] at h
    cases item with
    | text text => exact congrArg (Value.text text :: ·) (ih h)
    | _ => cases h

/-- **A list setting** is right exactly if all its items are texts. -/
theorem checkTexts_list_eq_ok_iff :
    checkTexts key (some (.list items)) = .ok texts ↔ items = texts.map .text := by
  rw [checkTexts, checkItems]
  constructor
  · intro h
    split at h
    · rename_i hnone
      cases h
      exact eq_map_text_of_complaintsAbout hnone
    · cases h
  · rintro rfl
    have htexts : (texts.map Value.text).filterMap Value.text? = texts := by
      rw [List.filterMap_map]
      exact List.filterMap_some
    rw [complaintsAbout_map_text, htexts]

/-- A list setting that begins with texts is right if what follows are texts. -/
theorem exists_texts_of_checkTexts {first : List String}
    (h : checkTexts key (some (.list (first.map .text ++ items))) = .ok texts) :
    ∃ second : List String, items = second.map .text ∧ texts = first ++ second := by
  obtain ⟨start, second, rfl, hstart, hsecond⟩ :=
    List.map_eq_append_iff.1 (checkTexts_list_eq_ok_iff.1 h).symm
  have hinjective : Function.Injective Value.text := fun _ _ h => Value.text.inj h
  obtain rfl : start = first := hinjective.list_map hstart
  exact ⟨second, hsecond.symm, rfl⟩

/-- **A list of features** is right if the first of them that is none is not there. -/
theorem checkFeatures_of_checkTexts {value : Option Value} (h : checkTexts key value = .ok texts) :
    checkFeatures key value =
      match firstInvalid? texts with
      | none => .ok texts
      | some e => .error [⟨[.key key], .badFeature e⟩] := by
  rw [checkFeatures, h]
  dsimp only
  rw [parse_eq]
  cases firstInvalid? texts <;> rfl

theorem checkFeatures_eq_ok_iff {value : Option Value} :
    checkFeatures key value = .ok texts ↔
      checkTexts key value = .ok texts ∧ firstInvalid? texts = none := by
  cases hvalue : checkTexts key value with
  | error complaints => simp [checkFeatures, hvalue]
  | ok identifiers =>
    rw [checkFeatures_of_checkTexts hvalue, Except.ok.injEq]
    constructor
    · intro h
      split at h
      · rename_i hnone
        cases h
        exact ⟨rfl, hnone⟩
      · cases h
    · rintro ⟨rfl, hnone⟩
      rw [hnone]

/-- Paths that are followed from nowhere stay as they are spelled. -/
theorem checkPaths_none (key : String) (value : Option Value) :
    checkPaths none key value = checkTexts key value := by
  have hid : (fun paths : List String => paths.map (fromBase none)) = id :=
    funext fun paths => List.map_id paths
  rw [checkPaths, hid]
  cases checkTexts key value <;> rfl

end

/-- Features that have been checked can be read. -/
theorem firstInvalid?_of_check {base : Option Path} {value : Value} {s : Settings}
    (h : check base value = .ok s) : firstInvalid? s.features = none := by
  cases value with
  | map entries =>
    rw [check, checkEntries] at h
    obtain ⟨⟨libraries, tests, features, rest⟩, hchecked, rfl⟩ := Checked.map_eq_ok_iff.1 h
    have hfeatures := (Checked.both_eq_ok_iff.1 (Checked.both_eq_ok_iff.1
      (Checked.both_eq_ok_iff.1 hchecked).2).2).1
    exact (checkFeatures_eq_ok_iff.1 hfeatures).2
  | _ => cases h

/-! ### What comes out -/

/-- **Settings with more**: lists are extended, and a flag is on if it is on on either side. -/
def extended (s more : Settings) : Settings where
  libraries := s.libraries ++ more.libraries
  tests := s.tests ++ more.tests
  features := s.features ++ more.features
  recursive := s.recursive || more.recursive
  useAllFiles := s.useAllFiles || more.useAllFiles
  strictExtensions := s.strictExtensions || more.strictExtensions
  requireTestedMatch := s.requireTestedMatch || more.requireTestedMatch

@[simp] theorem extended_default (s : Settings) : s.extended {} = s := by
  simp [extended]

@[simp] theorem default_extended (s : Settings) : ({} : Settings).extended s = s := by
  simp [extended]

theorem extended_assoc (s more still : Settings) :
    (s.extended more).extended still = s.extended (more.extended still) := by
  simp [extended, Bool.or_assoc]

/-- What settings have, others still have, and in the same places. -/
structure KeptIn (s s' : Settings) : Prop where
  libraries : s.libraries <+: s'.libraries
  tests : s.tests <+: s'.tests
  features : s.features <+: s'.features
  recursive : s.recursive = true → s'.recursive = true
  useAllFiles : s.useAllFiles = true → s'.useAllFiles = true
  strictExtensions : s.strictExtensions = true → s'.strictExtensions = true
  requireTestedMatch : s.requireTestedMatch = true → s'.requireTestedMatch = true

theorem keptIn_extended (s more : Settings) : s.KeptIn (s.extended more) where
  libraries := List.prefix_append s.libraries more.libraries
  tests := List.prefix_append s.tests more.tests
  features := List.prefix_append s.features more.features
  recursive := fun h => Bool.or_eq_true_iff.2 (Or.inl h)
  useAllFiles := fun h => Bool.or_eq_true_iff.2 (Or.inl h)
  strictExtensions := fun h => Bool.or_eq_true_iff.2 (Or.inl h)
  requireTestedMatch := fun h => Bool.or_eq_true_iff.2 (Or.inl h)

end Settings

/-! ### Overlays -/

namespace Overlay

/-- Whether an overlay turns a flag on. -/
def turnsOn (o : Overlay) (name : String) : Bool :=
  o.flags.any fun (flag, on) => flag = name && on

/-- **What an overlay adds**, if it is one of texts and known flags. -/
structure Adds (o : Overlay) (more : Settings) : Prop where
  libraries : o.libraries = more.libraries.map .text
  tests : o.tests = more.tests.map .text
  features : o.features = more.features.map .text
  known : ∀ flag ∈ o.flags, flag.1 ∈ Settings.flagNames
  recursive : o.turnsOn "recursive" = more.recursive
  useAllFiles : o.turnsOn "use_all_files" = more.useAllFiles
  strictExtensions : o.turnsOn "strict_extensions" = more.strictExtensions
  requireTestedMatch : o.turnsOn "require_tested_match" = more.requireTestedMatch

/-- Nothing is an overlay that adds nothing. -/
theorem adds_default : ({} : Overlay).Adds {} where
  libraries := rfl
  tests := rfl
  features := rfl
  known := List.forall_mem_nil _
  recursive := rfl
  useAllFiles := rfl
  strictExtensions := rfl
  requireTestedMatch := rfl

end Overlay

namespace Settings

open FeatureSet

variable {s : Settings} {o : Overlay} {more : Settings}

/-- **Checking what comes out**: nothing but the three lists can be wrong. -/
theorem check_overlaid (s : Settings) (o : Overlay) :
    check none (s.overlaid o) =
      ((checkTexts "lib_dirs" (some (.list (s.libraries.map .text ++ o.libraries)))).both <|
        (checkTexts "test_files" (some (.list (s.tests.map .text ++ o.tests)))).both <|
        checkFeatures "features" (some (.list (s.features.map .text ++ o.features)))).map
          fun (libraries, tests, features) =>
            { libraries, tests, features
              recursive := s.recursive || o.turnsOn "recursive"
              useAllFiles := s.useAllFiles || o.turnsOn "use_all_files"
              strictExtensions := s.strictExtensions || o.turnsOn "strict_extensions"
              requireTestedMatch := s.requireTestedMatch || o.turnsOn "require_tested_match" } := by
  have hkeys : ∀ libraries tests features recursive useAllFiles strictExtensions requireTestedMatch,
      checkKeys [(.text "lib_dirs", libraries), (.text "test_files", tests),
        (.text "features", features), (.text "recursive", recursive),
        (.text "use_all_files", useAllFiles), (.text "strict_extensions", strictExtensions),
        (.text "require_tested_match", requireTestedMatch)] = .ok () := fun _ _ _ _ _ _ _ => rfl
  rw [overlaid, check, checkEntries, hkeys]
  simp only [lookup, List.find?_cons, Value.text?, Option.some.injEq, String.reduceEq, decide_false,
    decide_true, Option.map_some, checkPaths_none]
  -- the flags and the keys are right, so that complaints come from the three lists alone
  generalize checkTexts "lib_dirs" _ = libraries
  generalize checkTexts "test_files" _ = tests
  generalize checkFeatures "features" _ = features
  cases libraries <;> cases tests <;> cases features <;> rfl

/-- **Known flags**: all of an overlay are if no name is left over. -/
theorem sortedSet_unknown_eq_nil_iff :
    sortedSet ((o.flags.map (·.1)).filter (· ∉ flagNames)) = [] ↔
      ∀ flag ∈ o.flags, flag.1 ∈ flagNames := by
  rw [sortedSet_eq_nil_iff, List.filter_eq_nil_iff, List.forall_mem_map]
  exact forall₂_congr fun flag _ => by simp

/-- **Overlaying texts and flags**: what comes out is right if all its features are. -/
theorem merged_of_adds (h : o.Adds more) :
    s.merged o =
      match firstInvalid? (s.extended more).features with
      | none => .ok (s.extended more)
      | some e => .error (.invalid [⟨[.key "features"], .badFeature e⟩]) := by
  have htexts : ∀ key (first second : List String),
      checkTexts key (some (.list (first.map .text ++ second.map .text))) = .ok (first ++ second) :=
    fun key first second => checkTexts_list_eq_ok_iff.2 List.map_append.symm
  rw [merged, sortedSet_unknown_eq_nil_iff.2 h.known]
  dsimp only
  rw [check_overlaid, h.libraries, h.tests, h.features, h.recursive,
    h.useAllFiles, h.strictExtensions, h.requireTestedMatch, htexts, htexts,
    checkFeatures_of_checkTexts (htexts _ _ _)]
  rw [show s.features ++ more.features = (s.extended more).features from rfl]
  cases firstInvalid? (s.extended more).features <;> rfl

/-- **Whatever is overlaid**, if it succeeds something has been added. -/
theorem exists_adds_of_merged {s' : Settings} (h : s.merged o = .ok s') :
    ∃ more, o.Adds more ∧ s' = s.extended more ∧ firstInvalid? s'.features = none := by
  rw [merged] at h
  split at h
  · rename_i hknown
    have hcheck := mapError_eq_ok_iff.1 h
    have hfeatures := firstInvalid?_of_check hcheck
    rw [check_overlaid] at hcheck
    obtain ⟨⟨libraries, tests, features⟩, hlists, rfl⟩ := Checked.map_eq_ok_iff.1 hcheck
    obtain ⟨hlibraries, hrest⟩ := Checked.both_eq_ok_iff.1 hlists
    obtain ⟨htests, hidentifiers⟩ := Checked.both_eq_ok_iff.1 hrest
    obtain ⟨libraries, holibraries, rfl⟩ := exists_texts_of_checkTexts hlibraries
    obtain ⟨tests, hotests, rfl⟩ := exists_texts_of_checkTexts htests
    obtain ⟨features, hofeatures, rfl⟩ :=
      exists_texts_of_checkTexts (checkFeatures_eq_ok_iff.1 hidentifiers).1
    refine ⟨⟨libraries, tests, features, o.turnsOn "recursive", o.turnsOn "use_all_files",
      o.turnsOn "strict_extensions", o.turnsOn "require_tested_match"⟩, ?_, rfl, hfeatures⟩
    exact ⟨holibraries, hotests, hofeatures, sortedSet_unknown_eq_nil_iff.1 hknown,
      rfl, rfl, rfl, rfl⟩
  · cases h

/-! ### Settings that can come about -/

/-- Settings that come about from nothing, from a file, however that is read, or by overlaying. -/
inductive Reachable : Settings → Prop where
  | default : Reachable {}
  | loaded {yaml : YamlReader} {t : FileTree} {path : Path} {s : Settings} :
    load yaml t path = .ok s → Reachable s
  | merged {s s' : Settings} {o : Overlay} : Reachable s → s.merged o = .ok s' → Reachable s'

theorem firstInvalid?_of_load {yaml : YamlReader} {t : FileTree} {path : Path}
    (h : load yaml t path = .ok s) : firstInvalid? s.features = none := by
  rw [load] at h
  cases htext : t.readText path with
  | error failure =>
    rw [htext] at h
    cases h
  | ok text =>
    rw [htext] at h
    dsimp only [Except.mapError, bind, Except.bind] at h
    split at h
    · cases h
    · cases h
    · rename_i value _
      cases value with
      | null =>
        cases h
        rfl
      | map entries => exact firstInvalid?_of_check (mapError_eq_ok_iff.1 h)
      | _ => cases h

/-- **Features can be read**, however settings have come about. -/
theorem Reachable.firstInvalid?_features (h : s.Reachable) : firstInvalid? s.features = none := by
  induction h with
  | default => rfl
  | loaded hload => exact firstInvalid?_of_load hload
  | merged _ hmerged _ =>
    obtain ⟨more, -, -, hfeatures⟩ := exists_adds_of_merged hmerged
    exact hfeatures

/-- **Overlaying what can come about**: only the features of the overlay can be wrong. -/
theorem Reachable.merged_of_adds (hs : s.Reachable) (h : o.Adds more) :
    s.merged o =
      match firstInvalid? more.features with
      | none => .ok (s.extended more)
      | some e => .error (.invalid [⟨[.key "features"], .badFeature e⟩]) := by
  have hfeatures : firstInvalid? (s.extended more).features = firstInvalid? more.features := by
    rw [extended, firstInvalid?_append, hs.firstInvalid?_features, Option.none_or]
  rw [Settings.merged_of_adds h, hfeatures]

theorem Reachable.extended_of_adds (hs : s.Reachable) (h : o.Adds more)
    (hvalid : firstInvalid? more.features = none) : (s.extended more).Reachable := by
  have hmerged : s.merged o = .ok (s.extended more) := by
    rw [hs.merged_of_adds h, hvalid]
  exact Reachable.merged hs hmerged

/-- The features of such settings are those that their texts identify. -/
theorem Reachable.featureSet_eq (hs : s.Reachable) :
    s.featureSet = .ok (.ofList (identified s.features)) := by
  rw [featureSet, parse_eq, hs.firstInvalid?_features]

/-- The settings after some overlays, each laid over what is there; if that fails they stay as they
are. -/
def afterOverlays (s : Settings) (overlays : List Overlay) : Settings :=
  overlays.foldl (fun s o => (s.merged o).toOption.getD s) s

/-- **After any overlays** of texts and flags, what has been added is what could be. -/
theorem Reachable.afterOverlays_eq (hs : s.Reachable) {overlays : List Overlay}
    {mores : List Settings} (h : List.Forall₂ Overlay.Adds overlays mores) :
    s.afterOverlays overlays =
      (mores.filter fun more => firstInvalid? more.features = none).foldl extended s := by
  -- along the overlays; what is added on the way is what the next one is laid over
  induction h generalizing s with
  | nil => rfl
  | @cons o more overlays mores hadds _ ih =>
    rw [afterOverlays, List.foldl_cons, ← afterOverlays, hs.merged_of_adds hadds]
    cases hvalid : firstInvalid? more.features with
    | none =>
      rw [List.filter_cons_of_pos (by simp [hvalid]), List.foldl_cons]
      exact ih (hs.extended_of_adds hadds hvalid)
    | some e =>
      rw [List.filter_cons_of_neg (by simp [hvalid])]
      exact ih hs

/-- **Overlays act on settings** that have come about from nothing, from a file, or by overlaying.

* Nothing laid over them leaves them as they are, and laid over nothing they are themselves.
* Two overlays of texts and flags, one after the other, are the one that joins them, whether this
  succeeds or fails.
* Such an overlay is added if all its features are identifiers. Else its first feature that is none
  is the failure, and the settings stay as they are, also when many are tried one after the other.
* Whatever is overlaid, paths and features are where they were and flags stay on.
* Their features are a set. -/
theorem overlay_action (hs : s.Reachable) :
    s.merged {} = .ok s ∧
    (∀ o : Overlay, o.Adds s → ({} : Settings).merged o = .ok s) ∧
    (∀ (x y z : Overlay) (a b : Settings), x.Adds a → y.Adds b → z.Adds (a.extended b) →
      s.merged z = (s.merged x).bind fun s' => s'.merged y) ∧
    (∀ (o : Overlay) (more : Settings), o.Adds more →
      s.merged o =
        match firstInvalid? more.features with
        | none => .ok (s.extended more)
        | some e => .error (.invalid [⟨[.key "features"], .badFeature e⟩])) ∧
    (∀ (overlays : List Overlay) (mores : List Settings),
      List.Forall₂ Overlay.Adds overlays mores →
        s.afterOverlays overlays =
          (mores.filter fun more => firstInvalid? more.features = none).foldl Settings.extended s) ∧
    (∀ (o : Overlay) (s' : Settings), s.merged o = .ok s' → s.KeptIn s') ∧
    ∃ selected, s.featureSet = .ok selected ∧
      ∀ f, f ∈ selected.toList ↔ ∃ text ∈ s.features, Feature.parse text = .ok f := by
  refine ⟨?_, fun o ho => ?_, fun x y z a b hx hy hz => ?_, fun o more ho => hs.merged_of_adds ho,
    fun overlays mores h => hs.afterOverlays_eq h, fun o s' h => ?_, _, hs.featureSet_eq,
    fun f => ?_⟩
  · rw [hs.merged_of_adds Overlay.adds_default, extended_default]
    rfl
  · rw [Reachable.default.merged_of_adds ho, hs.firstInvalid?_features, default_extended]
  · -- the first overlay fails before the second one is looked at, as it does in the joined one
    have hboth : firstInvalid? (a.extended b).features =
        (firstInvalid? a.features).or (firstInvalid? b.features) :=
      firstInvalid?_append a.features b.features
    rw [hs.merged_of_adds hx, hs.merged_of_adds hz, hboth]
    cases hvalid : firstInvalid? a.features with
    | none =>
      rw [Option.none_or, ← extended_assoc]
      exact ((hs.extended_of_adds hx hvalid).merged_of_adds hy).symm
    | some e => rfl
  · obtain ⟨more, -, rfl, -⟩ := exists_adds_of_merged h
    exact keptIn_extended s more
  · rw [FeatureSet.mem_ofList, identified, List.mem_filterMap]
    refine exists_congr fun text => and_congr_right fun _ => ?_
    cases Feature.parse text <;> simp [Except.toOption]

/-- Settings with a library root, a feature and a flag. -/
def oneRoot : Settings where
  libraries := ["lib"]
  features := ["m:x"]
  recursive := true

/-- A library root more, and a flag that is not turned on. -/
def secondRoot : Overlay where
  libraries := [.text "lib"]
  flags := [("recursive", false), ("use_all_files", true)]

/-- Two features, of which the first one has no name. -/
def namelessFeature : Overlay where
  features := [.text "m:", .text ":x"]

/-- A root that is there already is there twice. The flag stays on, and the features without a name
change nothing. -/
theorem overlay_action_oneRoot :
    oneRoot.Reachable ∧
    secondRoot.Adds { libraries := ["lib"], useAllFiles := true } ∧
    namelessFeature.Adds { features := ["m:", ":x"] } ∧
    oneRoot.merged secondRoot =
      .ok { oneRoot with libraries := ["lib", "lib"], useAllFiles := true } ∧
    ({} : Settings).merged ⟨[.text "lib"], [], [.text "m:x"], [("recursive", true)]⟩ = .ok oneRoot ∧
    oneRoot.KeptIn { oneRoot with libraries := ["lib", "lib"], useAllFiles := true } ∧
    oneRoot.merged { secondRoot with features := [.text "m:", .text ":x"] } =
      .error (.invalid [⟨[.key "features"], .badFeature ⟨"m:"⟩⟩]) ∧
    ((oneRoot.merged secondRoot).bind fun s => s.merged namelessFeature) =
      .error (.invalid [⟨[.key "features"], .badFeature ⟨"m:"⟩⟩]) ∧
    oneRoot.afterOverlays [namelessFeature, secondRoot] =
      { oneRoot with libraries := ["lib", "lib"], useAllFiles := true } := by
  have hadds : Overlay.Adds ⟨[.text "lib"], [], [.text "m:x"], [("recursive", true)]⟩ oneRoot :=
    ⟨rfl, rfl, rfl, by decide, by decide, by decide, by decide, by decide⟩
  have hsecond : secondRoot.Adds { libraries := ["lib"], useAllFiles := true } :=
    ⟨rfl, rfl, rfl, by decide, by decide, by decide, by decide, by decide⟩
  have hnameless : namelessFeature.Adds { features := ["m:", ":x"] } :=
    ⟨rfl, rfl, rfl, by decide, rfl, rfl, rfl, rfl⟩
  have hjoined : Overlay.Adds { secondRoot with features := [.text "m:", .text ":x"] }
      { libraries := ["lib"], features := ["m:", ":x"], useAllFiles := true } :=
    ⟨rfl, rfl, rfl, by decide, by decide, by decide, by decide, by decide⟩
  have hvalid : firstInvalid? oneRoot.features = none := by decide +kernel
  have hinvalid : firstInvalid? ["m:", ":x"] = some ⟨"m:"⟩ := by decide +kernel
  have hreachable : oneRoot.Reachable := by
    refine Reachable.merged Reachable.default ((merged_of_adds hadds).trans ?_)
    rw [default_extended, hvalid]
  obtain ⟨-, hdefault, hbind, hmerged, hafter, hkept, -⟩ := overlay_action hreachable
  have hok : oneRoot.merged secondRoot =
      .ok { oneRoot with libraries := ["lib", "lib"], useAllFiles := true } := hmerged _ _ hsecond
  have herror : oneRoot.merged { secondRoot with features := [.text "m:", .text ":x"] } =
      .error (.invalid [⟨[.key "features"], .badFeature ⟨"m:"⟩⟩]) := by
    rw [hmerged _ _ hjoined, hinvalid]
  refine ⟨hreachable, hsecond, hnameless, hok, hdefault _ hadds, hkept _ _ hok, herror, ?_, ?_⟩
  · rw [← hbind _ _ _ _ _ hsecond hnameless hjoined]
    exact herror
  · rw [hafter _ _ (.cons hnameless (.cons hsecond .nil))]
    decide +kernel

end Settings

end SchemaAssembly
