import SchemaAssembly.Feature.Set
import SchemaAssembly.Proofs.Groups

/-!
# Sets of identifiers

What a list of texts says about features, without the way in which it is read. A text spells a feature
or none (`Feature.SpelledBy`). A list of texts is read exactly if each of them spells one, and the set
it is read as has the features that are spelled (`FeatureSet.parse_eq_ok_iff`); else the failure is
the first text that spells none (`FeatureSet.parse_eq_error_iff`).

Sets are kept in a canonical form: those with the same elements are equal (`FeatureSet.eq_iff`), a set
consists of the features of its modules, one module after another (`FeatureSet.flatMap_modules`), and
its own identifiers are read as that set again (`FeatureSet.parse_texts`).
-/

namespace SchemaAssembly

namespace Feature

variable {f g : Feature} {text : String}

/-- **A text spells a feature** if, apart from blanks around it, it is the feature's module, a colon
and the feature's name. Neither of the two is empty, and there is no other colon; blanks inside
count. -/
structure SpelledBy (f : Feature) (text : String) : Prop where
  /-- the text without the blanks around it -/
  trim_eq : Text.trim text = f.moduleName ++ ":" ++ f.name
  /-- there is a module -/
  moduleName_ne : f.moduleName ≠ ""
  /-- there is a name -/
  name_ne : f.name ≠ ""
  /-- the module has no colon -/
  colon_not_mem_moduleName : ':' ∉ f.moduleName.toList
  /-- the name has no colon -/
  colon_not_mem_name : ':' ∉ f.name.toList

/-- A text is split at its first colon. -/
theorem splitColon_eq_some_iff {cs before after : List Char} :
    splitColon cs = some (before, after) ↔ cs = before ++ ':' :: after ∧ ':' ∉ before := by
  induction cs generalizing before with
  | nil => simp [splitColon]
  | cons c cs ih =>
    by_cases hc : c = ':'
    · subst hc
      cases before with
      | nil => simp [splitColon]
      | cons b before =>
        refine iff_of_false (by simp [splitColon]) ?_
        rintro ⟨heq, hnone⟩
        exact hnone (List.mem_cons.2 (Or.inl (List.cons.inj heq).1))
    · cases before with
      | nil => simp [splitColon, hc]
      | cons b before =>
        simp only [splitColon, Option.map_eq_some_iff, Prod.mk.injEq, List.cons.injEq, Prod.exists,
          exists_eq_right_right, ih, List.cons_append, List.mem_cons, not_or]
        constructor
        · rintro ⟨⟨rfl, hnone⟩, rfl⟩
          exact ⟨⟨rfl, rfl⟩, Ne.symm hc, hnone⟩
        · rintro ⟨⟨rfl, rfl⟩, -, hnone⟩
          exact ⟨⟨rfl, hnone⟩, rfl⟩

/-- **Reading an identifier** gives the feature that is spelled. -/
theorem parse_eq_ok_iff : parse text = .ok f ↔ f.SpelledBy text := by
  constructor
  · intro h
    rw [parse] at h
    split at h
    · rename_i before after hsplit
      obtain ⟨hcs, hfirst⟩ := splitColon_eq_some_iff.1 hsplit
      split at h
      · cases h
      · rename_i hparts
        simp only [not_or] at hparts
        obtain ⟨hbefore, hafter, hsecond⟩ := hparts
        cases h
        exact ⟨by simp [Text.trim, hcs, String.append_assoc], by simpa using hbefore,
          by simpa using hafter, by simpa using hfirst, by simpa using hsecond⟩
    · cases h
  · rintro ⟨htrim, hmodule, hname, hfirst, hsecond⟩
    have hcs : Text.trimChars text.toList = f.moduleName.toList ++ ':' :: f.name.toList := by
      simpa [Text.trim] using congrArg String.toList htrim
    rw [parse, splitColon_eq_some_iff.2 ⟨hcs, hfirst⟩]
    simp [hmodule, hname, hsecond]

/-- What is said about a text that is no feature identifier names the text. -/
theorem parse_eq_error_iff {e : InvalidFeature} :
    parse text = .error e ↔ (∀ f, parse text ≠ .ok f) ∧ e = ⟨text⟩ := by
  rw [parse]
  split
  · split <;> simp [eq_comm]
  · simp [eq_comm]

/-- A text spells one feature at most. -/
theorem SpelledBy.unique (hf : f.SpelledBy text) (hg : g.SpelledBy text) : f = g :=
  Except.ok.inj ((parse_eq_ok_iff.2 hf).symm.trans (parse_eq_ok_iff.2 hg))

/-- Blanks around a text make no difference. -/
theorem SpelledBy.of_trim_eq {other : String} (h : f.SpelledBy text)
    (htrim : Text.trim other = Text.trim text) : f.SpelledBy other :=
  { h with trim_eq := htrim.trans h.trim_eq }

/-- A feature that is spelled by some text is spelled by its identifier. -/
theorem SpelledBy.own_text (h : f.SpelledBy text) : f.SpelledBy f.text := by
  have htext : Text.trim text = f.text := h.trim_eq
  exact h.of_trim_eq (htext ▸ Text.trim_trim text)

/-- No two features come before each other. -/
theorem lt_asymm (f g : Feature) (h : f < g) : ¬ g < f :=
  fun hgf => lt_irrefl f (lt_trans h hgf)

end Feature

namespace FeatureSet

variable {s t : FeatureSet} {identifiers others : List String} {e : InvalidFeature} {f : Feature}

/-! ### Reading texts -/

/-- The first of some texts that is no feature identifier. -/
def firstInvalid? (identifiers : List String) : Option InvalidFeature :=
  identifiers.findSome? fun text =>
    match Feature.parse text with
    | .ok _ => none
    | .error e => some e

/-- The features that some texts identify. -/
def identified (identifiers : List String) : List Feature :=
  identifiers.filterMap fun text => (Feature.parse text).toOption

theorem mapM_parse (identifiers : List String) :
    identifiers.mapM Feature.parse =
      match firstInvalid? identifiers with
      | none => .ok (identified identifiers)
      | some e => .error e := by
  induction identifiers with
  | nil => rfl
  | cons text rest ih =>
    rw [List.mapM_cons, ih]
    cases hparse : Feature.parse text with
    | error e =>
      have hinvalid : firstInvalid? (text :: rest) = some e := by simp [firstInvalid?, hparse]
      rw [hinvalid]
      rfl
    | ok f =>
      have hinvalid : firstInvalid? (text :: rest) = firstInvalid? rest := by
        simp [firstInvalid?, hparse]
      have hidentified : identified (text :: rest) = f :: identified rest := by
        simp [identified, hparse, Except.toOption]
      rw [hinvalid, hidentified]
      cases firstInvalid? rest <;> rfl

/-- **Reading features**: they are a set, unless one is none. -/
theorem parse_eq (identifiers : List String) :
    parse identifiers =
      match firstInvalid? identifiers with
      | none => .ok (ofList (identified identifiers))
      | some e => .error e := by
  rw [parse, mapM_parse]
  cases firstInvalid? identifiers <;> rfl

theorem firstInvalid?_append (first second : List String) :
    firstInvalid? (first ++ second) = (firstInvalid? first).or (firstInvalid? second) :=
  List.findSome?_append

theorem firstInvalid?_eq_none_iff :
    firstInvalid? identifiers = none ↔
      ∀ text ∈ identifiers, ∃ f, Feature.parse text = .ok f := by
  rw [firstInvalid?, List.findSome?_eq_none_iff]
  refine forall₂_congr fun text _ => ?_
  cases Feature.parse text <;> simp

theorem firstInvalid?_eq_some_iff :
    firstInvalid? identifiers = some e ↔ ∃ valid bad rest, identifiers = valid ++ bad :: rest ∧
      (∀ text ∈ valid, ∃ f, Feature.parse text = .ok f) ∧ (∀ f, Feature.parse bad ≠ .ok f) ∧
      e = ⟨bad⟩ := by
  rw [firstInvalid?, List.findSome?_eq_some_iff]
  refine exists₃_congr fun valid bad rest => and_congr_right fun _ => ?_
  rw [and_comm]
  refine and_congr (forall₂_congr fun text _ => ?_) ?_
  · cases Feature.parse text <;> simp
  · rw [← Feature.parse_eq_error_iff]
    cases Feature.parse bad <;> simp

theorem mem_identified : f ∈ identified identifiers ↔ ∃ text ∈ identifiers, f.SpelledBy text := by
  rw [identified, List.mem_filterMap]
  refine exists_congr fun text => and_congr_right fun _ => ?_
  rw [← Feature.parse_eq_ok_iff]
  cases Feature.parse text <;> simp [Except.toOption]

/-! ### The canonical form -/

/-- **Sets are equal** if they have the same elements. -/
theorem eq_iff : s = t ↔ ∀ f, f ∈ s.toList ↔ f ∈ t.toList := by
  constructor
  · rintro rfl f
    exact Iff.rfl
  · intro hmem
    obtain ⟨features, hs⟩ := s
    obtain ⟨others, ht⟩ := t
    obtain rfl : features = others := eq_of_pairwise_of_asymm Feature.lt_asymm hs ht hmem
    rfl

/-- **What is read** is the set of the features that are spelled. -/
theorem parse_eq_ok_iff :
    parse identifiers = .ok s ↔
      (∀ text ∈ identifiers, ∃ f : Feature, f.SpelledBy text) ∧
      ∀ f, f ∈ s.toList ↔ ∃ text ∈ identifiers, f.SpelledBy text := by
  simp only [← Feature.parse_eq_ok_iff, ← firstInvalid?_eq_none_iff, parse_eq]
  cases firstInvalid? identifiers with
  | some e => simp
  | none =>
    simp only [Except.ok.injEq, true_and, eq_iff, mem_ofList, mem_identified,
      Feature.parse_eq_ok_iff]
    exact forall_congr' fun f => iff_comm

/-- **The failure** is the first text that spells nothing. -/
theorem parse_eq_error_iff :
    parse identifiers = .error e ↔ ∃ valid bad rest, identifiers = valid ++ bad :: rest ∧
      (∀ text ∈ valid, ∃ f : Feature, f.SpelledBy text) ∧ (∀ f : Feature, ¬ f.SpelledBy bad) ∧
      e = ⟨bad⟩ := by
  have herror : parse identifiers = .error e ↔ firstInvalid? identifiers = some e := by
    rw [parse_eq]
    cases firstInvalid? identifiers <;> simp
  rw [herror, firstInvalid?_eq_some_iff]
  simp only [ne_eq, Feature.parse_eq_ok_iff]

/-- **The identifiers of a set** that was read are read as that set. -/
theorem parse_texts (h : parse identifiers = .ok s) : parse s.texts = .ok s := by
  obtain ⟨-, hmem⟩ := parse_eq_ok_iff.1 h
  have htext : ∀ f ∈ s.toList, f.SpelledBy f.text := by
    intro f hf
    obtain ⟨text, -, hspelled⟩ := (hmem f).1 hf
    exact hspelled.own_text
  refine parse_eq_ok_iff.2 ⟨fun text htexts => ?_, fun f => ⟨fun hf => ?_, ?_⟩⟩
  · obtain ⟨f, hf, rfl⟩ := List.mem_map.1 htexts
    exact ⟨f, htext f hf⟩
  · exact ⟨f.text, List.mem_map_of_mem hf, htext f hf⟩
  · rintro ⟨text, htexts, hspelled⟩
    obtain ⟨g, hg, rfl⟩ := List.mem_map.1 htexts
    exact hspelled.unique (htext g hg) ▸ hg

/-! ### Modules -/

/-- The features of a set come in the order of their modules. -/
theorem pairwise_moduleName_le (s : FeatureSet) :
    s.toList.Pairwise fun f g => f.moduleName ≤ g.moduleName := by
  refine s.ascending.imp fun {f g} hfg => ?_
  rcases Feature.lt_iff.1 hfg with hlt | ⟨heq, -⟩
  · exact String.not_lt.1 (String.lt_asymm hlt)
  · exact heq ▸ String.le_refl _

/-- The modules of a set are strictly ascending. -/
theorem pairwise_modules (s : FeatureSet) : s.modules.Pairwise (· < ·) :=
  pairwise_lt_distinct (List.pairwise_map.2 s.pairwise_moduleName_le)

/-- The names of a module's features are strictly ascending. -/
theorem pairwise_forModule (s : FeatureSet) (moduleName : String) :
    (s.forModule moduleName).Pairwise (· < ·) := by
  refine List.pairwise_map.2 (pairwise_group s.ascending fun f g hf hg hfg => ?_)
  rcases Feature.lt_iff.1 hfg with hlt | ⟨-, hlt⟩
  · exact absurd (hf ▸ hg ▸ hlt) (String.lt_irrefl _)
  · exact hlt

/-- The features of a module. -/
theorem map_forModule (s : FeatureSet) (moduleName : String) :
    (s.forModule moduleName).map (Feature.mk moduleName) =
      s.toList.filter (·.moduleName = moduleName) := by
  rw [forModule, List.map_map]
  conv_rhs => rw [← List.map_id (s.toList.filter (·.moduleName = moduleName))]
  refine List.map_congr_left fun f hf => ?_
  have hmodule : f.moduleName = moduleName := key_eq_of_mem_group hf
  rw [Function.comp_apply, ← hmodule]
  rfl

/-- **A set, module by module.** -/
theorem flatMap_modules (s : FeatureSet) :
    (s.modules.flatMap fun moduleName => (s.forModule moduleName).map (Feature.mk moduleName)) =
      s.toList := by
  simp only [map_forModule]
  exact flatMap_group s.pairwise_modules s.pairwise_moduleName_le
    fun f hf => mem_distinct.2 (List.mem_map_of_mem hf)

/-! ### One form for each set -/

/-- A feature is spelled by one of some texts if its identifier is one of them without the blanks
around it. -/
theorem exists_spelledBy_iff :
    (∃ text ∈ identifiers, f.SpelledBy text) ↔
      f.SpelledBy f.text ∧ f.text ∈ identifiers.map Text.trim := by
  constructor
  · rintro ⟨text, htext, hspelled⟩
    exact ⟨hspelled.own_text, List.mem_map.2 ⟨text, htext, hspelled.trim_eq⟩⟩
  · rintro ⟨hspelled, hmem⟩
    obtain ⟨text, htext, htrim⟩ := List.mem_map.1 hmem
    exact ⟨text, htext, hspelled.of_trim_eq (htrim.trans hspelled.trim_eq.symm)⟩

/-- **The same features** are spelled by the same texts, apart from the blanks around them. -/
theorem spelledBy_iff_trim (hvalid : ∀ text ∈ identifiers, ∃ f : Feature, f.SpelledBy text)
    (hothers : ∀ text ∈ others, ∃ f : Feature, f.SpelledBy text) :
    (∀ f : Feature, (∃ text ∈ identifiers, f.SpelledBy text) ↔ ∃ text ∈ others, f.SpelledBy text) ↔
      ∀ text, text ∈ identifiers.map Text.trim ↔ text ∈ others.map Text.trim := by
  -- without blanks a text is the identifier of the feature that it spells
  have hkept : ∀ {l l' : List String}, (∀ text ∈ l, ∃ f : Feature, f.SpelledBy text) →
      (∀ f : Feature, (∃ text ∈ l, f.SpelledBy text) → ∃ text ∈ l', f.SpelledBy text) →
      ∀ trimmed ∈ l.map Text.trim, trimmed ∈ l'.map Text.trim := by
    intro l l' hl hfeatures trimmed htrimmed
    obtain ⟨text, htext, rfl⟩ := List.mem_map.1 htrimmed
    obtain ⟨f, hspelled⟩ := hl text htext
    rw [hspelled.trim_eq]
    exact (exists_spelledBy_iff.1 (hfeatures f ⟨text, htext, hspelled⟩)).2
  constructor
  · intro hfeatures text
    exact ⟨hkept hvalid (fun f => (hfeatures f).1) text, hkept hothers (fun f => (hfeatures f).2) text⟩
  · intro htexts f
    rw [exists_spelledBy_iff, exists_spelledBy_iff, htexts f.text]

/-- **A set of identifiers has one form.**

* Reading fails with the first text that spells no feature, and else it succeeds.
* What is read are the features that are spelled, strictly ascending by module and then by name. They
  are the features of the set's modules, which are strictly ascending, one module after another, each
  with its names strictly ascending. The identifiers of the set are read as the set itself.
* Two sets that are read are equal exactly if the same features are spelled, so exactly if the texts
  are the same apart from order, repetitions and the blanks around them. -/
theorem canonical_form (identifiers : List String) :
    (∀ e, parse identifiers = .error e ↔ ∃ valid bad rest, identifiers = valid ++ bad :: rest ∧
      (∀ text ∈ valid, ∃ f : Feature, f.SpelledBy text) ∧ (∀ f : Feature, ¬ f.SpelledBy bad) ∧
      e = ⟨bad⟩) ∧
    ((∃ s, parse identifiers = .ok s) ↔ ∀ text ∈ identifiers, ∃ f : Feature, f.SpelledBy text) ∧
    (∀ s, parse identifiers = .ok s →
      s.toList.Pairwise (fun f g =>
        f.moduleName < g.moduleName ∨ f.moduleName = g.moduleName ∧ f.name < g.name) ∧
      (∀ f, f ∈ s.toList ↔ ∃ text ∈ identifiers, f.SpelledBy text) ∧
      s.modules.Pairwise (· < ·) ∧
      (∀ moduleName, moduleName ∈ s.modules ↔ ∃ f ∈ s.toList, f.moduleName = moduleName) ∧
      (∀ moduleName, (s.forModule moduleName).Pairwise (· < ·)) ∧
      s.toList = (s.modules.flatMap fun moduleName =>
        (s.forModule moduleName).map fun name => ⟨moduleName, name⟩) ∧
      parse s.texts = .ok s) ∧
    (∀ others s t, parse identifiers = .ok s → parse others = .ok t →
      (s = t ↔ ∀ f : Feature,
        (∃ text ∈ identifiers, f.SpelledBy text) ↔ ∃ text ∈ others, f.SpelledBy text) ∧
      (s = t ↔ ∀ text, text ∈ identifiers.map Text.trim ↔ text ∈ others.map Text.trim)) ∧
    ∀ before text after : String, (∀ c ∈ before.toList, Text.isBlank c = true) →
      (∀ c ∈ after.toList, Text.isBlank c = true) →
      Text.trim (before ++ text ++ after) = Text.trim text := by
  refine ⟨fun e => parse_eq_error_iff, ⟨?_, fun hvalid => ?_⟩, fun s hs => ?_,
    fun others s t hs ht => ?_, fun before text after hbefore hafter => ?_⟩
  · rintro ⟨s, hs⟩
    exact (parse_eq_ok_iff.1 hs).1
  · cases hparse : parse identifiers with
    | ok s => exact ⟨s, rfl⟩
    | error e =>
      obtain ⟨valid, bad, rest, rfl, -, hbad, -⟩ := parse_eq_error_iff.1 hparse
      obtain ⟨f, hf⟩ := hvalid bad (List.mem_append_right valid List.mem_cons_self)
      exact absurd hf (hbad f)
  · exact ⟨s.ascending, (parse_eq_ok_iff.1 hs).2, s.pairwise_modules, fun moduleName => by
      simp [modules], s.pairwise_forModule, s.flatMap_modules.symm, parse_texts hs⟩
  · obtain ⟨hvalid, hmem⟩ := parse_eq_ok_iff.1 hs
    obtain ⟨hothers, hmem'⟩ := parse_eq_ok_iff.1 ht
    have hfeatures : s = t ↔ ∀ f : Feature,
        (∃ text ∈ identifiers, f.SpelledBy text) ↔ ∃ text ∈ others, f.SpelledBy text := by
      simp only [eq_iff, hmem, hmem']
    exact ⟨hfeatures, hfeatures.trans (spelledBy_iff_trim hvalid hothers)⟩
  · rw [Text.trim, Text.trim, String.toList_append, String.toList_append,
      Text.trimChars_append _ hbefore hafter]

/-- Three features of two modules. In the order of their identifiers the last one would be first. -/
def spaced : FeatureSet where
  toList := [⟨"a", "x"⟩, ⟨"a", "x y"⟩, ⟨"a-b", " x"⟩]
  ascending := by decide +kernel

/-- Blanks around identifiers, their order and how often they occur make no difference. Blanks in the
middle do. -/
theorem canonical_form_spaced :
    parse ["\ta-b: x\n", "a:x y", "a:x"] = .ok spaced ∧
    parse ["a:x", "a:x y\u00a0", "a:x ", "a-b: x"] = .ok spaced ∧
    spaced.modules = ["a", "a-b"] ∧ spaced.forModule "a" = ["x", "x y"] ∧
    parse spaced.texts = .ok spaced ∧
    (∀ text, text ∈ ["\ta-b: x\n", "a:x y", "a:x"].map Text.trim ↔
      text ∈ ["a:x", "a:x y\u00a0", "a:x ", "a-b: x"].map Text.trim) ∧
    Text.trim ("\n" ++ "a-b: x" ++ " \t") = Text.trim "a-b: x" := by
  have hparse : parse ["\ta-b: x\n", "a:x y", "a:x"] = .ok spaced := by decide +kernel
  have hothers : parse ["a:x", "a:x y\u00a0", "a:x ", "a-b: x"] = .ok spaced := by decide +kernel
  obtain ⟨-, -, hset, hequal, htrim⟩ := canonical_form ["\ta-b: x\n", "a:x y", "a:x"]
  obtain ⟨-, -, -, -, -, -, htexts⟩ := hset spaced hparse
  have hbefore : ∀ c ∈ "\n".toList, Text.isBlank c = true := List.all_eq_true.1 (by decide)
  have hafter : ∀ c ∈ " \t".toList, Text.isBlank c = true := List.all_eq_true.1 (by decide)
  exact ⟨hparse, hothers, by decide +kernel, by decide +kernel, htexts,
    (hequal _ _ _ hparse hothers).2.1 rfl, htrim _ _ _ hbefore hafter⟩

end FeatureSet

end SchemaAssembly
