import Mathlib
import SchemaAssembly.Proofs.Overlays

/-!
# The grammar of settings

Which values stand for settings, and what is wrong with the others, said without a check: a map
`Settings.Spells` settings, or there are places in it that offend (`Settings.Offends`). A check accepts
exactly what spells settings, and gives these. Otherwise it complains about each place that offends and
about no other, in the order `Settings.ComesBefore` (`Settings.check_json`).

* **one setting** — what it spells and what offends in it hang on the value of its key alone
  (`checkTexts_eq_ok_iff`, `exists_mem_complaintsOf_iff`);
* **all settings** — complaints are collected key by key, with nothing left out (`complaints_check`);
* **again** — settings written as a value spell themselves (`check_toValue`).
-/

namespace SchemaAssembly

/-! ### JSON values -/

/-- **A JSON value.** Dates, bytes and sets are none, and the keys of a map are texts, each once. -/
inductive Value.IsJson : Value → Prop where
  | null : IsJson .null
  | bool (value : Bool) : IsJson (.bool value)
  | integer (value : Int) : IsJson (.integer value)
  | decimal (value : Float) : IsJson (.decimal value)
  | text (value : String) : IsJson (.text value)
  | list {items : List Value} : (∀ item ∈ items, IsJson item) → IsJson (.list items)
  | map {entries : List (Value × Value)} : (∀ entry ∈ entries, IsJson entry.2) →
    (∀ entry ∈ entries, ∃ key, entry.1 = .text key) → (entries.map (·.1.text?)).Nodup →
      IsJson (.map entries)

theorem Value.text?_eq_some_iff {value : Value} {text : String} :
    value.text? = some text ↔ value = .text text := by
  cases value <;> simp [Value.text?]

/-! ### Checks that say why they fail -/

namespace Checked

variable {α β : Type} {a : Checked α} {b : Checked β}

/-- What a check complains about. -/
def complaints : Checked α → List Complaint
  | .ok _ => []
  | .error complaints => complaints

/-- **A check that says why** it fails, if it does. -/
def SaysWhy (a : Checked α) : Prop :=
  a ≠ .error []

theorem complaints_both (a : Checked α) (b : Checked β) :
    (a.both b).complaints = a.complaints ++ b.complaints := by
  cases a with
  | ok x => cases b <;> rfl
  | error first =>
    cases b with
    | ok y => exact (List.append_nil first).symm
    | error second => rfl

theorem complaints_map (f : α → β) (a : Checked α) : complaints (a.map f) = a.complaints := by
  cases a <;> rfl

theorem SaysWhy.ok (x : α) : SaysWhy (.ok x) := by
  intro h
  cases h

theorem SaysWhy.error {complaints : List Complaint} (h : complaints ≠ []) :
    SaysWhy (.error complaints : Checked α) :=
  fun heq => h (Except.error.inj heq)

theorem SaysWhy.ne_nil {complaints : List Complaint}
    (h : SaysWhy (.error complaints : Checked α)) : complaints ≠ [] :=
  fun hnil => h (congrArg Except.error hnil)

theorem SaysWhy.both (ha : a.SaysWhy) (hb : b.SaysWhy) : (a.both b).SaysWhy := by
  cases a with
  | ok x =>
    cases b with
    | ok y => exact .ok _
    | error second => exact .error hb.ne_nil
  | error first =>
    cases b with
    | ok y => exact .error ha.ne_nil
    | error second => exact .error fun h => ha.ne_nil (List.append_eq_nil_iff.1 h).1

theorem SaysWhy.map (f : α → β) (ha : a.SaysWhy) : SaysWhy (a.map f) := by
  cases a with
  | ok x => exact .ok _
  | error complaints => exact .error ha.ne_nil

/-- A check that has nothing to find succeeds exactly if it complains about nothing. -/
theorem SaysWhy.eq_ok_iff {a : Checked Unit} (ha : a.SaysWhy) : a = .ok () ↔ a.complaints = [] := by
  cases a with
  | ok x => exact ⟨fun _ => rfl, fun _ => rfl⟩
  | error complaints =>
    constructor
    · intro h
      cases h
    · exact fun hnil => absurd hnil ha.ne_nil

/-- A check fails with complaints exactly if these are what it complains about, and there are some. -/
theorem SaysWhy.eq_error_iff (ha : a.SaysWhy) {cs : List Complaint} :
    a = .error cs ↔ cs ≠ [] ∧ a.complaints = cs := by
  cases a with
  | ok x =>
    constructor
    · intro h
      cases h
    · rintro ⟨hne, rfl⟩
      exact absurd rfl hne
  | error complaints =>
    constructor
    · intro h
      obtain rfl := Except.error.inj h
      exact ⟨ha.ne_nil, rfl⟩
    · rintro ⟨-, rfl⟩
      rfl

end Checked

namespace Settings

open FeatureSet

variable {base : Option Path} {entries : List (Value × Value)} {key text : String}
  {texts paths : List String} {flag : Bool} {s : Settings} {c : Complaint}

/-! ### What spells settings -/

/-- The settings that are lists of texts. -/
def listKeys : List String :=
  ["lib_dirs", "test_files", "features"]

/-- **The texts of a list setting**: none if it is absent or null, one if it is a text alone. -/
inductive SpellsTexts (entries : List (Value × Value)) (key : String) : List String → Prop where
  | absent : (∀ value, (.text key, value) ∉ entries) → SpellsTexts entries key []
  | null : (.text key, .null) ∈ entries → SpellsTexts entries key []
  | alone {text : String} : (.text key, .text text) ∈ entries → SpellsTexts entries key [text]
  | listed {texts : List String} : (.text key, .list (texts.map .text)) ∈ entries →
    SpellsTexts entries key texts

/-- **The value of a flag**: it is off if it is absent. -/
inductive SpellsFlag (entries : List (Value × Value)) (key : String) : Bool → Prop where
  | absent : (∀ value, (.text key, value) ∉ entries) → SpellsFlag entries key false
  | given {flag : Bool} : (.text key, .bool flag) ∈ entries → SpellsFlag entries key flag

/-- **What becomes of a path**: a relative one is followed from the base, if there is one; any other
stays as it is spelled. -/
inductive Follows : Option Path → String → String → Prop where
  | nowhere (path : String) : Follows none path path
  | absolute (base : Option Path) {path : String} : (Path.ofText path).isAbsolute = true →
    Follows base path path
  | relative (base : Path) {path : String} : (Path.ofText path).isAbsolute = false →
    Follows (some base) path
      (Path.text ⟨base.anchor, base.names ++ (Path.ofText path).names⟩)

/-- **The entries of a map spell settings.** -/
structure Spells (base : Option Path) (entries : List (Value × Value)) (s : Settings) : Prop where
  /-- all keys are those of settings -/
  known : ∀ entry ∈ entries, ∃ key ∈ keys, entry.1 = .text key
  /-- the library roots -/
  libraries : ∃ paths, SpellsTexts entries "lib_dirs" paths ∧
    List.Forall₂ (Follows base) paths s.libraries
  /-- the files under test -/
  tests : ∃ paths, SpellsTexts entries "test_files" paths ∧
    List.Forall₂ (Follows base) paths s.tests
  /-- the features, as they are spelled -/
  features : SpellsTexts entries "features" s.features
  /-- each of them is an identifier -/
  identifiers : ∀ text ∈ s.features, ∃ f, Feature.parse text = .ok f
  recursive : SpellsFlag entries "recursive" s.recursive
  useAllFiles : SpellsFlag entries "use_all_files" s.useAllFiles
  strictExtensions : SpellsFlag entries "strict_extensions" s.strictExtensions
  requireTestedMatch : SpellsFlag entries "require_tested_match" s.requireTestedMatch

/-! ### What offends -/

/-- **What offends in a map**, each with the complaint about it. -/
inductive Offends (entries : List (Value × Value)) : Complaint → Prop where
  /-- an item of a list of texts that is no text -/
  | item {key : String} {items : List Value} {i : Nat} {item : Value} : key ∈ listKeys →
    (.text key, .list items) ∈ entries → items[i]? = some item → item.text? = none →
      Offends entries ⟨[.key key, .index i], .notText⟩
  /-- what should be a list of texts and is neither this nor null nor a text -/
  | list {key : String} {value : Value} : key ∈ listKeys → (.text key, value) ∈ entries →
    value ≠ .null → value.text? = none → (∀ items, value ≠ .list items) →
      Offends entries ⟨[.key key], .notList⟩
  /-- the first text that is no feature identifier, if the features are texts -/
  | feature {valid : List String} {bad : String} {rest : List String} :
    SpellsTexts entries "features" (valid ++ bad :: rest) →
    (∀ text ∈ valid, ∃ f, Feature.parse text = .ok f) → (∀ f, Feature.parse bad ≠ .ok f) →
      Offends entries ⟨[.key "features"], .badFeature ⟨bad⟩⟩
  /-- a flag that is no truth value -/
  | flag {key : String} {value : Value} : key ∈ flagNames → (.text key, value) ∈ entries →
    (∀ flag, value ≠ .bool flag) → Offends entries ⟨[.key key], .notBool⟩
  /-- a key that no setting has -/
  | key {key : String} {value : Value} : (.text key, value) ∈ entries → key ∉ keys →
    Offends entries ⟨[.key key], .unknownKey⟩

/-- The keys of a map that no setting has, in its order. -/
def unknownKeys (entries : List (Value × Value)) : List String :=
  (entries.filterMap (·.1.text?)).filter (· ∉ keys)

/-- The keys in the order of complaints: those of settings as they are declared, then the unknown ones
of a map. -/
def keyOrder (entries : List (Value × Value)) : List String :=
  keys ++ unknownKeys entries

/-- **The order of complaints**: by their keys, and for one key by the items they are about. -/
inductive ComesBefore (entries : List (Value × Value)) : Complaint → Complaint → Prop where
  | key {key key' : String} {place place' : List PlaceStep} {objection objection' : Objection} :
    (keyOrder entries).idxOf key < (keyOrder entries).idxOf key' →
      ComesBefore entries ⟨.key key :: place, objection⟩ ⟨.key key' :: place', objection'⟩
  | item {key : String} {i j : Int} {objection objection' : Objection} : i < j →
    ComesBefore entries ⟨[.key key, .index i], objection⟩ ⟨[.key key, .index j], objection'⟩

/-! ### The entries of a JSON value -/

/-- Entries whose keys are texts, each once, with JSON values. -/
structure Members (entries : List (Value × Value)) : Prop where
  exists_key : ∀ entry ∈ entries, ∃ key, entry.1 = .text key
  nodup_keys : (entries.map (·.1.text?)).Nodup
  isJson : ∀ entry ∈ entries, entry.2.IsJson

theorem members_of_isJson (h : (Value.map entries).IsJson) : Members entries := by
  cases h with
  | map hvalues hkeys hnodup => exact ⟨hkeys, hnodup, hvalues⟩

theorem lookup_eq_some_iff (h : Members entries) {value : Value} :
    lookup entries key = some value ↔ (.text key, value) ∈ entries := by
  rw [lookup, Option.map_eq_some_iff]
  constructor
  · rintro ⟨entry, hfind, rfl⟩
    have hkey : entry.1.text? = some key := by simpa using List.find?_some hfind
    rw [← Value.text?_eq_some_iff.1 hkey]
    exact List.mem_of_find?_eq_some hfind
  · intro hmem
    cases hfind : entries.find? (·.1.text? = some key) with
    | none =>
      have hnot := List.find?_eq_none.1 hfind _ hmem
      exact absurd (decide_eq_true rfl) hnot
    | some entry =>
      have hkey : entry.1.text? = some key := by simpa using List.find?_some hfind
      -- the key occurs once, so that it is this entry
      have heq : entry = (.text key, value) :=
        List.inj_on_of_nodup_map h.nodup_keys (List.mem_of_find?_eq_some hfind) hmem hkey
      exact ⟨entry, rfl, heq ▸ rfl⟩

theorem lookup_eq_none_iff (h : Members entries) :
    lookup entries key = none ↔ ∀ value, (.text key, value) ∉ entries := by
  rw [Option.eq_none_iff_forall_ne_some]
  exact forall_congr' fun value => not_congr (lookup_eq_some_iff h)

/-! ### One setting -/

/-- A JSON value is no set. -/
theorem not_isJson_set {items : List Value} : ¬ (Value.set items).IsJson := by
  intro h
  cases h

/-- **The texts of a list setting** are what its key spells. -/
theorem checkTexts_eq_ok_iff (h : Members entries) :
    checkTexts key (lookup entries key) = .ok texts ↔ SpellsTexts entries key texts := by
  constructor
  · intro hok
    cases hvalue : lookup entries key with
    | none =>
      rw [hvalue] at hok
      obtain rfl := Except.ok.inj hok
      exact .absent ((lookup_eq_none_iff h).1 hvalue)
    | some value =>
      have hmem := (lookup_eq_some_iff h).1 hvalue
      rw [hvalue] at hok
      cases value with
      | null =>
        obtain rfl := Except.ok.inj hok
        exact .null hmem
      | text text =>
        obtain rfl := Except.ok.inj hok
        exact .alone hmem
      | list items =>
        obtain rfl := checkTexts_list_eq_ok_iff.1 hok
        exact .listed hmem
      | set items => exact absurd (h.isJson _ hmem) not_isJson_set
      | _ => cases hok
  · intro hspells
    cases hspells with
    | absent habsent =>
      rw [(lookup_eq_none_iff h).2 habsent]
      rfl
    | null hmem =>
      rw [(lookup_eq_some_iff h).2 hmem]
      rfl
    | alone hmem =>
      rw [(lookup_eq_some_iff h).2 hmem]
      rfl
    | listed hmem =>
      rw [(lookup_eq_some_iff h).2 hmem]
      exact checkTexts_list_eq_ok_iff.2 rfl

theorem follows_iff {path followed : String} :
    Follows base path followed ↔ fromBase base path = followed := by
  constructor
  · intro hfollows
    cases hfollows with
    | nowhere => rfl
    | absolute base habsolute =>
      cases base with
      | none => rfl
      | some b => exact if_pos habsolute
    | relative b hrelative =>
      have hnot : ¬ (Path.ofText path).isAbsolute = true := by
        rw [hrelative]
        exact Bool.false_ne_true
      rw [fromBase, if_neg hnot, Path.join, if_neg hnot]
  · rintro rfl
    cases base with
    | none => exact .nowhere path
    | some b =>
      rw [fromBase]
      cases habsolute : (Path.ofText path).isAbsolute with
      | true => exact .absolute (some b) habsolute
      | false =>
        rw [Path.join, habsolute]
        exact .relative b habsolute

theorem forall₂_follows_iff {followed : List String} :
    List.Forall₂ (Follows base) paths followed ↔ paths.map (fromBase base) = followed := by
  have hfollows : Follows base = fun path followed => fromBase base path = followed :=
    funext fun _ => funext fun _ => propext follows_iff
  rw [hfollows, ← List.forall₂_eq_eq_eq, List.forall₂_map_left_iff]

/-- **The paths of a list setting** are the texts that its key spells, followed. -/
theorem checkPaths_eq_ok_iff (h : Members entries) :
    checkPaths base key (lookup entries key) = .ok paths ↔
      ∃ texts, SpellsTexts entries key texts ∧ List.Forall₂ (Follows base) texts paths := by
  rw [checkPaths, Checked.map_eq_ok_iff]
  simp only [checkTexts_eq_ok_iff h, forall₂_follows_iff]

/-- **The features** are the texts that their key spells, if each is an identifier. -/
theorem checkFeatures_lookup_eq_ok_iff (h : Members entries) :
    checkFeatures key (lookup entries key) = .ok texts ↔
      SpellsTexts entries key texts ∧ ∀ text ∈ texts, ∃ f, Feature.parse text = .ok f := by
  rw [checkFeatures_eq_ok_iff, checkTexts_eq_ok_iff h, firstInvalid?_eq_none_iff]

/-- **A flag** is what its key spells. -/
theorem checkFlag_eq_ok_iff (h : Members entries) :
    checkFlag key (lookup entries key) = .ok flag ↔ SpellsFlag entries key flag := by
  constructor
  · intro hok
    cases hvalue : lookup entries key with
    | none =>
      rw [hvalue] at hok
      obtain rfl := Except.ok.inj hok
      exact .absent ((lookup_eq_none_iff h).1 hvalue)
    | some value =>
      rw [hvalue] at hok
      cases value with
      | bool value =>
        obtain rfl := Except.ok.inj hok
        exact .given ((lookup_eq_some_iff h).1 hvalue)
      | _ => cases hok
  · intro hspells
    cases hspells with
    | absent habsent =>
      rw [(lookup_eq_none_iff h).2 habsent]
      rfl
    | given hmem =>
      rw [(lookup_eq_some_iff h).2 hmem]
      rfl

/-! ### What is complained about -/

/-- Complaints about items, each with the number of its item. -/
theorem mem_complaintsAbout {i : Nat} {items : List Value} :
    c ∈ complaintsAbout key i items ↔
      ∃ (j : Nat) (item : Value), items[j]? = some item ∧ item.text? = none ∧
        c = ⟨[.key key, .index (i + j : Nat)], .notText⟩ := by
  induction items generalizing i with
  | nil => simp [complaintsAbout]
  | cons first rest ih =>
    have hrest : (∃ (j : Nat) (item : Value), (first :: rest)[j]? = some item ∧
          item.text? = none ∧ c = ⟨[.key key, .index (i + j : Nat)], .notText⟩) ↔
        (first.text? = none ∧ c = ⟨[.key key, .index (i : Nat)], .notText⟩) ∨
          c ∈ complaintsAbout key (i + 1) rest := by
      rw [ih]
      constructor
      · rintro ⟨j, item, hitem, htext, rfl⟩
        cases j with
        | zero =>
          obtain rfl := Option.some.inj hitem
          exact Or.inl ⟨htext, rfl⟩
        | succ j =>
          refine Or.inr ⟨j, item, hitem, htext, ?_⟩
          rw [Nat.add_right_comm, Nat.add_assoc]
      · rintro (⟨htext, rfl⟩ | ⟨j, item, hitem, htext, rfl⟩)
        · exact ⟨0, first, rfl, htext, rfl⟩
        · refine ⟨j + 1, item, hitem, htext, ?_⟩
          rw [Nat.add_right_comm, Nat.add_assoc]
    rw [hrest, complaintsAbout]
    cases first.text? <;> simp

theorem pairwise_complaintsAbout (i : Nat) (items : List Value) :
    (complaintsAbout key i items).Pairwise (ComesBefore entries) := by
  induction items generalizing i with
  | nil => exact .nil
  | cons first rest ih =>
    rw [complaintsAbout]
    split
    · exact ih (i + 1)
    · refine .cons (fun c hc => ?_) (ih (i + 1))
      obtain ⟨j, item, -, -, rfl⟩ := mem_complaintsAbout.1 hc
      exact .item (by omega)

theorem complaints_checkItems (key : String) (items : List Value) :
    (checkItems key items).complaints = complaintsAbout key 0 items := by
  rw [checkItems]
  split
  · rename_i hnone
    exact hnone.symm
  · rfl

theorem saysWhy_checkTexts (key : String) (value : Option Value) :
    (checkTexts key value).SaysWhy := by
  have hitems : ∀ items, (checkItems key items).SaysWhy := by
    intro items
    rw [checkItems]
    split
    · exact .ok _
    · rename_i hsome
      exact .error hsome
  cases value with
  | none => exact .ok _
  | some value =>
    cases value with
    | null => exact .ok _
    | text text => exact .ok _
    | list items => exact hitems items
    | set items => exact hitems items
    | _ => exact .error (List.cons_ne_nil _ _)

theorem saysWhy_checkFeatures (key : String) (value : Option Value) :
    (checkFeatures key value).SaysWhy := by
  have htexts := saysWhy_checkTexts key value
  rw [checkFeatures]
  split
  · rename_i complaints herror
    rw [herror] at htexts
    exact .error htexts.ne_nil
  · split
    · exact .ok _
    · exact .error (List.cons_ne_nil _ _)

theorem saysWhy_checkFlag (key : String) (value : Option Value) :
    (checkFlag key value).SaysWhy := by
  rw [checkFlag.eq_def]
  split
  · exact .ok _
  · exact .ok _
  · exact .error (List.cons_ne_nil _ _)

theorem saysWhy_checkKeys (entries : List (Value × Value)) : (checkKeys entries).SaysWhy := by
  rw [checkKeys]
  split
  · exact .ok _
  · rename_i hsome
    exact .error hsome

/-- **Complaints about a list setting**: each item that is no text, or the value as a whole. -/
theorem mem_complaints_checkTexts (h : Members entries) :
    c ∈ (checkTexts key (lookup entries key)).complaints ↔
      (∃ (items : List Value) (i : Nat) (item : Value), (.text key, .list items) ∈ entries ∧
        items[i]? = some item ∧ item.text? = none ∧ c = ⟨[.key key, .index i], .notText⟩) ∨
      ∃ value, (.text key, value) ∈ entries ∧ value ≠ .null ∧ value.text? = none ∧
        (∀ items, value ≠ .list items) ∧ c = ⟨[.key key], .notList⟩ := by
  cases hvalue : lookup entries key with
  | none =>
    have habsent := (lookup_eq_none_iff h).1 hvalue
    simp [checkTexts, Checked.complaints, habsent]
  | some value =>
    have honly : ∀ other, (.text key, other) ∈ entries ↔ other = value := by
      intro other
      rw [← lookup_eq_some_iff h, hvalue, Option.some.injEq, eq_comm]
    simp only [honly]
    cases value with
    | list items =>
      rw [checkTexts, complaints_checkItems, mem_complaintsAbout]
      simp
    | set items => exact absurd (h.isJson _ ((honly _).2 rfl)) not_isJson_set
    | _ => simp [checkTexts, Checked.complaints, Value.text?]

/-- **Complaints about features**: those about a list, or one about the first that is none. -/
theorem mem_complaints_checkFeatures (h : Members entries) :
    c ∈ (checkFeatures key (lookup entries key)).complaints ↔
      c ∈ (checkTexts key (lookup entries key)).complaints ∨
      ∃ valid bad rest, SpellsTexts entries key (valid ++ bad :: rest) ∧
        (∀ text ∈ valid, ∃ f, Feature.parse text = .ok f) ∧ (∀ f, Feature.parse bad ≠ .ok f) ∧
        c = ⟨[.key key], .badFeature ⟨bad⟩⟩ := by
  simp only [← checkTexts_eq_ok_iff h]
  cases htexts : checkTexts key (lookup entries key) with
  | error complaints =>
    have hsame : checkFeatures key (lookup entries key) = .error complaints := by
      rw [checkFeatures, htexts]
    simp [hsame, Checked.complaints]
  | ok texts =>
    rw [checkFeatures_of_checkTexts htexts]
    simp only [Except.ok.injEq]
    cases hinvalid : firstInvalid? texts with
    | none =>
      have hvalid := firstInvalid?_eq_none_iff.1 hinvalid
      constructor
      · intro hc
        cases hc
      · rintro (hc | ⟨valid, bad, rest, rfl, -, hbad, -⟩)
        · cases hc
        · obtain ⟨f, hf⟩ := hvalid bad (List.mem_append_right _ List.mem_cons_self)
          exact absurd hf (hbad f)
    | some e =>
      constructor
      · intro hc
        obtain rfl := List.mem_singleton.1 hc
        obtain ⟨valid, bad, rest, rfl, hvalid, hbad, rfl⟩ := firstInvalid?_eq_some_iff.1 hinvalid
        exact Or.inr ⟨valid, bad, rest, rfl, hvalid, hbad, rfl⟩
      · rintro (hc | ⟨valid, bad, rest, rfl, hvalid, hbad, rfl⟩)
        · cases hc
        · have hfirst := firstInvalid?_eq_some_iff.2 ⟨valid, bad, rest, rfl, hvalid, hbad, rfl⟩
          obtain rfl := Option.some.inj (hinvalid.symm.trans hfirst)
          exact List.mem_singleton_self _

/-- **Complaints about a flag**: one, if it is given and no truth value. -/
theorem mem_complaints_checkFlag (h : Members entries) :
    c ∈ (checkFlag key (lookup entries key)).complaints ↔
      ∃ value, (.text key, value) ∈ entries ∧ (∀ flag, value ≠ .bool flag) ∧
        c = ⟨[.key key], .notBool⟩ := by
  cases hvalue : lookup entries key with
  | none =>
    have habsent := (lookup_eq_none_iff h).1 hvalue
    simp [checkFlag, Checked.complaints, habsent]
  | some value =>
    have honly : ∀ other, (.text key, other) ∈ entries ↔ other = value := by
      intro other
      rw [← lookup_eq_some_iff h, hvalue, Option.some.injEq, eq_comm]
    simp only [honly]
    cases value <;> simp [checkFlag, Checked.complaints]

/-! ### All settings -/

/-- What is complained about for one key. -/
def complaintsOf (entries : List (Value × Value)) (key : String) : List Complaint :=
  if key ∈ flagNames then (checkFlag key (lookup entries key)).complaints
  else if key = "features" then (checkFeatures key (lookup entries key)).complaints
  else if key ∈ listKeys then (checkTexts key (lookup entries key)).complaints
  else [⟨[.key key], .unknownKey⟩]

theorem mem_keys_iff : key ∈ keys ↔ key ∈ listKeys ∨ key ∈ flagNames := by
  rw [← List.mem_append]
  rfl

theorem mem_unknownKeys_iff :
    key ∈ unknownKeys entries ↔ (∃ value, (.text key, value) ∈ entries) ∧ key ∉ keys := by
  rw [unknownKeys, List.mem_filter, List.mem_filterMap, decide_eq_true_eq]
  refine and_congr_left fun _ => ⟨?_, ?_⟩
  · rintro ⟨⟨first, value⟩, hmem, hkey⟩
    obtain rfl := Value.text?_eq_some_iff.1 hkey
    exact ⟨value, hmem⟩
  · rintro ⟨value, hmem⟩
    exact ⟨_, hmem, rfl⟩

theorem mem_keyOrder_of_mem {value : Value} (hmem : (.text key, value) ∈ entries) :
    key ∈ keyOrder entries := by
  by_cases hkey : key ∈ keys
  · exact List.mem_append_left _ hkey
  · exact List.mem_append_right _ (mem_unknownKeys_iff.2 ⟨⟨value, hmem⟩, hkey⟩)

theorem complaintsOf_of_not_mem_keys (hkey : key ∉ keys) :
    complaintsOf entries key = [⟨[.key key], .unknownKey⟩] := by
  rw [mem_keys_iff, not_or] at hkey
  have hfeatures : key ≠ "features" := by
    rintro rfl
    exact hkey.1 (by decide)
  rw [complaintsOf, if_neg hkey.2, if_neg hfeatures, if_neg hkey.1]

theorem complaintsOf_of_mem_listKeys (hkey : key ∈ listKeys) :
    complaintsOf entries key =
      if key = "features" then (checkFeatures key (lookup entries key)).complaints
      else (checkTexts key (lookup entries key)).complaints := by
  have hflag : key ∉ flagNames := by
    simp only [listKeys, List.mem_cons, List.not_mem_nil, or_false] at hkey
    rcases hkey with rfl | rfl | rfl <;> decide
  rw [complaintsOf, if_neg hflag, if_pos hkey]

/-- What is wrong with a list is complained about for all three. -/
theorem mem_complaintsOf_of_mem_checkTexts (h : Members entries) (hkey : key ∈ listKeys)
    (hc : c ∈ (checkTexts key (lookup entries key)).complaints) :
    c ∈ complaintsOf entries key := by
  rw [complaintsOf_of_mem_listKeys hkey]
  split
  · exact (mem_complaints_checkFeatures h).2 (Or.inl hc)
  · exact hc

theorem offends_of_mem_checkTexts (h : Members entries) (hkey : key ∈ listKeys)
    (hc : c ∈ (checkTexts key (lookup entries key)).complaints) : Offends entries c := by
  rcases (mem_complaints_checkTexts h).1 hc with
    ⟨items, i, item, hmem, hitem, htext, rfl⟩ | ⟨value, hmem, hnull, htext, hlist, rfl⟩
  · exact .item hkey hmem hitem htext
  · exact .list hkey hmem hnull htext hlist

/-- **What offends is complained about**, for the key it is about, and nothing else is. -/
theorem exists_mem_complaintsOf_iff (h : Members entries) :
    (∃ key ∈ keyOrder entries, c ∈ complaintsOf entries key) ↔ Offends entries c := by
  constructor
  · rintro ⟨key, hkey, hc⟩
    -- a key is that of a flag, that of a list, or unknown
    by_cases hflag : key ∈ flagNames
    · rw [complaintsOf, if_pos hflag] at hc
      obtain ⟨value, hmem, hbool, rfl⟩ := (mem_complaints_checkFlag h).1 hc
      exact .flag hflag hmem hbool
    by_cases hlist : key ∈ listKeys
    · rw [complaintsOf_of_mem_listKeys hlist] at hc
      split at hc
      · rename_i hfeatures
        subst hfeatures
        rcases (mem_complaints_checkFeatures h).1 hc with
          hc | ⟨valid, bad, rest, hspells, hvalid, hbad, rfl⟩
        · exact offends_of_mem_checkTexts h hlist hc
        · exact .feature hspells hvalid hbad
      · exact offends_of_mem_checkTexts h hlist hc
    · have hunknown : key ∉ keys := by
        rw [mem_keys_iff, not_or]
        exact ⟨hlist, hflag⟩
      rw [complaintsOf_of_not_mem_keys hunknown] at hc
      obtain rfl := List.mem_singleton.1 hc
      obtain ⟨⟨value, hmem⟩, -⟩ :=
        mem_unknownKeys_iff.1 ((List.mem_append.1 hkey).resolve_left hunknown)
      exact .key hmem hunknown
  · intro hoffends
    -- each way to offend is about a key of the map, or about features, which always have their turn
    cases hoffends with
    | @item key items i item hkey hmem hitem htext =>
      refine ⟨key, mem_keyOrder_of_mem hmem, mem_complaintsOf_of_mem_checkTexts h hkey ?_⟩
      exact (mem_complaints_checkTexts h).2 (Or.inl ⟨items, i, item, hmem, hitem, htext, rfl⟩)
    | @list key value hkey hmem hnull htext hlist =>
      refine ⟨key, mem_keyOrder_of_mem hmem, mem_complaintsOf_of_mem_checkTexts h hkey ?_⟩
      exact (mem_complaints_checkTexts h).2 (Or.inr ⟨value, hmem, hnull, htext, hlist, rfl⟩)
    | @feature valid bad rest hspells hvalid hbad =>
      refine ⟨"features", List.mem_append_left _ (by decide), ?_⟩
      rw [complaintsOf_of_mem_listKeys (by decide), if_pos rfl]
      exact (mem_complaints_checkFeatures h).2
        (Or.inr ⟨valid, bad, rest, hspells, hvalid, hbad, rfl⟩)
    | @flag key value hkey hmem hbool =>
      refine ⟨key, mem_keyOrder_of_mem hmem, ?_⟩
      rw [complaintsOf, if_pos hkey]
      exact (mem_complaints_checkFlag h).2 ⟨value, hmem, hbool, rfl⟩
    | @key key value hmem hunknown =>
      refine ⟨key, mem_keyOrder_of_mem hmem, ?_⟩
      rw [complaintsOf_of_not_mem_keys hunknown]
      exact List.mem_singleton_self _

/-! ### The order of complaints -/

theorem exists_place_of_mem_checkTexts (h : Members entries)
    (hc : c ∈ (checkTexts key (lookup entries key)).complaints) :
    ∃ place objection, c = ⟨.key key :: place, objection⟩ := by
  rcases (mem_complaints_checkTexts h).1 hc with
    ⟨_, i, _, -, -, -, rfl⟩ | ⟨_, -, -, -, -, rfl⟩
  · exact ⟨_, _, rfl⟩
  · exact ⟨_, _, rfl⟩

/-- A complaint is about the value of the key it is made for. -/
theorem exists_place_of_mem_complaintsOf (h : Members entries)
    (hc : c ∈ complaintsOf entries key) : ∃ place objection, c = ⟨.key key :: place, objection⟩ := by
  rw [complaintsOf] at hc
  split at hc
  · obtain ⟨_, -, -, rfl⟩ := (mem_complaints_checkFlag h).1 hc
    exact ⟨_, _, rfl⟩
  split at hc
  · rcases (mem_complaints_checkFeatures h).1 hc with hc | ⟨_, _, _, -, -, -, rfl⟩
    · exact exists_place_of_mem_checkTexts h hc
    · exact ⟨_, _, rfl⟩
  split at hc
  · exact exists_place_of_mem_checkTexts h hc
  · obtain rfl := List.mem_singleton.1 hc
    exact ⟨_, _, rfl⟩

theorem pairwise_complaints_checkTexts (key : String) (value : Option Value) :
    (checkTexts key value).complaints.Pairwise (ComesBefore entries) := by
  have hitems : ∀ items, (checkItems key items).complaints.Pairwise (ComesBefore entries) := by
    intro items
    rw [complaints_checkItems]
    exact pairwise_complaintsAbout 0 items
  cases value with
  | none => exact .nil
  | some value =>
    cases value with
    | null => exact .nil
    | text text => exact .nil
    | list items => exact hitems items
    | set items => exact hitems items
    | _ => exact List.pairwise_singleton _ _

/-- Complaints for one key are about its items from the first to the last. -/
theorem pairwise_complaintsOf (key : String) :
    (complaintsOf entries key).Pairwise (ComesBefore entries) := by
  rw [complaintsOf]
  split
  · rw [checkFlag.eq_def]
    split
    · exact .nil
    · exact .nil
    · exact List.pairwise_singleton _ _
  split
  · cases htexts : checkTexts key (lookup entries key) with
    | error complaints =>
      have hsame : checkFeatures key (lookup entries key) =
          checkTexts key (lookup entries key) := by
        rw [checkFeatures, htexts]
      rw [hsame]
      exact pairwise_complaints_checkTexts key _
    | ok texts =>
      rw [checkFeatures_of_checkTexts htexts]
      cases firstInvalid? texts with
      | none => exact .nil
      | some e => exact List.pairwise_singleton _ _
  split
  · exact pairwise_complaints_checkTexts key _
  · exact List.pairwise_singleton _ _

theorem nodup_keyOrder (h : Members entries) : (keyOrder entries).Nodup := by
  have hsome : entries.map (·.1.text?) = (entries.filterMap (·.1.text?)).map some := by
    have hkeys := h.exists_key
    clear h
    induction entries with
    | nil => rfl
    | cons entry rest ih =>
      obtain ⟨key, hkey⟩ := hkeys entry List.mem_cons_self
      have htext : entry.1.text? = some key := Value.text?_eq_some_iff.2 hkey
      rw [List.map_cons, List.filterMap_cons, htext, List.map_cons,
        ih fun other hother => hkeys other (List.mem_cons_of_mem entry hother)]
  have hnames : (entries.filterMap (·.1.text?)).Nodup := (hsome ▸ h.nodup_keys).of_map some
  refine List.nodup_append'.2 ⟨by decide, hnames.filter _, fun key hkey hunknown => ?_⟩
  exact (mem_unknownKeys_iff.1 hunknown).2 hkey

/-- The elements of a list without repetitions come in the order of their numbers. -/
theorem pairwise_idxOf_lt {l : List String} (h : l.Nodup) :
    l.Pairwise fun a b => l.idxOf a < l.idxOf b := by
  rw [List.pairwise_iff_getElem]
  intro i j hi hj hij
  rwa [h.idxOf_getElem i hi, h.idxOf_getElem j hj]

theorem pairwise_flatMap_complaintsOf (h : Members entries) :
    ((keyOrder entries).flatMap (complaintsOf entries)).Pairwise (ComesBefore entries) := by
  refine List.pairwise_flatMap.2 ⟨fun key _ => pairwise_complaintsOf key, ?_⟩
  refine (pairwise_idxOf_lt (nodup_keyOrder h)).imp fun hlt c hc c' hc' => ?_
  obtain ⟨place, objection, rfl⟩ := exists_place_of_mem_complaintsOf h hc
  obtain ⟨place', objection', rfl⟩ := exists_place_of_mem_complaintsOf h hc'
  exact .key hlt

/-- Nothing comes before what comes before it. -/
theorem ComesBefore.asymm {c' : Complaint} (h : ComesBefore entries c c') :
    ¬ ComesBefore entries c' c := by
  intro hback
  cases h with
  | key hlt =>
    cases hback with
    | key hback => exact lt_asymm hlt hback
    | item => exact lt_irrefl _ hlt
  | item hlt =>
    cases hback with
    | key hback => exact lt_irrefl _ hback
    | item hback => exact lt_asymm hlt hback

/-! ### The check -/

theorem complaintAboutKey?_text (key : String) :
    complaintAboutKey? (.text key) =
      if key ∈ keys then none else some ⟨[.key key], .unknownKey⟩ := rfl

/-- A map of texts is complained about for its unknown keys. -/
theorem complaints_checkKeys (h : Members entries) :
    (checkKeys entries).complaints = (unknownKeys entries).flatMap (complaintsOf entries) := by
  have hall : (checkKeys entries).complaints =
      entries.filterMap fun entry => complaintAboutKey? entry.1 := by
    rw [checkKeys]
    split
    · rename_i hnone
      exact hnone.symm
    · rfl
  have hunknown : ∀ key ∈ unknownKeys entries,
      complaintsOf entries key = [⟨[.key key], .unknownKey⟩] :=
    fun key hkey => complaintsOf_of_not_mem_keys (mem_unknownKeys_iff.1 hkey).2
  rw [hall, List.flatMap_congr hunknown, ← List.map_eq_flatMap, unknownKeys]
  have hkeys := h.exists_key
  clear h hall hunknown
  induction entries with
  | nil => rfl
  | cons entry rest ih =>
    obtain ⟨key, hkey⟩ := hkeys entry List.mem_cons_self
    have htext : entry.1.text? = some key := Value.text?_eq_some_iff.2 hkey
    have hrest := ih fun other hother => hkeys other (List.mem_cons_of_mem entry hother)
    rw [List.filterMap_cons, List.filterMap_cons, htext, hkey, complaintAboutKey?_text, hrest]
    by_cases hknown : key ∈ keys <;> simp [hknown]

/-- **All keys name settings** if nothing is complained about. -/
theorem checkKeys_eq_ok_iff (h : Members entries) :
    checkKeys entries = .ok () ↔ ∀ entry ∈ entries, ∃ key ∈ keys, entry.1 = .text key := by
  have hnone : checkKeys entries = .ok () ↔ unknownKeys entries = [] := by
    rw [(saysWhy_checkKeys entries).eq_ok_iff, complaints_checkKeys h, List.flatMap_eq_nil_iff,
      List.eq_nil_iff_forall_not_mem]
    refine forall₂_congr fun key hkey => ?_
    rw [complaintsOf_of_not_mem_keys (mem_unknownKeys_iff.1 hkey).2]
    simp
  rw [hnone, List.eq_nil_iff_forall_not_mem]
  constructor
  · intro hknown entry hmem
    obtain ⟨key, hkey⟩ := h.exists_key entry hmem
    by_contra hunknown
    exact hknown key (mem_unknownKeys_iff.2
      ⟨⟨entry.2, hkey ▸ hmem⟩, fun hkeys => hunknown ⟨key, hkeys, hkey⟩⟩)
  · intro hknown key hkey
    obtain ⟨⟨value, hmem⟩, hunknown⟩ := mem_unknownKeys_iff.1 hkey
    obtain ⟨other, hother, heq⟩ := hknown _ hmem
    obtain rfl := Value.text.inj heq
    exact hunknown hother

/-- **Checking a map** asks whether its entries spell settings. -/
theorem check_eq_ok_iff (h : Members entries) :
    check base (.map entries) = .ok s ↔ Spells base entries s := by
  rw [check, checkEntries, Checked.map_eq_ok_iff]
  constructor
  · rintro ⟨⟨libraries, tests, features, recursive, useAllFiles, strictExtensions,
      requireTestedMatch, all⟩, hchecked, rfl⟩
    simp only [Checked.both_eq_ok_iff] at hchecked
    obtain ⟨hlibraries, htests, hfeatures, hrecursive, huseAllFiles, hstrictExtensions,
      hrequireTestedMatch, hkeys⟩ := hchecked
    obtain ⟨hspells, hidentifiers⟩ := (checkFeatures_lookup_eq_ok_iff h).1 hfeatures
    exact
      { known := (checkKeys_eq_ok_iff h).1 hkeys
        libraries := (checkPaths_eq_ok_iff h).1 hlibraries
        tests := (checkPaths_eq_ok_iff h).1 htests
        features := hspells
        identifiers := hidentifiers
        recursive := (checkFlag_eq_ok_iff h).1 hrecursive
        useAllFiles := (checkFlag_eq_ok_iff h).1 huseAllFiles
        strictExtensions := (checkFlag_eq_ok_iff h).1 hstrictExtensions
        requireTestedMatch := (checkFlag_eq_ok_iff h).1 hrequireTestedMatch }
  · intro hs
    refine ⟨(s.libraries, s.tests, s.features, s.recursive, s.useAllFiles, s.strictExtensions,
      s.requireTestedMatch, ()), ?_, rfl⟩
    simp only [Checked.both_eq_ok_iff]
    exact ⟨(checkPaths_eq_ok_iff h).2 hs.libraries, (checkPaths_eq_ok_iff h).2 hs.tests,
      (checkFeatures_lookup_eq_ok_iff h).2 ⟨hs.features, hs.identifiers⟩,
      (checkFlag_eq_ok_iff h).2 hs.recursive, (checkFlag_eq_ok_iff h).2 hs.useAllFiles,
      (checkFlag_eq_ok_iff h).2 hs.strictExtensions,
      (checkFlag_eq_ok_iff h).2 hs.requireTestedMatch, (checkKeys_eq_ok_iff h).2 hs.known⟩

theorem saysWhy_check (base : Option Path) (value : Value) : (check base value).SaysWhy := by
  cases value with
  | map entries =>
    have hpaths : ∀ key, (checkPaths base key (lookup entries key)).SaysWhy := fun key =>
      (saysWhy_checkTexts key _).map _
    have hflag : ∀ key, (checkFlag key (lookup entries key)).SaysWhy := fun key =>
      saysWhy_checkFlag key _
    exact Checked.SaysWhy.map _ <| (hpaths _).both <| (hpaths _).both <|
      (saysWhy_checkFeatures _ _).both <| (hflag _).both <| (hflag _).both <| (hflag _).both <|
      (hflag _).both (saysWhy_checkKeys entries)
  | _ => exact .error (List.cons_ne_nil _ _)

/-- **What is complained about** in a map: key by key, with nothing left out. -/
theorem complaints_check (h : Members entries) :
    (check base (.map entries)).complaints =
      (keyOrder entries).flatMap (complaintsOf entries) := by
  have htexts : ∀ key ∈ listKeys, key ≠ "features" →
      (checkTexts key (lookup entries key)).complaints = complaintsOf entries key :=
    fun key hkey hne => ((complaintsOf_of_mem_listKeys hkey).trans (if_neg hne)).symm
  have hfeatures : (checkFeatures "features" (lookup entries "features")).complaints =
      complaintsOf entries "features" :=
    ((complaintsOf_of_mem_listKeys (by decide)).trans (if_pos rfl)).symm
  have hflag : ∀ key ∈ flagNames,
      (checkFlag key (lookup entries key)).complaints = complaintsOf entries key :=
    fun key hkey => (if_pos hkey).symm
  rw [check, checkEntries]
  simp only [Checked.complaints_map, Checked.complaints_both, checkPaths, complaints_checkKeys h]
  rw [htexts "lib_dirs" (by decide) (by decide), htexts "test_files" (by decide) (by decide),
    hfeatures, hflag "recursive" (by decide), hflag "use_all_files" (by decide),
    hflag "strict_extensions" (by decide), hflag "require_tested_match" (by decide)]
  rw [keyOrder, List.flatMap_append]
  simp only [keys, List.flatMap_cons, List.flatMap_nil, List.append_nil, List.append_assoc]

/-- **Checking a map fails** with what offends, in order. -/
theorem check_eq_error_iff (h : Members entries) {complaints : List Complaint} :
    check base (.map entries) = .error complaints ↔
      complaints ≠ [] ∧ (∀ c, c ∈ complaints ↔ Offends entries c) ∧
        complaints.Pairwise (ComesBefore entries) := by
  have hmem : ∀ c, c ∈ (keyOrder entries).flatMap (complaintsOf entries) ↔ Offends entries c :=
    fun c => List.mem_flatMap.trans (exists_mem_complaintsOf_iff h)
  -- the complaints there are fit the description, and no other list does
  rw [(saysWhy_check base _).eq_error_iff, complaints_check h]
  refine and_congr_right fun _ => ⟨?_, ?_⟩
  · rintro rfl
    exact ⟨hmem, pairwise_flatMap_complaintsOf h⟩
  · rintro ⟨hoffends, hordered⟩
    -- complaints in order are known from what is among them
    exact eq_of_pairwise_of_asymm (fun _ _ => ComesBefore.asymm) (pairwise_flatMap_complaintsOf h)
      hordered fun c => (hmem c).trans (hoffends c).symm

/-! ### Settings written as a value -/

/-- What a path is written as is absolute if the path is. -/
theorem isAbsolute_ofText_text {p : Path} (h : p.isAbsolute = true) :
    (Path.ofText p.text).isAbsolute = true := by
  have hslash : ∃ rest, p.text.toList = '/' :: rest := by
    obtain ⟨anchor, names⟩ := p
    cases anchor with
    | here => cases h
    | root => exact ⟨("/".intercalate names).toList, by simp [Path.text, Anchor.text]⟩
    | doubleRoot => exact ⟨'/' :: ("/".intercalate names).toList, by simp [Path.text, Anchor.text]⟩
  obtain ⟨rest, htext⟩ := hslash
  have hslashes : ∀ n, Anchor.ofSlashes (n + 1) ≠ .here := by
    intro n h
    rcases n with _ | _ | n <;> cases h
  rw [Path.isAbsolute, Path.ofText, htext, List.takeWhile_cons_of_pos (by decide), List.length_cons]
  exact bne_iff_ne.2 (hslashes _)

/-- A path that has been followed from an absolute base stays as it is. -/
theorem fromBase_fromBase (hbase : ∀ b, base = some b → b.isAbsolute = true) (path : String) :
    fromBase base (fromBase base path) = fromBase base path := by
  cases base with
  | none => rfl
  | some b =>
    by_cases habsolute : (Path.ofText path).isAbsolute = true
    · rw [fromBase, fromBase, if_pos habsolute, if_pos habsolute]
    · have hjoined : (b.join (Path.ofText path)).isAbsolute = true := by
        rw [Path.join, if_neg habsolute]
        exact hbase b rfl
      rw [fromBase, fromBase, if_neg habsolute, if_pos (isAbsolute_ofText_text hjoined)]

theorem isJson_toValue (s : Settings) : s.toValue.IsJson := by
  have htexts : ∀ texts, (Value.ofTexts texts).IsJson := by
    refine fun texts => .list fun item hitem => ?_
    obtain ⟨text, -, rfl⟩ := List.mem_map.1 hitem
    exact .text text
  refine .map ?_ ?_ (show (keys.map some).Nodup by decide)
  · simp [htexts, Value.IsJson.bool]
  · simp

/-- **Settings written as a value spell themselves**, their paths followed from the base. -/
theorem check_toValue (base : Option Path) (hfeatures : firstInvalid? s.features = none) :
    check base s.toValue =
      .ok { s with
        libraries := s.libraries.map (fromBase base), tests := s.tests.map (fromBase base) } := by
  refine (check_eq_ok_iff (members_of_isJson (isJson_toValue s))).2 ?_
  exact
    { known := by simp [keys]
      libraries := ⟨s.libraries, .listed (by simp [Value.ofTexts]), forall₂_follows_iff.2 rfl⟩
      tests := ⟨s.tests, .listed (by simp [Value.ofTexts]), forall₂_follows_iff.2 rfl⟩
      features := .listed (by simp [Value.ofTexts])
      identifiers := firstInvalid?_eq_none_iff.1 hfeatures
      recursive := .given (by simp)
      useAllFiles := .given (by simp)
      strictExtensions := .given (by simp)
      requireTestedMatch := .given (by simp) }

/-- Settings that have been checked have paths that stay as they are, if they were followed from an
absolute base. -/
theorem check_toValue_of_check (hbase : ∀ b, base = some b → b.isAbsolute = true) {value : Value}
    (h : value.IsJson) (hs : check base value = .ok s) : check base s.toValue = .ok s := by
  -- what has been followed is absolute by now, or there is no base to follow it from
  have hfollowed : ∀ {texts paths : List String}, List.Forall₂ (Follows base) texts paths →
      paths.map (fromBase base) = paths := by
    intro texts paths hpaths
    obtain rfl := forall₂_follows_iff.1 hpaths
    rw [List.map_map]
    exact List.map_congr_left fun path _ => fromBase_fromBase hbase path
  rw [check_toValue base (firstInvalid?_of_check hs)]
  cases value with
  | map entries =>
    have hspells := (check_eq_ok_iff (members_of_isJson h)).1 hs
    obtain ⟨libraries, -, hlibraries⟩ := hspells.libraries
    obtain ⟨tests, -, htests⟩ := hspells.tests
    rw [hfollowed hlibraries, hfollowed htests]
  | _ => cases hs

/-- **Checking settings is reading their grammar**, for each JSON value, from any base or none.

* A check succeeds exactly if the value is a map that spells settings, and gives these.
* Otherwise it complains that the value is no map, or about each place of the map that offends and
  about nothing else: about settings as they are declared, then about unknown keys as they come.
* Settings that were accepted are accepted again as they are, from nowhere or from the same base if
  that is absolute. -/
theorem check_json {value : Value} (base : Option Path) (h : value.IsJson) :
    (∀ s, check base value = .ok s ↔ ∃ entries, value = .map entries ∧ Spells base entries s) ∧
    (∀ complaints, check base value = .error complaints ↔
      ((∀ entries, value ≠ .map entries) ∧ complaints = [⟨[], .notMap⟩]) ∨
      ∃ entries, value = .map entries ∧ complaints ≠ [] ∧
        (∀ c, c ∈ complaints ↔ Offends entries c) ∧ complaints.Pairwise (ComesBefore entries)) ∧
    (∀ s, check base value = .ok s → check none s.toValue = .ok s ∧
      ((∀ b, base = some b → b.isAbsolute = true) → check base s.toValue = .ok s)) := by
  refine ⟨fun s => ?_, fun complaints => ?_, fun s hs => ⟨?_, fun hbase => ?_⟩⟩
  · cases value with
    | map entries => simp [check_eq_ok_iff (members_of_isJson h)]
    | _ => simp [check]
  · cases value with
    | map entries => simp [check_eq_error_iff (members_of_isJson h)]
    | _ => simp [check, eq_comm]
  · have hsame : ∀ paths : List String, paths.map (fromBase none) = paths := List.map_id
    rw [check_toValue none (firstInvalid?_of_check hs), hsame, hsame]
  · exact check_toValue_of_check hbase h hs

/-- A map with an item that is no text, features of which two are none, a number for a flag, and an
unknown key. -/
def misspelled : List (Value × Value) :=
  [(.text "zz", .null), (.text "recursive", .integer 1),
    (.text "features", .list [.text "m:x", .text "m:", .text ":"]),
    (.text "lib_dirs", .list [.text "lib", .integer 3, .null])]

/-- A map with a file alone, a relative and an absolute root, and a feature list that is null. -/
def wellSpelled : List (Value × Value) :=
  [(.text "test_files", .text "m.yang"), (.text "features", .null),
    (.text "lib_dirs", .list [.text "lib", .text "//srv//x"]), (.text "recursive", .bool true)]

/-- Each place that offends is complained about. A root that is absolute keeps its spelling. -/
theorem check_json_misspelled :
    (Value.map misspelled).IsJson ∧ (Value.map wellSpelled).IsJson ∧
    (∀ c, c ∈ ([⟨[.key "lib_dirs", .index 1], .notText⟩, ⟨[.key "lib_dirs", .index 2], .notText⟩,
      ⟨[.key "features"], .badFeature ⟨"m:"⟩⟩, ⟨[.key "recursive"], .notBool⟩,
      ⟨[.key "zz"], .unknownKey⟩] : List Complaint) ↔ Offends misspelled c) ∧
    ∃ s, Spells (some ⟨.root, ["b"]⟩) wellSpelled s ∧ check (some ⟨.root, ["b"]⟩) s.toValue = .ok s ∧
      s = { libraries := ["/b/lib", "//srv//x"], tests := ["/b/m.yang"], recursive := true } := by
  have hmisspelled : (Value.map misspelled).IsJson := by
    refine .map ?_ ?_ (by decide)
    · simp [misspelled, Value.IsJson.null, Value.IsJson.integer, Value.IsJson.text,
        Value.IsJson.list]
    · simp [misspelled]
  have hwellSpelled : (Value.map wellSpelled).IsJson := by
    refine .map ?_ ?_ (by decide)
    · simp [wellSpelled, Value.IsJson.null, Value.IsJson.bool, Value.IsJson.text, Value.IsJson.list]
    · simp [wellSpelled]
  have herror : check (some ⟨.root, ["b"]⟩) (.map misspelled) = .error
      [⟨[.key "lib_dirs", .index 1], .notText⟩, ⟨[.key "lib_dirs", .index 2], .notText⟩,
        ⟨[.key "features"], .badFeature ⟨"m:"⟩⟩, ⟨[.key "recursive"], .notBool⟩,
        ⟨[.key "zz"], .unknownKey⟩] := by decide +kernel
  have hok : check (some ⟨.root, ["b"]⟩) (.map wellSpelled) =
      .ok { libraries := ["/b/lib", "//srv//x"], tests := ["/b/m.yang"], recursive := true } := by
    decide +kernel
  obtain ⟨-, hfails, -⟩ := check_json (some ⟨.root, ["b"]⟩) hmisspelled
  obtain ⟨hspells, -, hagain⟩ := check_json (some ⟨.root, ["b"]⟩) hwellSpelled
  refine ⟨hmisspelled, hwellSpelled, ?_, _, ?_, (hagain _ hok).2 ?_, rfl⟩
  · obtain ⟨hmap, -⟩ | ⟨entries, heq, -, hoffends, -⟩ := (hfails _).1 herror
    · exact absurd rfl (hmap misspelled)
    · obtain rfl := Value.map.inj heq
      exact hoffends
  · obtain ⟨entries, heq, hentries⟩ := (hspells _).1 hok
    obtain rfl := Value.map.inj heq
    exact hentries
  · rintro b hb
    obtain rfl := Option.some.inj hb
    rfl

end Settings

end SchemaAssembly
