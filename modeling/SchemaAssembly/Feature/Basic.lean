import SchemaAssembly.Text.Blank

/-!
# Features

A feature is named by the module that defines it and its name there. Its identifier joins the two
with a colon; blanks around an identifier do not count, blanks inside it do.

- `Feature.parse` reads an identifier, `Feature.text` writes it.
- Features are ordered by module and then by name.
-/

namespace SchemaAssembly

/-- A feature, qualified by the module that defines it. -/
structure Feature where
  /-- the module that defines the feature -/
  moduleName : String
  /-- the feature's name in that module -/
  name : String
  deriving DecidableEq, Repr

/-- A text that is no feature identifier. -/
structure InvalidFeature where
  /-- the text as it was given -/
  text : String
  deriving DecidableEq, Repr

/-- What is wrong, in words. -/
def InvalidFeature.message (e : InvalidFeature) : String :=
  "invalid feature identifier '" ++ e.text ++ "', expected 'module:feature'"

namespace Feature

/-- The identifier of a feature. -/
def text (f : Feature) : String :=
  f.moduleName ++ ":" ++ f.name

/-- The characters before the first colon and those after it, if there is a colon. -/
def splitColon : List Char → Option (List Char × List Char)
  | [] => none
  | ':' :: rest => some ([], rest)
  | c :: rest => (splitColon rest).map fun (before, after) => (c :: before, after)

/-- **Reading an identifier**: exactly one colon with something on both sides of it. -/
def parse (text : String) : Except InvalidFeature Feature :=
  match splitColon (Text.trimChars text.toList) with
  | some (before, after) =>
    if before = [] ∨ after = [] ∨ ':' ∈ after then .error ⟨text⟩
    else .ok ⟨String.ofList before, String.ofList after⟩
  | none => .error ⟨text⟩

/-- Features are ordered by module, then by name. -/
instance : LT Feature where
  lt f g := f.moduleName < g.moduleName ∨ (f.moduleName = g.moduleName ∧ f.name < g.name)

instance (f g : Feature) : Decidable (f < g) :=
  inferInstanceAs (Decidable (_ ∨ (_ ∧ _)))

/-- The order of features spelled out. -/
theorem lt_iff {f g : Feature} :
    f < g ↔ f.moduleName < g.moduleName ∨ (f.moduleName = g.moduleName ∧ f.name < g.name) :=
  Iff.rfl

/-- No feature comes before itself. -/
theorem lt_irrefl (f : Feature) : ¬ f < f := by
  rw [lt_iff]
  rintro (h | ⟨_, h⟩)
  · exact String.lt_irrefl _ h
  · exact String.lt_irrefl _ h

/-- The order of features is transitive. -/
theorem lt_trans {f g h : Feature} (hfg : f < g) (hgh : g < h) : f < h := by
  rw [lt_iff] at *
  rcases hfg with hfg | ⟨hm, hfg⟩ <;> rcases hgh with hgh | ⟨hm', hgh⟩
  · exact Or.inl (String.lt_trans hfg hgh)
  · exact Or.inl (hm' ▸ hfg)
  · exact Or.inl (hm ▸ hgh)
  · exact Or.inr ⟨hm.trans hm', String.lt_trans hfg hgh⟩

/-- Of two different features one comes first. -/
theorem lt_of_ne_of_not_lt {f g : Feature} (hne : f ≠ g) (hlt : ¬ f < g) : g < f := by
  rw [lt_iff, not_or, String.not_lt] at hlt
  rw [lt_iff]
  by_cases hm : g.moduleName = f.moduleName
  · refine Or.inr ⟨hm, String.not_le.1 fun hle => hne ?_⟩
    have hge : g.name ≤ f.name := String.not_lt.1 fun h => hlt.2 ⟨hm.symm, h⟩
    have hn : f.name = g.name := String.le_antisymm hle hge
    cases f
    cases g
    simp_all
  · exact Or.inl (String.not_le.1 fun hle => hm (String.le_antisymm hlt.1 hle))

end Feature

end SchemaAssembly
