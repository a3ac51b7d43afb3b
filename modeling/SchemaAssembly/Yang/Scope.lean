import SchemaAssembly.Yang.Workspace

/-!
# Scopes

A name without a short name, or with the module's own one, is looked for in the statements around
it, from the inside out, and then at the outermost level of the module and of what it includes.
Otherwise it is looked for at the outermost level of the module that the short name stands for. What
a submodule defines is seen by a module, or by another submodule, only if that one includes it.
-/

namespace SchemaAssembly.Yang.Check

/-- The definition of a name that the innermost of some statements has. -/
def definitionAround (kind : DefinitionKind) (name : String) (home : Nat) :
    List Statement → Check (Option Site)
  | [] => return none
  | [_] => ofModule home none (·.definition? kind name)
  | s :: outer =>
    match (s.all kind.definedBy).find? (·.argument = some name) with
    | some definition => return some ⟨home, definition, s :: outer⟩
    | none => definitionAround kind name home outer

/-- Whether a module sees a site, in that it includes the submodule that it may be in. -/
def sees (home : Nat) (s : Site) : Check Bool := do
  if home = s.home then return true
  match ← module? home, ← module? s.home with
  | some m, some other => return !other.isSubmodule || m.includes other.name
  | _, _ => return true

/-- Whether a module sees a site, or the site is in a submodule of another module. -/
def seesOwned (home : Nat) (s : Site) : Check Bool := do
  match ← module? home, ← module? s.home with
  | some m, some other =>
    if m.owner = other.owner then sees home s else return true
  | _, _ => return true

/-- The definition of a name as it is seen from a site. -/
def definition? (kind : DefinitionKind) (name : String) (s : Site) : Check (Option Site) := do
  match ← definitionAround kind name s.home (s.statement :: s.around) with
  | some d => if ← sees s.home d then return some d else return none
  | none => return none

/-- The definition of a name at the outermost level of a module. -/
def outermostDefinition? (kind : DefinitionKind) (name : String) (m : Module) :
    Check (Option Site) :=
  definition? kind name m.site

/-- Reports a definition in a body if its name is defined further out. -/
def checkNotDefinedOutside (kind : DefinitionKind) (d : Site) : Check Unit := do
  match d.parent?.bind (·.parent?) with
  | none => return
  | some outer =>
    match ← definition? kind d.statement.name outer with
    | some other =>
      reportAt d (.definition (.alreadyDefined kind d.statement.name (← positionOf other)))
    | none => return

end SchemaAssembly.Yang.Check
