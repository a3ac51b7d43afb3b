import SchemaAssembly.Yang.Scope

/-!
# Definitions

Checks of groupings, features, identities and extensions, and of the references to them. A
definition is checked when it is first referred to; one that needs itself is reported where its
circle closes.

While a grouping is checked, references in it that lead nowhere are passed over silently: they are
reported at their own turn.
-/

namespace SchemaAssembly.Yang.Check

/-- The sites with a keyword inside a site that the grammar does not reject. -/
def sitesInside (s : Site) (keyword : String) : Check (List Site) :=
  ofModule s.home [] fun m =>
    (sitesIn m.rejected s.home (s.statement :: s.around) s.statement.body).filter
      (·.statement.keyword = keyword)

/-- Checks a definition unless it has been checked, and says whether it is free of circles so far.
-/
def once (kind : DefinitionKind) (d : Site) (check : Check Unit) : Check Bool := do
  match ← progressOf d with
  | some .done => return true
  | some _ =>
    reportAt d (.definition (.circular kind.text d.statement.name))
    return false
  | none =>
    setProgress d .active
    check
    setProgress d .done
    return true

/-! ### Groupings -/

mutual

/-- Checks a grouping. -/
def checkGrouping : (depth : Nat) → Site → Check Bool
  | 0, _ => return false
  | depth + 1, d =>
    once .grouping d do
      checkNotDefinedOutside .grouping d
      for uses in ← sitesInside d "uses" do
        checkUses depth true uses

/-- Finds the grouping that a uses statement refers to. -/
def checkUses : (depth : Nat) → (isSilent : Bool) → Site → Check Unit
  | 0, _, _ => return
  | depth + 1, isSilent, s => do
    let r := Reference.ofText s.statement.name
    let position ← positionOf s
    let note := fun (g : Option Site) =>
      modify fun w => { w with groupings := (s.key, g) :: w.groupings }
    note none
    let (owner, found) ←
      if ← isOwn s.home r.qualifier then
        match ← definition? .grouping r.name s with
        | some g =>
          let isFine ← checkGrouping depth g
          pure (← module? s.home, if isFine then some g else none)
        | none => pure (← module? s.home, none)
      else
        match ← moduleOf? s.home r.qualifier position isSilent with
        | some m => pure (some m, ← outermostDefinition? .grouping r.name m)
        | none => pure (none, none)
    note found
    match owner, found with
    | some m, none =>
      if !isSilent then report position (.definition (.undefined .grouping r.name m.name))
    | _, _ => return

end

/-- The grouping that a uses statement refers to, if it has been found. -/
def groupingOf (s : Site) : Check (Option Site) :=
  return ((← get).groupings.lookup s.key).join

/-! ### Features -/

/-- What a reference leads to at the outermost level of the module it is looked for in. -/
def referredTo? (kind : DefinitionKind) (r : Reference) (m : Module) (s : Site) :
    Check (Option Site) := do
  match m.definition? kind r.name with
  | none => return none
  | some d =>
    if r.qualifier.isNone && !(← seesOwned s.home d) then return none
    return some d

/-- Notes that a condition of a statement does not hold. -/
def disable (s : Site) : Check Unit :=
  modify fun w => { w with disabled := s.key :: w.disabled }

mutual

/-- Checks a feature. -/
def checkFeature : (depth : Nat) → Site → Check Bool
  | 0, _ => return false
  | depth + 1, d =>
    once .feature d do
      for condition in ← sitesInside d "if-feature" do
        checkCondition depth true condition

/-- Checks a condition on features, and notes if it does not hold. -/
def checkCondition : (depth : Nat) → (isSilent : Bool) → Site → Check Unit
  | 0, _, _ => return
  | depth + 1, isSilent, s => do
    match FeatureExpression.ofText? s.statement.name with
    | none => return
    | some e =>
      if (← ofModule s.home false (·.isOld)) && !e.isName then
        reportAt s (.grammar (.badArgument s.statement.name ArgumentKind.identifierRef.shown))
        return
      let isEnabled : Reference → OptionT Check Bool := isFeatureEnabled depth isSilent s
      match ← (e.holds isEnabled).run with
      | some false => s.parent?.forM disable
      | _ => return

/-- Whether a feature that a condition refers to is enabled. There is no answer if it is not there,
unless the check is silent. -/
def isFeatureEnabled : (depth : Nat) → (isSilent : Bool) → Site → Reference → OptionT Check Bool
  | 0, _, _, _ => failure
  | depth + 1, isSilent, s, r => do
    let m ← OptionT.mk (moduleOf? s.home r.qualifier (← positionOf s))
    match ← OptionT.lift (referredTo? .feature r m s) with
    | some d =>
      let _ ← OptionT.lift (checkFeature depth d)
      return (← get).switches.isEnabled m.owner r.name
    | none =>
      if isSilent then return false
      OptionT.lift (reportAt s (.definition (.undefined .feature r.name m.name)))
      failure

end

/-! ### Identities -/

mutual

/-- Checks an identity. -/
def checkIdentity : (depth : Nat) → Site → Check Bool
  | 0, _ => return false
  | depth + 1, d =>
    once .identity d do
      for base in ← sitesInside d "base" do
        let _ ← identityOf depth true base

/-- The identity that a base statement refers to. -/
def identityOf : (depth : Nat) → (isSilent : Bool) → Site → Check (Option Site)
  | 0, _, _ => return none
  | depth + 1, isSilent, s => do
    let r := Reference.ofText s.statement.name
    match ← moduleOf? s.home r.qualifier (← positionOf s) with
    | none => return none
    | some m =>
      let found ← referredTo? .identity r m s
      match found with
      | some d =>
        let _ ← checkIdentity depth d
      | none =>
        if !isSilent then
          reportAt s (.definition (.undefined .identity r.name m.name))
      return found

end

/-- Whether an identity is derived from another one. -/
def isDerived : (depth : Nat) → (base : Site) → Site → Check Bool
  | 0, _, _ => return false
  | depth + 1, base, d =>
    (d.all "base").anyM fun s => do
      match ← identityOf depth true s with
      | some next => if next.key = base.key then return true else isDerived depth base next
      | none => return false

/-! ### Extensions -/

/-- Checks a statement of an extension. -/
def checkExtension (s : Site) : Check Unit := do
  match s.statement.qualifiedKeyword? with
  | none => return
  | some (qualifier, name) =>
    match ← moduleOf? s.home (some qualifier) (← positionOf s) true with
    | none => return
    | some m =>
      match m.definition? .extension name with
      | none => reportAt s (.definition (.undefinedExtension name m.name))
      | some d =>
        let takesArgument := (d.statement.first? "argument").isSome
        if s.statement.argument.isSome && !takesArgument then
          reportAt s (.definition (.needlessArgument name))
        else if s.statement.argument.isNone && takesArgument then
          reportAt s (.definition (.noArgument name))

/-! ### Augments -/

/-- Checks that the path of an augment begins as it must where the augment stands. -/
def checkAugment (s : Site) : Check Unit := do
  let isAbsolute := s.statement.name.startsWith "/"
  if s.parentKeyword = "uses" then
    if isAbsolute then
      reportAt s (.grammar (.badArgument s.statement.name "descendant-node-id"))
  else if !isAbsolute then
    reportAt s (.grammar (.badArgument s.statement.name "absolute-node-id"))

/-! ### All definitions -/

/-- **Checks what a statement defines or refers to**, types apart. -/
def checkDefinition (s : Site) : Check Unit := do
  let depth ← depth
  match s.statement.keyword with
  | "grouping" => let _ ← checkGrouping depth s
  | "augment" => checkAugment s
  | "uses" => checkUses depth false s
  | "feature" => let _ ← checkFeature depth s
  | "if-feature" => checkCondition depth false s
  | "identity" => let _ ← checkIdentity depth s
  | "base" => let _ ← identityOf depth false s
  | _ => if s.statement.isExtension then checkExtension s

end SchemaAssembly.Yang.Check
