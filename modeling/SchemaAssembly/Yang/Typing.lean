import SchemaAssembly.Yang.Restriction

/-!
# Typing

What type a type statement states. A type is checked when it is first needed, and a type definition
when it is first referred to.

- `Check.typeOf` is the type of a type statement.
- `Check.madeFrom?` finds out what a type is made from.
-/

namespace SchemaAssembly.Yang.Check

/-- Notes the type of a type statement. -/
def setType (s : Site) (t : KnownType) : Check Unit :=
  modify fun w => { w with types := (s.key, t) :: w.types }

/-- What is known of a type statement. -/
def knownType? (s : Site) : Check (Option KnownType) :=
  return (← get).types.lookup s.key

/-- The sites with a keyword in a body that the grammar does not reject. -/
def accepted (s : Site) (keyword : String) : Check (List Site) :=
  ofModule s.home [] fun m => (s.all keyword).filter fun t => !m.rejects t.statement

/-- Reports a restriction that does not fit a type. -/
def reportRestriction (s : Site) (restriction : String) : Check Unit :=
  reportAt s (.typing (.badRestriction restriction))

/-- A type restricted by its number of digits behind the point. -/
def withPlaces (s : Site) (type : DataType) : Check DataType := do
  let isDecimal := s.statement.name = "decimal64"
  match s.first? "fraction-digits" with
  | some places =>
    if !isDecimal then
      reportRestriction places "fraction_digits"
      return type
    match (Text.trim places.statement.name).toNat? with
    | some n => return .decimal n
    | none => return type
  | none =>
    if isDecimal then reportAt s (.typing (.missing "decimal64" "fraction-digits"))
    return type

/-- A type restricted by its range. -/
def withRange (s : Site) (type : DataType) : Check DataType := do
  match s.first? "range" with
  | none => return type
  | some range =>
    if !type.restrictions.contains "range" then
      reportRestriction range "range"
      return type
    if ← ofModule s.home false (·.rejects range.statement) then return type
    match ← readRange range type with
    | some intervals => return .ranged type intervals (← positionOf range)
    | none => return type

/-- A type restricted by its length. -/
def withLength (s : Site) (type : DataType) : Check DataType := do
  match s.first? "length" with
  | none => return type
  | some length =>
    if !type.restrictions.contains "length" then
      reportRestriction length "length"
      return type
    if ← ofModule s.home false (·.rejects length.statement) then return type
    let position ← positionOf length
    match ← lengthIntervals position none (intervalTexts length.statement.name) with
    | some intervals => return .sized type intervals position
    | none => return type

/-- A type restricted by its patterns. -/
def withPatterns (s : Site) (type : DataType) : Check DataType := do
  match s.all "pattern" with
  | [] => return type
  | first :: rest =>
    if !type.restrictions.contains "pattern" then
      reportRestriction first "pattern"
      return type
    let patterns ← (first :: rest).mapM fun p => do
      match Text.Pattern.ofText? p.statement.name with
      | none =>
        reportAt p (.typing (.badPattern p.statement.name))
        return none
      | some pattern =>
        let isInverted := (p.statement.first? "modifier").isSome
        return some { pattern, isInverted, position := ← positionOf p : TypePattern }
    return .patterned type (patterns.filterMap id)

/-- A type that points to another leaf. -/
def withPath (s : Site) (type : DataType) : Check DataType := do
  let isPointer := s.statement.name = "leafref"
  match s.first? "path" with
  | some path =>
    if !isPointer then
      reportRestriction path "path"
      return type
    if ← ofModule s.home false (·.rejects path.statement) then return type
    return .pointer path true
  | none =>
    if isPointer then reportAt s (.typing (.missing "leafref" "path"))
    return type

/-- A type restricted to what is derived from identities. -/
def withBases (s : Site) (type : DataType) : Check DataType := do
  let isIdentity := s.statement.name = "identityref"
  match s.all "base" with
  | [] =>
    if isIdentity then reportAt s (.typing (.missing "identityref" "base"))
    return type
  | first :: rest =>
    if !isIdentity then
      reportRestriction first "base"
      return type
    match rest with
    | second :: _ =>
      if ← ofModule s.home false (·.isOld) then
        reportAt second (.grammar (.unexpected "base"))
        return type
    | [] => pure ()
    let depth ← depth
    let found ← (first :: rest).mapM fun base => do
      return (← identityOf depth false base).map fun d => (d, base.statement.name)
    match found.filterMap id with
    | [] => return type
    | bases => return .identity bases

/-- A type that says whether what it points to must be there. -/
def withRequirement (s : Site) (type : DataType) : Check DataType := do
  match s.first? "require-instance" with
  | none => return type
  | some requirement =>
    if !type.restrictions.contains "require-instance" then
      reportRestriction requirement "require-instance"
      return type
    match type.unnamed with
    | .pointer path _ => return .pointer path (requirement.statement.name = "true")
    | _ => return type

/-- A type of named values. -/
def withNames (s : Site) (type : DataType) (typeName keyword : String) (numbering : Numbering)
    (make : List (String × Option Int) → DataType) : Check DataType := do
  match s.all keyword with
  | [] =>
    if s.statement.name = typeName then reportAt s (.typing (.missingAny typeName keyword))
    return type
  | first :: rest =>
    let isOld ← ofModule s.home false (·.isOld)
    if !type.restrictions.contains keyword || (isOld && s.statement.name != typeName) then
      reportRestriction first keyword
      return type
    let base := if s.statement.name = typeName then none else some type
    return make (← checkNamed numbering base 0 [] [] (first :: rest))

/-- The first type statement with one of some names that a type is made from: itself, one of its
members, or that of its definition. -/
def madeFrom? : (depth : Nat) → (names : List String) → Site → Check (Option Site)
  | 0, _, _ => return none
  | depth + 1, names, s => do
    if names.contains s.statement.name then return some s
    match ← (s.all "type").findSomeM? (madeFrom? depth names) with
    | some t => return some t
    | none =>
      match (← knownType? s).bind (·.definition) with
      | none => return none
      | some d =>
        if (← progressOf d) = some .circular then return none
        match d.first? "type" with
        | some t => madeFrom? depth names t
        | none => return none

mutual

/-- The type of a type statement. -/
def typeOfStatement : (depth : Nat) → Site → Check (Option DataType)
  | 0, _ => return none
  | depth + 1, s => do
    match ← knownType? s with
    | some t => return t.type
    | none =>
      setType s {}
      let r := Reference.ofText s.statement.name
      let position ← positionOf s
      let found ← if ← isOwn s.home r.qualifier then
          match ← definition? .type r.name s with
          | some d =>
            checkTypeDefinition depth d
            pure (Except.ok (some d))
          | none =>
            if builtInTypes.contains r.name then pure (.ok none)
            else
              reportAt s (.definition (.undefined .type r.name (← ofModule s.home "" (·.name))))
              pure (.error ())
        else
          match ← moduleOf? s.home r.qualifier position with
          | none => pure (.error ())
          | some m =>
            match ← outermostDefinition? .type r.name m with
            | some d => pure (.ok (some d))
            | none =>
              reportAt s (.definition (.undefined .type r.name m.name))
              pure (.error ())
      match found with
      | .error _ => return none
      | .ok definition =>
        let base ← match definition with
          | none => pure (some (DataType.builtIn r.name))
          | some d =>
            match d.first? "type" with
            | some t =>
              let place ← positionOf d
              pure (((← knownType? t).bind (·.type)).map fun type => .named type.unnamed place)
            | none => pure none
        setType s { definition, type := base }
        match base with
        | none => return none
        | some base =>
          let type ← withPlaces s base
          let type ← withRange s type
          let type ← withLength s type
          let type ← withPatterns s type
          let type ← withPath s type
          let type ← withBases s type
          let type ← withRequirement s type
          let type ← withNames s type "enumeration" "enum" .ofEnum .enumeration
          let type ← withNames s type "bits" "bit" .ofBits .bits
          let type ← withMembers depth s type
          setType s { definition, type := some type }
          return some type

/-- A type of values of other types. -/
def withMembers : (depth : Nat) → Site → DataType → Check DataType
  | 0, _, type => return type
  | depth + 1, s, type => do
    let isUnion := s.statement.name = "union"
    match s.all "type" with
    | [] =>
      if isUnion then reportAt s (.typing (.missingAny "union" "type"))
      return type
    | first :: _ =>
      if !isUnion then
        reportRestriction first "union"
        return type
      let members ← accepted s "type"
      let types ← members.mapM fun t => do return (t, ← typeOfStatement depth t)
      if ← ofModule s.home false (·.isOld) then
        match ← madeFrom? depth ["empty", "leafref"] s with
        | some t => reportAt s (.typing (.badMember t.statement.name (← positionOf t)))
        | none => pure ()
      return .union (types.filterMap (·.2))

/-- Checks a type definition. -/
def checkTypeDefinition : (depth : Nat) → Site → Check Unit
  | 0, _ => return
  | depth + 1, d => do
    match ← progressOf d with
    | some .done => return
    | some .circular => return
    | some .active =>
      reportAt d (.definition (.circular "type" d.statement.name))
      setProgress d .circular
    | none =>
      setProgress d .active
      checkNotDefinedOutside .type d
      match (← accepted d "type").head? with
      | none => return
      | some t =>
        let type ← typeOfStatement depth t
        let note := fun (v : DefaultValue) =>
          modify fun w => { w with defaults := (d.key, v) :: w.defaults }
        match d.first? "default", type with
        | some stated, some type =>
          match ← valueOf d.home (← positionOf stated) type stated.statement.name with
          | some value => note ⟨value, stated.statement.name⟩
          | none => pure ()
        | none, some type =>
          match (← knownType? t).bind (·.definition) with
          | some base =>
            match (← get).defaults.lookup base.key with
            | some v =>
              checkValue depth d.home (← positionOf d) " for the inherited default value " type
                v.value
              note v
            | none => pure ()
          | none => pure ()
        | _, none => pure ()
        setProgress d .done

end

/-- **The type of a type statement.** -/
def typeOf (s : Site) : Check (Option DataType) := do
  typeOfStatement (← depth) s

end SchemaAssembly.Yang.Check
