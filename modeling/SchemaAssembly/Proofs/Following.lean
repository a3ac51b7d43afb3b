import SchemaAssembly.FileTree.Access

/-!
# Where paths lead

`FileTree.resolve` gives up on a long name, on a long path and after a number of links. To say which
directories lie below a root such limits are in the way, so `FileTree.Leads` says where names lead
without any. The two agree on a path that is `FileTree.Unhindered`.

- `Leads.unique`: names lead to one location at most;
- `leads_append_iff`: names are followed one part after the other;
- `follow_cons`: what the system does with one name, from which everything about `resolve` follows;
- `leads_of_resolve`: what is resolved leads where it is resolved to.
-/

namespace SchemaAssembly.FileTree

/-- What becomes of one name at a location: where to go on from, and the names to follow before all
others. There is nothing if the location is no directory, or if the name is not found in it. -/
def hop (t : FileTree) (loc : Location) (name : String) : Option (Location × List String) :=
  if t.node? loc ≠ some .directory then none
  else if name = "" ∨ name = "." then some (loc, [])
  else if name = ".." then some (loc.dropLast, [])
  else match t.node? (loc ++ [name]) with
    | none => none
    | some (.link target) => some (startOf target loc, slashFields target)
    | some _ => some (loc ++ [name], [])

section

variable {t : FileTree} {loc : Location} {name : String}

/-- Nothing is found where no directory is. -/
theorem hop_of_not_directory (h : t.node? loc ≠ some .directory) : t.hop loc name = none :=
  if_pos h

/-- The empty name and `.` stay where they are. -/
theorem hop_same (h : t.node? loc = some .directory) (hname : name = "" ∨ name = ".") :
    t.hop loc name = some (loc, []) := by
  rw [hop, if_neg (not_not_intro h), if_pos hname]

/-- The name `..` goes up. -/
theorem hop_up (h : t.node? loc = some .directory) : t.hop loc ".." = some (loc.dropLast, []) := by
  rw [hop, if_neg (not_not_intro h), if_neg (by decide), if_pos rfl]

/-- Any other name is looked up in the directory. -/
theorem hop_entry (h : t.node? loc = some .directory) (hname : ¬ (name = "" ∨ name = "."))
    (hup : name ≠ "..") :
    t.hop loc name = match t.node? (loc ++ [name]) with
      | none => none
      | some (.link target) => some (startOf target loc, slashFields target)
      | some _ => some (loc ++ [name], []) := by
  rw [hop, if_neg (not_not_intro h), if_neg hname, if_neg hup]

end

/-- **Leading somewhere**: names followed from a location end at another, after however many
links. -/
inductive Leads (t : FileTree) : Location → List String → Location → Prop
  /-- no name is left -/
  | arrive {loc : Location} : Leads t loc [] loc
  /-- a name is followed, and then what is left -/
  | hop {loc next dest : Location} {name : String} {more rest : List String} :
    t.hop loc name = some (next, more) → Leads t next (more ++ rest) dest →
      Leads t loc (name :: rest) dest

section

variable {t : FileTree} {loc dest : Location} {name : String} {names : List String} {p : Path}

/-- Names lead to one location at most. -/
theorem Leads.unique {dest' : Location} (h : t.Leads loc names dest)
    (h' : t.Leads loc names dest') : dest = dest' := by
  induction h with
  | arrive =>
    cases h'
    rfl
  | hop hhop _ ih =>
    obtain _ | ⟨hhop', hrest⟩ := h'
    rw [hhop, Option.some.injEq, Prod.mk.injEq] at hhop'
    obtain ⟨rfl, rfl⟩ := hhop'
    exact ih hrest

/-- Going on from where names lead. -/
theorem Leads.append {mid : Location} {rest : List String} (h : t.Leads loc names mid)
    (hrest : t.Leads mid rest dest) : t.Leads loc (names ++ rest) dest := by
  induction h with
  | arrive => exact hrest
  | hop hhop _ ih =>
    refine .hop hhop ?_
    have hleads := ih hrest
    rwa [List.append_assoc] at hleads

/-- Names are followed one part after the other. -/
theorem leads_append_iff {front back : List String} :
    t.Leads loc (front ++ back) dest ↔ ∃ mid, t.Leads loc front mid ∧ t.Leads mid back dest := by
  constructor
  · intro h
    generalize hnames : front ++ back = names at h
    induction h generalizing front with
    | arrive =>
      obtain ⟨rfl, rfl⟩ := List.append_eq_nil_iff.1 hnames
      exact ⟨_, .arrive, .arrive⟩
    | @hop loc next dest name more rest hhop hrest ih =>
      cases front with
      | nil =>
        rw [List.nil_append] at hnames
        exact ⟨loc, .arrive, hnames ▸ .hop hhop hrest⟩
      | cons head front =>
        obtain ⟨rfl, rfl⟩ := List.cons_eq_cons.1 hnames
        obtain ⟨mid, hfront, hback⟩ := ih (List.append_assoc more front back)
        exact ⟨mid, .hop hhop hfront, hback⟩
  · rintro ⟨mid, hfront, hback⟩
    exact hfront.append hback

/-- **Links in a circle** lead nowhere: each of them is followed to the next. -/
theorem not_leads_of_circle {circle : Location → String → Prop}
    (hcircle : ∀ loc name, circle loc name → ∃ next name' more,
      t.hop loc name = some (next, name' :: more) ∧ circle next name')
    (h : circle loc name) (names : List String) : ¬ t.Leads loc (name :: names) dest := by
  intro hleads
  generalize hall : name :: names = all at hleads
  induction hleads generalizing name names with
  | arrive => cases hall
  | hop hhop _ ih =>
    obtain ⟨rfl, rfl⟩ := List.cons_eq_cons.1 hall
    obtain ⟨next, name', more, hnext, h⟩ := hcircle _ _ h
    rw [hnext, Option.some.injEq, Prod.mk.injEq] at hhop
    obtain ⟨rfl, rfl⟩ := hhop
    exact ih h (more ++ names) rfl

/-! ### What the system resolves -/

/-- Following a name is a hop, unless a limit is hit or there is no hop. A hop through a link leaves
fewer links to follow, and any other hop leaves no names to follow before the rest. -/
theorem follow_cons (links : Nat) (rest : List String) :
    (∃ fault, t.follow false links loc (name :: rest) = .error fault ∧
      (fault = .nameTooLong ∨ fault = .tooManyLinks ∨ t.hop loc name = none)) ∨
    ∃ next more links', t.hop loc name = some (next, more) ∧
      (links' < links ∨ links' = links ∧ more = []) ∧
      t.follow false links loc (name :: rest) = t.follow false links' next (more ++ rest) := by
  by_cases hdir : t.node? loc = some .directory
  · rw [follow, if_neg (not_not_intro hdir)]
    by_cases hname : name = "" ∨ name = "."
    · rw [if_pos hname]
      exact Or.inr ⟨loc, [], links, hop_same hdir hname, Or.inr ⟨rfl, rfl⟩, rfl⟩
    rw [if_neg hname]
    by_cases hup : name = ".."
    · subst hup
      rw [if_pos rfl]
      exact Or.inr ⟨loc.dropLast, [], links, hop_up hdir, Or.inr ⟨rfl, rfl⟩, rfl⟩
    rw [if_neg hup, hop_entry hdir hname hup]
    by_cases hlong : name.utf8ByteSize > maxNameBytes
    · rw [if_pos hlong]
      exact Or.inl ⟨_, rfl, Or.inl rfl⟩
    rw [if_neg hlong]
    -- nothing, a directory, a file or a link
    rcases t.node? (loc ++ [name]) with _ | _ | bytes | target
    · exact Or.inl ⟨_, if_neg fun h => Bool.noConfusion h.1, Or.inr (Or.inr rfl)⟩
    · exact Or.inr ⟨_, [], links, rfl, Or.inr ⟨rfl, rfl⟩, rfl⟩
    · exact Or.inr ⟨_, [], links, rfl, Or.inr ⟨rfl, rfl⟩, rfl⟩
    · cases links with
      | zero => exact Or.inl ⟨_, rfl, Or.inr (Or.inl rfl)⟩
      | succ links => exact Or.inr ⟨_, _, links, rfl, Or.inl (Nat.lt_succ_self links), rfl⟩
  · refine Or.inl ⟨.notDirectory, ?_, Or.inr (Or.inr (hop_of_not_directory hdir))⟩
    rw [follow, if_pos hdir]

/-- What is followed within limits leads there without. -/
theorem leads_of_follow (links : Nat) (names : List String) (loc : Location)
    (h : t.follow false links loc names = .ok dest) : t.Leads loc names dest := by
  match names with
  | [] =>
    rw [follow] at h
    cases h
    exact .arrive
  | name :: rest =>
    obtain ⟨fault, hfault, -⟩ | ⟨next, more, links', hhop, hless, hfollow⟩ :=
      @follow_cons t loc name links rest
    · rw [hfault] at h
      cases h
    · rw [hfollow] at h
      exact .hop hhop (leads_of_follow links' (more ++ rest) next h)
termination_by (links, names.length)
decreasing_by
  obtain hless | ⟨rfl, rfl⟩ := hless
  · exact Prod.Lex.left _ _ hless
  · exact Prod.Lex.right _ (Nat.lt_succ_self rest.length)

/-- What cannot be followed for want of a name or of a directory leads nowhere. -/
theorem not_leads_of_follow {fault : Fault} (hlong : fault ≠ .nameTooLong)
    (hmany : fault ≠ .tooManyLinks) (links : Nat) (names : List String) (loc : Location)
    (h : t.follow false links loc names = .error fault) : ¬ t.Leads loc names dest := by
  match names with
  | [] =>
    rw [follow] at h
    cases h
  | name :: rest =>
    intro hleads
    -- there is a hop, so the fault comes from what is left to follow
    obtain _ | ⟨hhop', hrest⟩ := hleads
    obtain ⟨fault', hfault, hlimit⟩ | ⟨next, more, links', hhop, hless, hfollow⟩ :=
      @follow_cons t loc name links rest
    · rw [hfault, Except.error.injEq] at h
      subst h
      obtain h | h | h := hlimit
      · exact hlong h
      · exact hmany h
      · rw [h] at hhop'
        cases hhop'
    · rw [hhop, Option.some.injEq, Prod.mk.injEq] at hhop'
      obtain ⟨rfl, rfl⟩ := hhop'
      rw [hfollow] at h
      exact not_leads_of_follow hlong hmany links' (more ++ rest) next h hrest
termination_by (links, names.length)
decreasing_by
  obtain hless | ⟨rfl, rfl⟩ := hless
  · exact Prod.Lex.left _ _ hless
  · exact Prod.Lex.right _ (Nat.lt_succ_self rest.length)

/-- **What is resolved** leads where it is resolved to. -/
theorem leads_of_resolve (h : t.resolve p = .ok dest) : t.Leads (t.start p) p.names dest :=
  leads_of_follow maxLinks p.names _ (resolveAs_eq_ok_iff.1 h).2.2

/-- A path on which no limit is hit: the system resolves it to wherever it leads. -/
def Unhindered (t : FileTree) (p : Path) : Prop :=
  ∀ loc, t.Leads (t.start p) p.names loc → t.resolve p = .ok loc

/-- A path that is resolved is unhindered. -/
theorem unhindered_of_resolve (h : t.resolve p = .ok loc) : t.Unhindered p := by
  intro loc' hleads
  rw [h, (leads_of_resolve h).unique hleads]

/-- Paths are unhindered if each of them is resolved. -/
theorem unhindered_of_map_resolve {paths : List Path} (locs : List Location)
    (h : paths.map t.resolve = locs.map .ok) (hp : p ∈ paths) : t.Unhindered p := by
  have hmem : t.resolve p ∈ locs.map .ok := h ▸ List.mem_map_of_mem hp
  obtain ⟨loc, -, hloc⟩ := List.mem_map.1 hmem
  exact unhindered_of_resolve hloc.symm

/-- A path is unhindered if it leads nowhere. -/
theorem unhindered_of_resolve_error {fault : Fault} (husable : p.isUsable = true)
    (hlong : fault ≠ .nameTooLong) (hmany : fault ≠ .tooManyLinks)
    (h : t.resolve p = .error fault) : t.Unhindered p := by
  intro loc hleads
  rw [resolve, resolveAs, if_pos husable] at h
  split at h
  · cases h
    exact (hlong rfl).elim
  · exact (not_leads_of_follow hlong hmany maxLinks p.names _ h hleads).elim

/-- From the path of a directory, a child's path leads where its name leads from the directory. -/
theorem leads_child_iff (h : t.resolve p = .ok loc) (name : String) :
    t.Leads (t.start (p.child name)) (p.child name).names dest ↔ t.Leads loc [name] dest := by
  refine leads_append_iff.trans ⟨?_, fun hname => ⟨loc, leads_of_resolve h, hname⟩⟩
  rintro ⟨mid, hmid, hname⟩
  rwa [hmid.unique (leads_of_resolve h)] at hname

end

end SchemaAssembly.FileTree
