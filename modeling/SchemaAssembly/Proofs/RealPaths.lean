import SchemaAssembly.Proofs.Following
import SchemaAssembly.Proofs.Places

/-!
# Real locations

The real location of a path is spelled out name by name and knows no limits: it exists whether or
not anything lies there. A link that leads back into itself would never be spelled out, so the links
being followed are kept in mind, and such a link stays where it is met.

- `realFollow_of_resolve`: where the system gets to, the real location is the one it gets to. Hop by
  hop the two agree (`realFollow_of_hop`), and the system does not meet a link while it follows that
  link, because names would be left to follow forever; `LeadsIn` counts them.
- `SpelledOut.of_realFollow`: no link is left in a real location, and so it is its own real location
  (`SpelledOut.realFollow_eq`).
-/

namespace SchemaAssembly

/-- **Tidy paths** have no name that is empty or `.`. -/
def Path.Tidy (p : Path) : Prop :=
  ∀ name ∈ p.names, name ≠ "" ∧ name ≠ "."

/-- What a path consists of after it was read is tidy. -/
theorem Path.WellFormed.tidy {p : Path} (h : p.WellFormed) : p.Tidy :=
  fun name hname => ⟨(h name hname).1, (h name hname).2.1⟩

/-- A tidy path with a name more. -/
theorem Path.Tidy.child {p : Path} (h : p.Tidy) {name : String}
    (hname : name ≠ "" ∧ name ≠ ".") : (p.child name).Tidy := by
  intro other hother
  rcases List.mem_append.1 hother with hother | hother
  · exact h other hother
  · obtain rfl := List.mem_singleton.1 hother
    exact hname

namespace FileTree

variable {t : FileTree} {active : List Location} {loc dest place : Location} {name target : String}
  {names rest : List String} {p : Path}

/-! ### One name -/

@[simp] theorem realFollow_nil : t.realFollow active loc [] = (loc, true) := by
  rw [realFollow]

/-- The name `..` goes up. -/
theorem realFollow_up :
    t.realFollow active loc (".." :: rest) = t.realFollow active loc.dropLast rest := by
  rw [realFollow, if_pos rfl]

/-- Any other name is taken as it is unless a link lies there. -/
theorem realFollow_entry (hup : name ≠ "..")
    (hlink : ∀ target, t.node? (loc ++ [name]) ≠ some (.link target)) :
    t.realFollow active loc (name :: rest) = t.realFollow active (loc ++ [name]) rest := by
  rw [realFollow, if_neg hup]
  split
  · exact absurd ‹_› (hlink _)
  · rfl

/-- A link is followed to where its text leads, and on from there. -/
theorem realFollow_link (hup : name ≠ "..") (hlink : t.node? (loc ++ [name]) = some (.link target))
    (hactive : loc ++ [name] ∉ active)
    (htarget : t.realFollow ((loc ++ [name]) :: active) (startOf target loc)
      (Path.ofText target).names = (place, true)) :
    t.realFollow active loc (name :: rest) = t.realFollow active place rest := by
  rw [realFollow, if_neg hup]
  split
  · rename_i text htext
    rw [hlink] at htext
    cases htext
    rw [dif_neg hactive, htarget]
  · rename_i hnot
    exact absurd hlink (hnot target)

/-! ### Where the system gets to -/

/-- **Leading somewhere in so many hops.** -/
inductive LeadsIn (t : FileTree) : Nat → Location → List String → Location → Prop
  /-- no name is left -/
  | arrive {loc : Location} : LeadsIn t 0 loc [] loc
  /-- one hop more than for what is left -/
  | hop {hops : Nat} {loc next dest : Location} {name : String} {more rest : List String} :
    t.hop loc name = some (next, more) → LeadsIn t hops next (more ++ rest) dest →
      LeadsIn t (hops + 1) loc (name :: rest) dest

/-- What leads somewhere does so in some number of hops. -/
theorem Leads.exists_leadsIn (h : t.Leads loc names dest) :
    ∃ hops, t.LeadsIn hops loc names dest := by
  induction h with
  | arrive => exact ⟨0, .arrive⟩
  | hop hhop _ ih =>
    obtain ⟨hops, h⟩ := ih
    exact ⟨hops + 1, .hop hhop h⟩

/-- The number of hops is always the same. -/
theorem LeadsIn.unique {hops hops' : Nat} {dest' : Location} (h : t.LeadsIn hops loc names dest)
    (h' : t.LeadsIn hops' loc names dest') : hops = hops' := by
  induction h generalizing hops' with
  | arrive =>
    cases h'
    rfl
  | hop hhop _ ih =>
    obtain _ | ⟨hhop', hrest⟩ := h'
    rw [hhop, Option.some.injEq, Prod.mk.injEq] at hhop'
    obtain ⟨rfl, rfl⟩ := hhop'
    rw [ih hrest]

/-- The hops of names in two parts are those of the parts. -/
theorem LeadsIn.split {hops : Nat} {front back : List String}
    (h : t.LeadsIn hops loc (front ++ back) dest) :
    ∃ first second mid, hops = first + second ∧ t.LeadsIn first loc front mid ∧
      t.LeadsIn second mid back dest := by
  generalize hnames : front ++ back = names at h
  induction h generalizing front with
  | arrive =>
    obtain ⟨rfl, rfl⟩ := List.append_eq_nil_iff.1 hnames
    exact ⟨0, 0, _, rfl, .arrive, .arrive⟩
  | @hop hops loc next dest name more rest hhop hrest ih =>
    cases front with
    | nil =>
      rw [List.nil_append] at hnames
      exact ⟨0, hops + 1, loc, (Nat.zero_add _).symm, .arrive, hnames ▸ .hop hhop hrest⟩
    | cons head front =>
      obtain ⟨rfl, rfl⟩ := List.cons_eq_cons.1 hnames
      obtain ⟨first, second, mid, rfl, hfront, hback⟩ := ih (List.append_assoc more front back)
      exact ⟨first + 1, second, mid, by omega, .hop hhop hfront, hback⟩

/-- The names that say something. -/
def telling (names : List String) : List String :=
  names.filter fun name => name != "" && name != "."

/-- **One hop** is one step of the real location. If it goes through a link, the step is to where the
text of the link leads while the link is being followed. -/
theorem realFollow_of_hop {next : Location} {more : List String}
    (hhop : t.hop loc name = some (next, more)) :
    (more = [] ∧ ∀ rest, t.realFollow active loc (telling (name :: rest)) =
      t.realFollow active next (telling rest)) ∨
    ∀ place, loc ++ [name] ∉ active →
      t.realFollow ((loc ++ [name]) :: active) next (telling more) = (place, true) →
        ∀ rest, t.realFollow active loc (telling (name :: rest)) =
          t.realFollow active place (telling rest) := by
  have hdir : t.node? loc = some .directory := by
    by_contra hdir
    rw [hop_of_not_directory hdir] at hhop
    cases hhop
  by_cases hname : name = "" ∨ name = "."
  · rw [hop_same hdir hname] at hhop
    cases hhop
    refine Or.inl ⟨rfl, fun rest => ?_⟩
    rcases hname with rfl | rfl <;> rfl
  have hkeep : ∀ rest, telling (name :: rest) = name :: telling rest := by
    rw [not_or] at hname
    exact fun rest => List.filter_cons_of_pos (by simp [hname.1, hname.2])
  simp only [hkeep]
  by_cases hup : name = ".."
  · subst hup
    rw [hop_up hdir] at hhop
    cases hhop
    exact Or.inl ⟨rfl, fun _ => realFollow_up⟩
  rw [hop_entry hdir hname hup] at hhop
  -- a directory, a file or a link
  rcases hnode : t.node? (loc ++ [name]) with _ | _ | bytes | target
  · rw [hnode] at hhop
    cases hhop
  · rw [hnode] at hhop
    cases hhop
    exact Or.inl ⟨rfl, fun _ => realFollow_entry hup (by simp [hnode])⟩
  · rw [hnode] at hhop
    cases hhop
    exact Or.inl ⟨rfl, fun _ => realFollow_entry hup (by simp [hnode])⟩
  · rw [hnode] at hhop
    cases hhop
    exact Or.inr fun _ hnew htarget _ => realFollow_link hup hnode hnew htarget

/-- **Where names lead is their real location**, unless a link that is being followed is met. That
cannot happen if each of those links takes more hops than the names. -/
theorem realFollow_of_leadsIn {hops : Nat} (h : t.LeadsIn hops loc names dest)
    (hactive : ∀ parent link, parent ++ [link] ∈ active → ∀ more place,
      t.LeadsIn more parent [link] place → hops < more) :
    t.realFollow active loc (telling names) = (dest, true) := by
  induction hops using Nat.strongRecOn generalizing active loc names dest with
  | ind hops ih =>
  cases h with
  | arrive => exact realFollow_nil
  | @hop hops loc next dest name more rest hhop hrest =>
    have hlater : ∀ {other}, other < hops + 1 → ∀ parent link, parent ++ [link] ∈ active →
        ∀ more place, t.LeadsIn more parent [link] place → other < more :=
      fun hless parent link hmem more place hlink =>
        Nat.lt_trans hless (hactive parent link hmem more place hlink)
    rcases @realFollow_of_hop t active loc name next more hhop with ⟨rfl, hstep⟩ | hstep
    · rw [hstep]
      exact ih hops (Nat.lt_succ_self hops) hrest (hlater (Nat.lt_succ_self hops))
    · obtain ⟨first, second, mid, rfl, hfront, hback⟩ := hrest.split
      -- the link itself takes one hop more than its text
      have hlink : t.LeadsIn (first + 1) loc [name] mid := by
        refine .hop hhop ?_
        rwa [List.append_nil]
      have hnew : loc ++ [name] ∉ active := by
        intro hmem
        have hless := hactive loc name hmem (first + 1) mid hlink
        omega
      have htarget : t.realFollow ((loc ++ [name]) :: active) next (telling more) =
          (mid, true) := by
        refine ih first (by omega) hfront fun parent link hmem more place hmore => ?_
        rcases List.mem_cons.1 hmem with heq | hmem
        · obtain ⟨rfl, rfl⟩ := List.append_singleton_inj.1 heq
          rw [hmore.unique hlink]
          exact Nat.lt_succ_self first
        · exact hlater (by omega) parent link hmem more place hmore
      rw [hstep mid hnew htarget]
      exact ih second (by omega) hback (hlater (by omega))

/-- **Where the system gets to** on a tidy path is the real location of the path, and no link leads
back into itself. -/
theorem realFollow_of_resolve (hp : p.Tidy) (h : t.resolve p = .ok loc) :
    t.realFollow [] (t.start p) p.names = (loc, true) := by
  obtain ⟨hops, hleads⟩ := (leads_of_resolve h).exists_leadsIn
  have htelling : telling p.names = p.names := by
    refine List.filter_eq_self.2 fun name hname => ?_
    obtain ⟨hempty, hdot⟩ := hp name hname
    simp [hempty, hdot]
  have hfollow := @realFollow_of_leadsIn t [] _ _ _ _ hleads
    (fun _ _ hmem => absurd hmem List.not_mem_nil)
  rwa [htelling] at hfollow

theorem realPath_of_resolve (hp : p.Tidy) (h : t.resolve p = .ok loc) : t.realPath p = loc :=
  congrArg Prod.fst (realFollow_of_resolve hp h)

/-! ### Locations that are spelled out -/

/-- **Spelled out**: no name on the way leads elsewhere than one step down. -/
def SpelledOut (t : FileTree) (loc : Location) : Prop :=
  ∀ front name, front ++ [name] <+: loc → name ≠ "" ∧ name ≠ "." ∧ name ≠ ".." ∧
    ∀ target, t.node? (front ++ [name]) ≠ some (.link target)

theorem spelledOut_nil (t : FileTree) : t.SpelledOut [] := by
  intro front name h
  exact absurd (List.prefix_nil.1 h) (List.concat_ne_nil name front)

theorem SpelledOut.of_prefix {front : Location} (h : t.SpelledOut loc) (hfront : front <+: loc) :
    t.SpelledOut front :=
  fun before name hname => h before name (hname.trans hfront)

/-- One more name that is no link. -/
theorem SpelledOut.concat (h : t.SpelledOut loc) (hname : name ≠ "" ∧ name ≠ "." ∧ name ≠ "..")
    (hlink : ∀ target, t.node? (loc ++ [name]) ≠ some (.link target)) :
    t.SpelledOut (loc ++ [name]) := by
  intro front other hother
  rcases List.prefix_concat_iff.1 hother with heq | hother
  · obtain ⟨rfl, rfl⟩ := List.append_singleton_inj.1 heq
    exact ⟨hname.1, hname.2.1, hname.2.2, hlink⟩
  · exact h front other hother

/-- A settled location is spelled out. -/
theorem Settled.spelledOut (h : t.Settled loc) : t.SpelledOut loc := by
  intro front name hname
  obtain ⟨hempty, hdot, hup⟩ := h.2 name (hname.subset (by simp))
  refine ⟨hempty, hdot, hup, fun target => ?_⟩
  rw [h.1 _ hname]
  simp

/-- **Where following names ends.** What holds of the root, and is kept by going up and by a name
that is no link, holds of the real location if no link leads back into itself. -/
theorem realFollow_induction {P : Location → Prop} (hroot : P [])
    (hup : ∀ loc, P loc → P loc.dropLast)
    (hentry : ∀ loc name, P loc → name ≠ "" → name ≠ "." → name ≠ ".." → '/' ∉ name.toList →
      (∀ target, t.node? (loc ++ [name]) ≠ some (.link target)) → P (loc ++ [name]))
    (hnames : ∀ name ∈ names, name ≠ "" ∧ name ≠ "." ∧ '/' ∉ name.toList) (hloc : P loc)
    (h : t.realFollow active loc names = (dest, true)) : P dest := by
  have htext : ∀ target name, name ∈ (Path.ofText target).names →
      name ≠ "" ∧ name ≠ "." ∧ '/' ∉ name.toList := fun target =>
    Path.wellFormed_ofText target
  have hstart : ∀ target loc, P loc → P (startOf target loc) := by
    intro target loc hloc
    rw [startOf]
    split
    · exact hroot
    · exact hloc
  fun_induction realFollow t active loc names generalizing dest with
  | case1 active loc =>
    cases h
    exact hloc
  | case2 active loc rest ih =>
    exact ih (fun name hname => hnames name (List.mem_cons_of_mem _ hname)) (hup loc hloc) h
  | case3 => cases h
  | case4 active loc name rest hname target hlink hactive place htarget ihtarget ih =>
    exact ih (fun name hname => hnames name (List.mem_cons_of_mem _ hname))
      (ihtarget (htext target) (hstart target loc hloc) htarget) h
  | case5 => cases h
  | case6 active loc name rest hname hlink ih =>
    obtain ⟨hempty, hdot, hslash⟩ := hnames name List.mem_cons_self
    exact ih (fun name hname => hnames name (List.mem_cons_of_mem _ hname))
      (hentry loc name hloc hempty hdot hname hslash hlink) h

/-- **A real location is spelled out.** -/
theorem SpelledOut.of_realFollow
    (hnames : ∀ name ∈ names, name ≠ "" ∧ name ≠ "." ∧ '/' ∉ name.toList) (hloc : t.SpelledOut loc)
    (h : t.realFollow active loc names = (dest, true)) : t.SpelledOut dest :=
  realFollow_induction t.spelledOut_nil (fun loc hloc => hloc.of_prefix (List.dropLast_prefix loc))
    (fun _ _ hloc hempty hdot hup _ hlink => hloc.concat ⟨hempty, hdot, hup⟩ hlink) hnames hloc h

/-- What is spelled out is followed as it is. -/
theorem SpelledOut.realFollow_append (h : t.SpelledOut (loc ++ names)) :
    t.realFollow active loc (names ++ rest) = t.realFollow active (loc ++ names) rest := by
  induction names generalizing loc with
  | nil => rw [List.nil_append, List.append_nil]
  | cons name names ih =>
    obtain ⟨-, -, hup, hlink⟩ := h loc name ⟨names, by simp⟩
    rw [List.cons_append, realFollow_entry hup hlink, ih (by simpa using h)]
    simp

/-- What is spelled out stays as it is. -/
theorem SpelledOut.realFollow_eq (h : t.SpelledOut (loc ++ names)) :
    t.realFollow active loc names = (loc ++ names, true) := by
  have happend := @realFollow_append t active loc names [] h
  rwa [List.append_nil, realFollow_nil] at happend

/-- No link is in the way of what is spelled out. -/
theorem SpelledOut.follow_ne_tooManyLinks {links : Nat} (h : t.SpelledOut (loc ++ names)) :
    t.follow false links loc names ≠ .error .tooManyLinks := by
  induction names generalizing loc with
  | nil => simp [follow]
  | cons name rest ih =>
    obtain ⟨hempty, hdot, hup, hlink⟩ := h loc name ⟨rest, by simp⟩
    have hrest := @ih (loc ++ [name]) (by simpa using h)
    have hname : ¬ (name = "" ∨ name = ".") := not_or.2 ⟨hempty, hdot⟩
    by_cases hdir : t.node? loc = some .directory
    · rw [follow, if_neg (not_not_intro hdir), if_neg hname, if_neg hup]
      split
      · simp
      rcases hnode : t.node? (loc ++ [name]) with _ | _ | bytes | target
      · simp
      · exact hrest
      · exact hrest
      · exact absurd hnode (hlink target)
    · rw [follow, if_pos hdir]
      simp

end FileTree

end SchemaAssembly
