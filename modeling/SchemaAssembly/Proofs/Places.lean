import Mathlib.Data.List.Induction
import SchemaAssembly.Proofs.Following
import SchemaAssembly.SourceSet
import SchemaAssembly.Text.Lines

/-!
# Where paths say they lie

The place of a path is read off its spelling: a `..` takes back the name before it. What the system
does with a `..` is to go up from wherever the names before it lead, and that is another matter when
one of them is a link, or does not exist. A path is `FileTree.Straight` if this makes no difference.

- `Path.ofText_text`: what a path is written as is read as the path again;
- `straight_of_upFirst`: a path is straight if no `..` stands after another name;
- `Straight.child`: the entries of a directory have straight paths if the directory has one.
-/

namespace SchemaAssembly

/-- What lies between slashes holds none. -/
theorem slash_not_mem_of_mem_splitOn {chars field : List Char} (h : field ∈ chars.splitOn '/') :
    '/' ∉ field := by
  induction chars generalizing field with
  | nil =>
    obtain rfl : field = [] := by simpa using h
    exact List.not_mem_nil
  | cons c chars ih =>
    rw [List.splitOn_cons_eq_if_modifyHead] at h
    by_cases hc : c = '/'
    · rw [if_pos (beq_iff_eq.2 hc)] at h
      rcases List.mem_cons.1 h with rfl | h
      · exact List.not_mem_nil
      · exact ih h
    · rw [if_neg (by simpa using hc)] at h
      rcases hfields : chars.splitOn '/' with _ | ⟨head, fields⟩
      · exact (List.splitOn_ne_nil _ _ hfields).elim
      · rw [hfields, List.modifyHead_cons] at h
        rcases List.mem_cons.1 h with rfl | h
        · exact List.not_mem_cons_of_ne_of_not_mem (Ne.symm hc) (ih (hfields ▸ List.mem_cons_self))
        · exact ih (hfields ▸ List.mem_cons_of_mem _ h)

/-- A slash in front is an empty name in front. -/
theorem slashFields_slash (text : String) : slashFields ("/" ++ text) = "" :: slashFields text := by
  simp [slashFields, List.splitOn_cons_eq_if_modifyHead]

/-- Names written between slashes are read again. -/
theorem slashFields_intercalate {names : List String} (hne : names ≠ [])
    (hnames : ∀ name ∈ names, '/' ∉ name.toList) :
    slashFields ("/".intercalate names) = names :=
  Text.fields_intercalate hne hnames

namespace Path

/-- What a path consists of after it was read: no name is empty or `.`, and none holds a slash. -/
def WellFormed (p : Path) : Prop :=
  ∀ name ∈ p.names, name ≠ "" ∧ name ≠ "." ∧ '/' ∉ name.toList

/-- A path that was read is well-formed. -/
theorem wellFormed_ofText (text : String) : (ofText text).WellFormed := by
  intro name hname
  obtain ⟨hfield, hkept⟩ := List.mem_filter.1 hname
  obtain ⟨field, hsplit, rfl⟩ := List.mem_map.1 hfield
  rw [Bool.and_eq_true, bne_iff_ne, bne_iff_ne] at hkept
  refine ⟨hkept.1, hkept.2, ?_⟩
  rw [String.toList_ofList]
  exact slash_not_mem_of_mem_splitOn hsplit

/-- So is the path without its last name. -/
theorem WellFormed.parent {p : Path} (h : p.WellFormed) : p.parent.WellFormed :=
  fun name hname => h name (List.dropLast_subset _ hname)

/-- The names of a well-formed path, written between slashes, do not begin with one. -/
theorem WellFormed.takeWhile_slash {p : Path} (h : p.WellFormed) :
    ("/".intercalate p.names).toList.takeWhile (· == '/') = [] := by
  rcases hnames : p.names with _ | ⟨name, rest⟩
  · decide
  obtain ⟨hne, -, hslash⟩ := h name (hnames ▸ List.mem_cons_self)
  rcases hchars : name.toList with _ | ⟨c, chars⟩
  · exact (hne (String.toList_eq_nil_iff.1 hchars)).elim
  have hc : c ≠ '/' := by
    rintro rfl
    exact hslash (hchars ▸ List.mem_cons_self)
  cases rest <;> simp [String.toList_intercalate, hchars, hc]

/-- The names of a well-formed path are read again. -/
theorem WellFormed.names_ofText {p : Path} (h : p.WellFormed) :
    (ofText ("/".intercalate p.names)).names = p.names := by
  rcases hnames : p.names with _ | ⟨name, rest⟩
  · decide
  have hfields : slashFields ("/".intercalate p.names) = p.names :=
    slashFields_intercalate (hnames ▸ List.cons_ne_nil name rest) fun name hname =>
      (h name hname).2.2
  rw [← hnames, ofText, hfields, List.filter_eq_self]
  intro name hname
  rw [Bool.and_eq_true, bne_iff_ne, bne_iff_ne]
  exact ⟨(h name hname).1, (h name hname).2.1⟩

/-- Slashes in front of a text say where the path starts. -/
theorem ofText_anchor_append (anchor : Anchor) {text : String}
    (h : text.toList.takeWhile (· == '/') = []) :
    ofText (anchor.text ++ text) = ⟨anchor, (ofText text).names⟩ := by
  cases anchor with
  | here => simp [ofText, Anchor.text, Anchor.ofSlashes, h]
  | root => simp [ofText, Anchor.text, Anchor.ofSlashes, h, slashFields_slash]
  | doubleRoot =>
    rw [show Anchor.doubleRoot.text = "/" ++ "/" by decide, String.append_assoc]
    simp [ofText, Anchor.ofSlashes, h, slashFields_slash]

/-- **A well-formed path is read again** from what it is written as. -/
theorem ofText_text {p : Path} (h : p.WellFormed) : ofText p.text = p := by
  -- the path without names is the one that is not written as slashes and names
  by_cases hdot : p = ⟨.here, []⟩
  · subst hdot
    decide
  have htext : p.text = p.anchor.text ++ "/".intercalate p.names := by
    rw [text]
    split
    · exact (hdot (by cases p; simp_all)).elim
    · rfl
  rw [htext, ofText_anchor_append p.anchor h.takeWhile_slash, h.names_ofText]

/-! ### Names taken back -/

/-- Names are taken as they are up to the next `..`. -/
theorem collapse_append (before : List String) {names : List String} (h : ".." ∉ names)
    (rest : List String) :
    collapse before (names ++ rest) = collapse (names.reverse ++ before) rest := by
  induction names generalizing before with
  | nil => rfl
  | cons name names ih =>
    rw [List.mem_cons, not_or] at h
    rw [List.cons_append, collapse, if_neg (Ne.symm h.1), ih (name :: before) h.2,
      List.reverse_cons, List.append_assoc]
    rfl

/-- A last name other than `..` is the last name still. -/
theorem collapse_append_singleton (before names : List String) {name : String} (h : name ≠ "..") :
    collapse before (names ++ [name]) = collapse before names ++ [name] := by
  induction names generalizing before with
  | nil => simp [collapse, h]
  | cons first names ih =>
    rw [List.cons_append, collapse, collapse]
    by_cases hfirst : first = ".."
    · rw [if_pos hfirst, if_pos hfirst, ih]
    · rw [if_neg hfirst, if_neg hfirst, ih]

/-- **Going up first**: no `..` stands after another name. -/
def UpFirst (p : Path) : Prop :=
  ∃ ups rest, p.names = List.replicate ups ".." ++ rest ∧ ".." ∉ rest

end Path

namespace FileTree

/-- **A settled location**: directories all the way, none of them called `.` or `..`. -/
def Settled (t : FileTree) (loc : Location) : Prop :=
  (∀ front, front <+: loc → t.node? front = some .directory) ∧
    ∀ name ∈ loc, name ≠ "" ∧ name ≠ "." ∧ name ≠ ".."

/-- **Straight paths**: those that lead where they say they lie. -/
def Straight (t : FileTree) (p : Path) : Prop :=
  ∀ loc, t.Leads (t.start p) p.names loc ↔ t.Leads [] (t.place p).names loc

section

variable {t : FileTree} {p : Path} {loc : Location} {name : String}

theorem settled_nil (t : FileTree) : t.Settled [] := by
  refine ⟨fun front hfront => ?_, fun name hname => by cases hname⟩
  rw [List.prefix_nil.1 hfront, node?_nil]

theorem Settled.dropLast (h : t.Settled loc) : t.Settled loc.dropLast :=
  ⟨fun front hfront => h.1 front (hfront.trans (List.dropLast_prefix loc)),
    fun name hname => h.2 name (List.dropLast_subset loc hname)⟩

theorem Settled.up_not_mem (h : t.Settled loc) : ".." ∉ loc :=
  fun hmem => (h.2 _ hmem).2.2 rfl

/-- The names of a settled location lead there. -/
theorem Settled.leads (h : t.Settled loc) : t.Leads [] loc loc := by
  induction loc using List.reverseRecOn with
  | nil => exact .arrive
  | append_singleton loc name ih =>
    have hloc : t.Settled loc := by simpa using h.dropLast
    obtain ⟨hempty, hdot, hup⟩ := h.2 name (by simp)
    have hhop : t.hop loc name = some (loc ++ [name], []) := by
      rw [hop_entry (hloc.1 loc List.prefix_rfl) (not_or.2 ⟨hempty, hdot⟩) hup,
        h.1 _ List.prefix_rfl]
    exact (ih hloc).append (.hop hhop .arrive)

/-- **Going up from a settled location** leads to another one, the one that is spelled out. -/
theorem Settled.exists_up (h : t.Settled loc) (ups : Nat) :
    ∃ above, t.Settled above ∧ t.Leads loc (List.replicate ups "..") above ∧
      ∀ rest, Path.collapse loc.reverse (List.replicate ups ".." ++ rest) =
        Path.collapse above.reverse rest := by
  induction ups generalizing loc with
  | zero => exact ⟨loc, h, .arrive, fun rest => rfl⟩
  | succ ups ih =>
    obtain ⟨above, habove, hleads, hcollapse⟩ := ih h.dropLast
    refine ⟨above, habove, .hop (hop_up (h.1 loc List.prefix_rfl)) hleads, fun rest => ?_⟩
    rw [List.replicate_succ, List.cons_append, Path.collapse, if_pos rfl, List.tail_reverse,
      hcollapse]

/-- **A path that goes up first is straight** if it starts at a settled location. -/
theorem straight_of_upFirst (hworking : t.Settled t.workingDirectory) (h : p.UpFirst) :
    t.Straight p := by
  obtain ⟨ups, rest, hnames, hrest⟩ := h
  have hstart : t.Settled (t.start p) := by
    rw [start]
    split
    · exact settled_nil t
    · exact hworking
  have hplace : (t.place p).names = Path.collapse (t.start p).reverse p.names := by
    rw [place, Path.lexical, start, Path.isAbsolute]
    cases p.anchor with
    | here =>
      have happend := Path.collapse_append [] hworking.up_not_mem p.names
      rw [List.append_nil] at happend
      exact happend
    | root => rfl
    | doubleRoot => rfl
  obtain ⟨above, habove, hleads, hcollapse⟩ := hstart.exists_up ups
  -- both ways first come to the location above, and follow the same names from there
  have hspelled : (t.place p).names = above ++ rest := by
    have happend := Path.collapse_append above.reverse hrest []
    rw [List.append_nil, Path.collapse, List.reverse_append, List.reverse_reverse,
      List.reverse_reverse] at happend
    rw [hplace, hnames, hcollapse, happend]
  intro dest
  rw [hspelled, hnames, leads_append_iff, leads_append_iff]
  constructor
  · rintro ⟨mid, hmid, hdest⟩
    obtain rfl := hmid.unique hleads
    exact ⟨mid, habove.leads, hdest⟩
  · rintro ⟨mid, hmid, hdest⟩
    obtain rfl := hmid.unique habove.leads
    exact ⟨mid, hleads, hdest⟩

/-- An entry lies right below the place of its directory. -/
theorem place_child (h : name ≠ "..") : t.place (p.child name) = (t.place p).child name := by
  obtain ⟨anchor, names⟩ := p
  cases anchor <;>
    simp [place, Path.lexical, Path.child, Path.collapse_append_singleton _ _ h,
      ← List.append_assoc]

/-- The path of an entry is straight if that of its directory is. -/
theorem Straight.child (hp : t.Straight p) (h : name ≠ "..") : t.Straight (p.child name) := by
  intro loc
  rw [place_child h, Path.child, Path.child, leads_append_iff, leads_append_iff]
  exact exists_congr fun mid => and_congr_left fun _ => hp mid

/-- Two straight paths to one place lead to the same locations. -/
theorem Straight.leads_iff {q : Path} (hp : t.Straight p) (hq : t.Straight q)
    (hplace : t.place p = t.place q) :
    t.Leads (t.start p) p.names loc ↔ t.Leads (t.start q) q.names loc := by
  rw [hp loc, hq loc, hplace]

end

end FileTree

end SchemaAssembly
