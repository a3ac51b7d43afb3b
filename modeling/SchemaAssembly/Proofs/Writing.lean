import Mathlib
import SchemaAssembly.FileTree.Access

/-!
# What writing changes

Writing to a path changes a tree at one location and nowhere else (`writtenTo_of_write`, `Changes`).
In a tree where everything lies in directories, the path leads to that location afterwards as well,
so what has been written is read there again (`read_of_writtenTo`): on the way there the system has
not come by the location before, because it is neither a directory nor a link (`Arrival`). Such a
tree stays one (`Rooted.of_writtenTo`).
-/

namespace SchemaAssembly.FileTree

variable {t t' : FileTree} {loc other : Location} {node : Node} {p : Path} {bytes : List UInt8}

/-! ### One location -/

/-- What lies at each location once a node is put at one below the root. -/
theorem node?_put (t : FileTree) (hne : loc ≠ []) (node : Node) (other : Location) :
    (t.put loc node).node? other = if other = loc then some node else t.node? other := by
  by_cases hroot : other = []
  · subst hroot
    rw [if_neg (Ne.symm hne), node?_nil, node?_nil]
  rw [node?, if_neg hroot, put]
  split
  · rename_i hany
    have hplace : ((fun n : Location × Node => decide (n.1 = other)) ∘
        fun n => if n.1 = loc then (loc, node) else n) = fun n => decide (n.1 = other) := by
      funext n
      by_cases hn : n.1 = loc <;> simp [hn]
    rw [List.find?_map, hplace, Option.map_map]
    by_cases hother : other = loc
    · subst hother
      obtain ⟨n, hn, hloc⟩ := List.any_eq_true.1 hany
      obtain ⟨first, hfirst⟩ :
          ∃ first, t.nodes.find? (fun n => decide (n.1 = other)) = some first :=
        Option.isSome_iff_exists.1 (List.find?_isSome.2 ⟨n, hn, hloc⟩)
      have hat : first.1 = other := by simpa using List.find?_some hfirst
      rw [if_pos rfl, hfirst, Option.map_some, Function.comp_apply, if_pos hat]
    · rw [if_neg hother, node?, if_neg hroot]
      refine Option.map_congr fun n hn => ?_
      have hat : n.1 = other := by simpa using List.find?_some hn
      rw [Function.comp_apply, if_neg (hat ▸ hother)]
  · rename_i hany
    rw [List.find?_append]
    by_cases hother : other = loc
    · subst hother
      have hnone : t.nodes.find? (·.1 = other) = none :=
        List.find?_eq_none.2 fun n hn hat => hany (List.any_eq_true.2 ⟨n, hn, hat⟩)
      rw [hnone, if_pos rfl, List.find?_cons_of_pos (by simp)]
      rfl
    · rw [if_neg hother, List.find?_cons_of_neg (by simpa using Ne.symm hother), node?,
        if_neg hroot]
      simp

/-- **A tree that differs from another at one location only.** -/
structure Changes (t t' : FileTree) (loc : Location) (node : Node) : Prop where
  /-- what lies there now -/
  node?_self : t'.node? loc = some node
  /-- everything else is as it was -/
  node?_of_ne : ∀ other, other ≠ loc → t'.node? other = t.node? other
  /-- so is the working directory -/
  workingDirectory_eq : t'.workingDirectory = t.workingDirectory

/-- What is put at a location below the root lies there, and nothing else has changed. -/
theorem changes_put (t : FileTree) (hne : loc ≠ []) (node : Node) :
    t.Changes (t.put loc node) loc node where
  node?_self := by rw [node?_put t hne, if_pos rfl]
  node?_of_ne other hother := by rw [node?_put t hne, if_neg hother]
  workingDirectory_eq := by
    rw [put]
    split <;> rfl

/-! ### The same way again -/

/-- **A tree in which everything lies in a directory**, the working directory being one. -/
structure Rooted (t : FileTree) : Prop where
  /-- where something lies, there is a directory around it -/
  node?_parent : ∀ loc name, t.node? (loc ++ [name]) ≠ none → t.node? loc = some .directory
  /-- relative paths start at a directory -/
  node?_workingDirectory : t.node? t.workingDirectory = some .directory

/-- It is enough to look at the nodes of the list. -/
theorem rooted_of_nodes (hnodes : ∀ n ∈ t.nodes, t.node? n.1.dropLast = some .directory)
    (hworking : t.node? t.workingDirectory = some .directory) : t.Rooted where
  node?_parent loc name h := by
    obtain ⟨node, hnode⟩ := Option.ne_none_iff_exists'.1 h
    have hparent := hnodes _ (mem_nodes_of_node? (List.concat_ne_nil name loc) hnode)
    rwa [List.dropLast_concat] at hparent
  node?_workingDirectory := hworking

/-- A place that following names can arrive at: it lies in a directory, whether or not anything lies
there, and it is no link. -/
structure Arrival (t : FileTree) (loc : Location) : Prop where
  node?_dropLast : t.node? loc.dropLast = some .directory
  node?_ne_link : ∀ target, t.node? loc ≠ some (.link target)

namespace Rooted

/-- A directory lies in a directory. -/
theorem node?_dropLast (h : t.Rooted) (hloc : t.node? loc = some .directory) :
    t.node? loc.dropLast = some .directory := by
  rcases List.eq_nil_or_concat loc with rfl | ⟨parent, name, rfl⟩
  · exact node?_nil t
  · rw [List.concat_eq_append, List.dropLast_concat]
    rw [List.concat_eq_append] at hloc
    exact h.node?_parent parent name (by rw [hloc]; exact Option.some_ne_none _)

/-- A text is followed from a directory if it is met in one. -/
theorem node?_startOf (target : String) (hloc : t.node? loc = some .directory) :
    t.node? (startOf target loc) = some .directory := by
  rw [startOf]
  split
  · exact node?_nil t
  · exact hloc

/-- A path starts at a directory. -/
theorem node?_start (h : t.Rooted) (p : Path) : t.node? (t.start p) = some .directory := by
  rw [start]
  split
  · exact node?_nil t
  · exact h.node?_workingDirectory

/-- A directory is a place to arrive at. -/
theorem arrival_of_directory (h : t.Rooted) (hloc : t.node? loc = some .directory) :
    t.Arrival loc where
  node?_dropLast := h.node?_dropLast hloc
  node?_ne_link target := by simp [hloc]

/-- **Names that are followed** from such a place end at another. -/
theorem arrival_of_follow (h : t.Rooted) {creating : Bool} {links : Nat} {place : Location}
    {names : List String} (hplace : t.Arrival place)
    (hfollow : t.follow creating links place names = .ok loc) : t.Arrival loc := by
  fun_induction follow t creating links place names with
  | case1 links place =>
    cases hfollow
    exact hplace
  | case2 | case5 | case7 | case8 => cases hfollow
  | case3 links place name rest hdir hname ih => exact ih hplace hfollow
  | case4 links place rest hdir hname ih =>
    exact ih (h.arrival_of_directory (h.node?_dropLast (not_not.1 hdir))) hfollow
  | case6 links place name rest hdir hname hup hlong hnone hlast =>
    cases hfollow
    refine ⟨?_, fun target => by simp [hnone]⟩
    rw [List.dropLast_concat]
    exact not_not.1 hdir
  | case9 place name rest hdir hname hup hlong text hlink links ih =>
    exact ih (h.arrival_of_directory (node?_startOf text (not_not.1 hdir))) hfollow
  | case10 links place name rest hdir hname hup hlong node hnode hsome ih =>
    refine ih ⟨?_, fun target htarget => hnode target ?_⟩ hfollow
    · rw [List.dropLast_concat]
      exact not_not.1 hdir
    · rwa [hsome, Option.some.injEq] at htarget

/-- **The same way again.** Where names end once a file has been put there, they end afterwards. -/
theorem follow_of_changes (h : t.Rooted) (hchanges : t.Changes t' loc (.file bytes))
    (hloc : t.node? loc ≠ some .directory) {links : Nat} {place : Location} {names : List String}
    (hplace : t.Arrival place)
    (hfollow : t.follow true links place names = .ok loc) :
    t'.follow false links place names = .ok loc := by
  have harrival := h.arrival_of_follow hplace hfollow
  -- what is passed on the way lies elsewhere, and so it is still there
  have hdirectory : ∀ {place : Location}, ¬ t.node? place ≠ some .directory →
      ¬ t'.node? place ≠ some .directory := by
    intro place hdir
    rwa [hchanges.node?_of_ne place]
    rintro rfl
    exact hdir hloc
  clear hplace
  fun_induction follow t true links place names with
  | case1 links place => rwa [follow]
  | case2 | case5 | case7 | case8 => cases hfollow
  | case3 links place name rest hdir hname ih =>
    rw [follow, if_neg (hdirectory hdir), if_pos hname]
    exact ih hfollow
  | case4 links place rest hdir hname ih =>
    rw [follow, if_neg (hdirectory hdir), if_neg hname, if_pos rfl]
    exact ih hfollow
  | case6 links place name rest hdir hname hup hlong hnone hlast =>
    cases hfollow
    rw [follow, if_neg (hdirectory hdir), if_neg hname, if_neg hup, if_neg hlong,
      hchanges.node?_self, hlast.2]
    change t'.follow false links (place ++ [name]) [] = .ok (place ++ [name])
    rw [follow]
  | case9 place name rest hdir hname hup hlong text htext links ih =>
    have hstill : t'.node? (place ++ [name]) = some (.link text) := by
      rw [hchanges.node?_of_ne _ fun heq => harrival.node?_ne_link text (heq ▸ htext),
        htext]
    rw [follow, if_neg (hdirectory hdir), if_neg hname, if_neg hup, if_neg hlong, hstill]
    exact ih hfollow
  | case10 links place name rest hdir hname hup hlong node hnode hsome ih =>
    rw [follow, if_neg (hdirectory hdir), if_neg hname, if_neg hup, if_neg hlong]
    by_cases heq : place ++ [name] = loc
    · rw [heq, hchanges.node?_self]
      rw [heq] at ih hfollow
      exact ih hfollow
    · rw [hchanges.node?_of_ne _ heq, hsome]
      cases node with
      | link text => exact (hnode text rfl).elim
      | directory => exact ih hfollow
      | file _ => exact ih hfollow

end Rooted

/-! ### Writing -/

/-- **Writing** puts a file where the path leads to, unless that is a directory. -/
theorem write_eq_ok_iff : t.write p bytes = .ok t' ↔
    ∃ loc, t.resolveForWriting p = .ok loc ∧ t.node? loc ≠ some .directory ∧
      t' = t.put loc (.file bytes) := by
  rw [write]
  cases hres : t.resolveForWriting p with
  | error fault => simp [bind, Except.bind]
  | ok loc =>
    by_cases hdir : t.node? loc = some .directory
    · simp [bind, Except.bind, hdir]
    · simp only [bind, Except.bind, hdir, if_false, Except.ok.injEq, ne_eq, not_false_eq_true,
        exists_eq_left', true_and]
      exact eq_comm

/-- Writing does not even start if the system cannot be asked for the path. -/
theorem write_eq_unusable_iff : t.write p bytes = .error .unusable ↔ p.isUsable = false := by
  rw [← @resolveAs_eq_unusable_iff t true, ← resolveForWriting, write]
  cases t.resolveForWriting p with
  | error fault => simp [bind, Except.bind]
  | ok loc => by_cases hdir : t.node? loc = some .directory <;> simp [bind, Except.bind, hdir]

/-- **A file written to a path**: the tree has changed only where the path led to, which was no
directory. -/
def WrittenTo (t t' : FileTree) (p : Path) (bytes : List UInt8) : Prop :=
  ∃ loc, t.resolveForWriting p = .ok loc ∧ t.node? loc ≠ some .directory ∧
    t.Changes t' loc (.file bytes)

theorem writtenTo_of_write (h : t.write p bytes = .ok t') : t.WrittenTo t' p bytes := by
  obtain ⟨loc, hres, hdir, rfl⟩ := write_eq_ok_iff.1 h
  refine ⟨loc, hres, hdir, t.changes_put ?_ _⟩
  rintro rfl
  exact hdir t.node?_nil

/-- Writing arrives somewhere. -/
theorem Rooted.arrival_of_resolveForWriting (h : t.Rooted)
    (hres : t.resolveForWriting p = .ok loc) : t.Arrival loc :=
  h.arrival_of_follow (h.arrival_of_directory (h.node?_start p)) (resolveAs_eq_ok_iff.1 hres).2.2

/-- **After writing** everything still lies in a directory. -/
theorem Rooted.of_writtenTo (ht : t.Rooted) (h : t.WrittenTo t' p bytes) : t'.Rooted := by
  obtain ⟨loc, hres, hdir, hchanges⟩ := h
  -- directories are not what has been written to
  have hdirectory : ∀ {place}, t.node? place = some .directory →
      t'.node? place = some .directory := by
    intro place hplace
    rwa [hchanges.node?_of_ne place]
    rintro rfl
    exact hdir hplace
  constructor
  · intro place name hname
    by_cases heq : place ++ [name] = loc
    · have hparent := (ht.arrival_of_resolveForWriting hres).node?_dropLast
      rw [← heq, List.dropLast_concat] at hparent
      exact hdirectory hparent
    · rw [hchanges.node?_of_ne _ heq] at hname
      exact hdirectory (ht.node?_parent place name hname)
  · rw [hchanges.workingDirectory_eq]
    exact hdirectory ht.node?_workingDirectory

/-- **What has been written is read.** -/
theorem read_of_writtenTo (ht : t.Rooted) (h : t.WrittenTo t' p bytes) :
    t'.read p = .ok bytes := by
  obtain ⟨loc, hres, hdir, hchanges⟩ := h
  have hstart : t'.start p = t.start p := by rw [start, start, hchanges.workingDirectory_eq]
  obtain ⟨husable, hlong, hfollow⟩ := resolveAs_eq_ok_iff.1 hres
  have hback := ht.follow_of_changes hchanges hdir (ht.arrival_of_directory (ht.node?_start p)) hfollow
  rw [← hstart] at hback
  exact read_eq_ok_iff.2 ⟨loc, resolveAs_eq_ok_iff.2 ⟨husable, hlong, hback⟩, hchanges.node?_self⟩

end SchemaAssembly.FileTree
