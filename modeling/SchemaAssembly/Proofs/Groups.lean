import Mathlib.Data.List.Basic
import Mathlib.Data.List.Induction
import SchemaAssembly.Text.Order

/-!
# Groups

Elements with one key form a group. A table of groups can be made in one pass over a list, each
element joining its group or opening a new one at the end (`groups`). It has the keys in the order of
their first occurrence, and under each the elements that have it (`groups_eq`).

If the keys are texts and the list is in their order, each group stands together:

- `append_group_append`: before a group there are smaller keys, after it greater ones;
- `flatMap_group`: one group after another, in the order of their keys, is the list;
- `eq_of_groups_eq`: so a list in order is known from its groups.

Sorting leaves elements that tie as they were (`filter_mergeSort`).
-/

namespace SchemaAssembly

variable {α β : Type}

/-! ### A table of groups -/

section Keys

variable [DecidableEq β] (key : α → β)

/-- A table of groups with one more element: it joins the group of its key, or opens one at the
end. -/
def addToGroup (a : α) : List (β × List α) → List (β × List α)
  | [] => [(key a, [a])]
  | (k, group) :: rest =>
    if k = key a then (k, group ++ [a]) :: rest else (k, group) :: addToGroup a rest

/-- **The groups of a list**, made in one pass. -/
def groups (l : List α) : List (β × List α) :=
  l.foldl (fun table a => addToGroup key a table) []

variable {key} {keys : List β} {a : α}

/-- An element joins the group of its key, and no other group changes. -/
theorem addToGroup_of_mem (group : β → List α) (hnodup : keys.Nodup) (hmem : key a ∈ keys) :
    addToGroup key a (keys.map fun k => (k, group k)) =
      keys.map fun k => (k, if k = key a then group k ++ [a] else group k) := by
  induction keys with
  | nil => cases hmem
  | cons k keys ih =>
    rw [List.nodup_cons] at hnodup
    rw [List.map_cons, List.map_cons, addToGroup]
    by_cases hk : k = key a
    · have hrest : ∀ k' ∈ keys, k' ≠ key a := fun k' hk' heq => hnodup.1 (hk ▸ heq ▸ hk')
      rw [if_pos hk, if_pos hk]
      congr 1
      refine List.map_congr_left fun k' hk' => ?_
      rw [if_neg (hrest k' hk')]
    · have hrest : key a ∈ keys := (List.mem_cons.1 hmem).resolve_left (Ne.symm hk)
      rw [if_neg hk, if_neg hk, ih hnodup.2 hrest]

/-- An element of a new key opens a group at the end. -/
theorem addToGroup_of_not_mem (group : β → List α) (hnew : key a ∉ keys) :
    addToGroup key a (keys.map fun k => (k, group k)) =
      (keys.map fun k => (k, group k)) ++ [(key a, [a])] := by
  induction keys with
  | nil => rfl
  | cons k keys ih =>
    rw [List.mem_cons, not_or] at hnew
    rw [List.map_cons, addToGroup, if_neg (Ne.symm hnew.1), ih hnew.2, List.cons_append]

/-- **A step of the pass** goes from the groups of a list to those of the list with one element
more. -/
theorem addToGroup_distinct (key : α → β) (l : List α) (a : α) :
    addToGroup key a ((distinct (l.map key)).map fun k => (k, l.filter (key · = k))) =
      (distinct ((l ++ [a]).map key)).map fun k => (k, (l ++ [a]).filter (key · = k)) := by
  have hfilter : ∀ k, (l ++ [a]).filter (key · = k) =
      if k = key a then l.filter (key · = k) ++ [a] else l.filter (key · = k) := by
    intro k
    by_cases hk : k = key a
    · simp [hk]
    · simp [hk, Ne.symm hk]
  simp only [hfilter, List.map_append, List.map_cons, List.map_nil, distinct_append_singleton]
  by_cases hmem : key a ∈ l.map key
  · rw [if_pos hmem]
    exact addToGroup_of_mem _ (nodup_distinct _) (mem_distinct.2 hmem)
  · have hnone : l.filter (key · = key a) = [] := by
      refine List.filter_eq_nil_iff.2 fun b hb => ?_
      rw [decide_eq_true_eq]
      exact fun heq => hmem (heq ▸ List.mem_map_of_mem hb)
    have hothers : ∀ k ∈ distinct (l.map key), k ≠ key a :=
      fun k hk heq => hmem (heq ▸ mem_distinct.1 hk)
    rw [if_neg hmem, addToGroup_of_not_mem _ (fun h => hmem (mem_distinct.1 h)), List.map_append,
      List.map_singleton, if_pos rfl, hnone]
    congr 1
    refine List.map_congr_left fun k hk => ?_
    rw [if_neg (hothers k hk)]

/-- **The groups of a list** have its keys in the order of their first occurrence, and under each of
them its elements with that key. -/
theorem groups_eq (key : α → β) (l : List α) :
    groups key l = (distinct (l.map key)).map fun k => (k, l.filter (key · = k)) := by
  rw [groups]
  induction l using List.reverseRecOn with
  | nil => rfl
  | append_singleton l a ih => rw [List.foldl_concat, ih, addToGroup_distinct]

/-- In a group there is one key. -/
theorem key_eq_of_mem_group {l : List α} {k : β} (h : a ∈ l.filter (key · = k)) : key a = k := by
  simpa using (List.mem_filter.1 h).2

/-- What a list is ordered by beyond the key is what a group is ordered by. -/
theorem pairwise_group {r r' : α → α → Prop} {l : List α} {k : β} (hl : l.Pairwise r)
    (h : ∀ a b, key a = k → key b = k → r a b → r' a b) :
    (l.filter (key · = k)).Pairwise r' :=
  (hl.filter _).imp_of_mem fun ha hb => h _ _ (key_eq_of_mem_group ha) (key_eq_of_mem_group hb)

end Keys

/-! ### Lists in order -/

/-- In a list in order, the elements of a property that is passed on to what comes before stand in
front of those of any other that excludes it. -/
theorem filter_or_of_pairwise {r : α → α → Prop} {P Q : α → Prop} [DecidablePred P]
    [DecidablePred Q] {l : List α} (hl : l.Pairwise r) (hP : ∀ a b, r a b → P b → P a)
    (hQ : ∀ a, Q a → ¬ P a) : l.filter (fun a => P a ∨ Q a) = l.filter P ++ l.filter Q := by
  induction hl with
  | nil => rfl
  | @cons a l hfirst _ ih =>
    by_cases ha : P a
    · have hQa : ¬ Q a := fun hQa => hQ a hQa ha
      simpa [ha, hQa] using ih
    · have hrest : ∀ b ∈ l, ¬ P b := fun b hb hPb => ha (hP a b (hfirst b hb) hPb)
      have hnone : l.filter P = [] := List.filter_eq_nil_iff.2 (by simpa using hrest)
      rw [hnone, List.nil_append] at ih
      by_cases hQa : Q a
      · simpa [ha, hQa, hnone] using ih
      · simpa [ha, hQa, hnone] using ih

variable {key : α → String} {keys : List String} {l l' : List α}

/-- **A group stands together**, between what has smaller keys and what has greater ones. -/
theorem append_group_append (hl : l.Pairwise fun a b => key a ≤ key b) (k : String) :
    l = l.filter (key · < k) ++ l.filter (key · = k) ++ l.filter (k < key ·) := by
  have hbefore : ∀ a b, key a ≤ key b → key b < k → key a < k := by
    intro a b hab hb
    exact String.not_le.1 fun hka => String.not_le.2 hb (String.le_trans hka hab)
  have hupto : ∀ a b, key a ≤ key b → key b < k ∨ key b = k → key a < k ∨ key a = k := by
    rintro a b hab (hb | rfl)
    · exact Or.inl (hbefore a b hab hb)
    · by_cases hlt : key a < key b
      · exact Or.inl hlt
      · exact Or.inr (String.le_antisymm hab (String.not_lt.1 hlt))
  have hall : ∀ a, (key a < k ∨ key a = k) ∨ k < key a := by
    intro a
    by_cases hle : k ≤ key a
    · by_cases heq : key a = k
      · exact Or.inl (Or.inr heq)
      · refine Or.inr (String.not_le.1 fun hge => heq (String.le_antisymm hge hle))
    · exact Or.inl (Or.inl (String.not_le.1 hle))
  have hfront := filter_or_of_pairwise (P := fun a => key a < k) (Q := fun a => key a = k) hl
    hbefore (fun a ha hlt => String.lt_irrefl _ (ha ▸ hlt))
  have hback := filter_or_of_pairwise (P := fun a => key a < k ∨ key a = k)
    (Q := fun a => k < key a) hl hupto (by
      rintro a ha (hlt | rfl)
      · exact String.lt_irrefl _ (String.lt_trans ha hlt)
      · exact String.lt_irrefl _ ha)
  rw [hfront] at hback
  rw [← hback]
  exact (List.filter_eq_self.2 fun a _ => decide_eq_true (hall a)).symm

/-- **One group after another** is the whole list, if they are taken in the order of their keys. -/
theorem flatMap_group (hkeys : keys.Pairwise (· < ·))
    (hl : l.Pairwise fun a b => key a ≤ key b) (hmem : ∀ a ∈ l, key a ∈ keys) :
    (keys.flatMap fun k => l.filter (key · = k)) = l := by
  induction keys generalizing l with
  | nil =>
    have hnone : l = [] :=
      List.eq_nil_iff_forall_not_mem.2 fun a ha => absurd (hmem a ha) List.not_mem_nil
    rw [hnone]
    rfl
  | cons k keys ih =>
    rw [List.pairwise_cons] at hkeys
    have hnone : l.filter (key · < k) = [] := by
      refine List.filter_eq_nil_iff.2 fun a ha => ?_
      rw [decide_eq_true_eq]
      rcases List.mem_cons.1 (hmem a ha) with heq | hk
      · exact heq ▸ String.lt_irrefl k
      · exact fun hlt => String.lt_irrefl k (String.lt_trans (hkeys.1 _ hk) hlt)
    -- the groups of greater keys are those of what comes after the first group
    have hrest : (keys.flatMap fun k' => l.filter (key · = k')) = l.filter (k < key ·) := by
      rw [← ih hkeys.2 (hl.filter _) fun a ha => ?_]
      · refine List.flatMap_congr fun k' hk' => ?_
        rw [List.filter_filter]
        refine List.filter_congr fun a _ => ?_
        by_cases heq : key a = k'
        · simp [heq, hkeys.1 k' hk']
        · simp [heq]
      · obtain ⟨hl, hlt⟩ := List.mem_filter.1 ha
        rw [decide_eq_true_eq] at hlt
        refine (List.mem_cons.1 (hmem a hl)).resolve_left fun heq => ?_
        exact String.lt_irrefl k (heq ▸ hlt)
    rw [List.flatMap_cons, hrest]
    have hsplit := append_group_append hl k
    rw [hnone, List.nil_append] at hsplit
    exact hsplit.symm

/-- **A list in order is known from its groups.** -/
theorem eq_of_groups_eq (hl : l.Pairwise fun a b => key a ≤ key b)
    (hl' : l'.Pairwise fun a b => key a ≤ key b)
    (h : ∀ k, l.filter (key · = k) = l'.filter (key · = k)) : l = l' := by
  have hkeys : (distinct (l.map key)).Pairwise (· < ·) :=
    pairwise_lt_distinct (List.pairwise_map.2 hl)
  have hmem : ∀ a ∈ l, key a ∈ distinct (l.map key) :=
    fun a ha => mem_distinct.2 (List.mem_map_of_mem ha)
  have hmem' : ∀ a ∈ l', key a ∈ distinct (l.map key) := by
    intro a ha
    have hgroup : a ∈ l.filter (key · = key a) := h (key a) ▸ List.mem_filter.2 ⟨ha, by simp⟩
    exact hmem a (List.mem_filter.1 hgroup).1
  calc l = (distinct (l.map key)).flatMap fun k => l.filter (key · = k) :=
        (flatMap_group hkeys hl hmem).symm
    _ = (distinct (l.map key)).flatMap fun k => l'.filter (key · = k) := by simp only [h]
    _ = l' := flatMap_group hkeys hl' hmem'

/-! ### Sorting -/

/-- **Sorting is stable**: what ties is found in the sorted list as in the list. -/
theorem filter_mergeSort {le : α → α → Bool} {p : α → Bool}
    (htrans : ∀ a b c, le a b = true → le b c = true → le a c = true)
    (htotal : ∀ a b, (le a b || le b a) = true)
    (htie : ∀ a b, p a = true → p b = true → le a b = true) (l : List α) :
    (l.mergeSort le).filter p = l.filter p := by
  have hordered : (l.filter p).Pairwise fun a b => le a b = true := by
    refine List.pairwise_of_forall_mem_list fun a ha b hb => ?_
    exact htie a b (List.mem_filter.1 ha).2 (List.mem_filter.1 hb).2
  have hsublist := (List.sublist_mergeSort htrans htotal hordered List.filter_sublist).filter p
  rw [List.filter_filter] at hsublist
  simp only [Bool.and_self] at hsublist
  exact (hsublist.eq_of_length ((List.mergeSort_perm l le).filter p).length_eq.symm).symm

/-- Of elements with keys of their own, those of one key are known from a rearrangement. -/
theorem filter_eq_of_perm {key : α → β} {p : α → Bool} (hperm : l.Perm l')
    (hnodup : (l.map key).Nodup) (hp : ∀ a b, p a = true → p b = true → key a = key b) :
    l.filter p = l'.filter p := by
  have hdistinct : ∀ {l : List α}, (l.map key).Nodup →
      (l.filter p).Pairwise fun a b => key a ≠ key b :=
    fun hl => (List.pairwise_map.1 hl).filter p
  refine (hperm.filter p).eq_of_pairwise (fun a b ha hb hne _ => ?_) (hdistinct hnodup)
    (hdistinct ((hperm.map key).nodup_iff.1 hnodup))
  exact absurd (hp a b (List.mem_filter.1 ha).2 (List.mem_filter.1 hb).2) hne

end SchemaAssembly
