/-!
# First occurrences

Many lists here keep only the first element of each key: library roots by where they lie, files by
their path, names by themselves.

- `mem_distinct`: nothing is lost when elements are their own keys;
- `nodup_map_distinctOn`: no two elements kept share a key;
- `distinctOnAfter_append`: what is kept of two lists, one after the other.
-/

namespace SchemaAssembly

variable {α β : Type} [DecidableEq β]

/-- The elements whose key is neither in `seen` nor the key of an element before them. -/
def distinctOnAfter (key : α → β) (seen : List β) : List α → List α
  | [] => []
  | a :: rest =>
    if key a ∈ seen then distinctOnAfter key seen rest
    else a :: distinctOnAfter key (key a :: seen) rest

/-- **First occurrences**: the first element of each key, in order. -/
def distinctOn (key : α → β) (l : List α) : List α :=
  distinctOnAfter key [] l

/-- The elements of a list without repetitions, in the order of their first occurrence. -/
def distinct (l : List β) : List β :=
  distinctOn id l

@[simp] theorem distinctOnAfter_nil (key : α → β) (seen : List β) :
    distinctOnAfter key seen [] = [] := rfl

theorem distinctOnAfter_cons (key : α → β) (seen : List β) (a : α) (rest : List α) :
    distinctOnAfter key seen (a :: rest) =
      if key a ∈ seen then distinctOnAfter key seen rest
      else a :: distinctOnAfter key (key a :: seen) rest := rfl

/-- What is kept comes from the list, and its key was not seen. -/
theorem mem_of_mem_distinctOnAfter {key : α → β} {seen : List β} {l : List α} {a : α}
    (h : a ∈ distinctOnAfter key seen l) : a ∈ l ∧ key a ∉ seen := by
  induction l generalizing seen with
  | nil => simp at h
  | cons b rest ih =>
    rw [distinctOnAfter_cons] at h
    split at h
    · exact ⟨List.mem_cons_of_mem b (ih h).1, (ih h).2⟩
    · rename_i hb
      rcases List.mem_cons.1 h with rfl | h
      · exact ⟨List.mem_cons_self, hb⟩
      · have hk := (ih h).2
        simp only [List.mem_cons, not_or] at hk
        exact ⟨List.mem_cons_of_mem b (ih h).1, hk.2⟩

/-- Every element's key was seen before or is the key of an element that is kept. -/
theorem exists_mem_distinctOnAfter {key : α → β} {seen : List β} {l : List α} {a : α}
    (h : a ∈ l) : key a ∈ seen ∨ ∃ b ∈ distinctOnAfter key seen l, key b = key a := by
  induction l generalizing seen with
  | nil => simp at h
  | cons c rest ih =>
    rw [distinctOnAfter_cons]
    by_cases hc : key c ∈ seen
    · rw [if_pos hc]
      rcases List.mem_cons.1 h with rfl | h
      · exact Or.inl hc
      · exact ih h
    · rw [if_neg hc]
      rcases List.mem_cons.1 h with rfl | h
      · exact Or.inr ⟨a, List.mem_cons_self, rfl⟩
      · rcases @ih (key c :: seen) h with hs | ⟨b, hb, hk⟩
        · rcases List.mem_cons.1 hs with hs | hs
          · exact Or.inr ⟨c, List.mem_cons_self, hs.symm⟩
          · exact Or.inl hs
        · exact Or.inr ⟨b, List.mem_cons_of_mem c hb, hk⟩

/-- What is kept of a list comes in its order. -/
theorem distinctOnAfter_sublist (key : α → β) (seen : List β) (l : List α) :
    (distinctOnAfter key seen l).Sublist l := by
  induction l generalizing seen with
  | nil => exact List.Sublist.slnil
  | cons a rest ih =>
    rw [distinctOnAfter_cons]
    split
    · exact (ih seen).cons a
    · exact (ih (key a :: seen)).cons_cons a

/-- The keys of the elements kept are distinct. -/
theorem nodup_map_distinctOnAfter (key : α → β) (seen : List β) (l : List α) :
    ((distinctOnAfter key seen l).map key).Nodup := by
  induction l generalizing seen with
  | nil => simp
  | cons a rest ih =>
    rw [distinctOnAfter_cons]
    split
    · exact ih seen
    · rw [List.map_cons, List.nodup_cons]
      refine ⟨fun h => ?_, ih _⟩
      obtain ⟨b, hb, hk⟩ := List.mem_map.1 h
      exact (mem_of_mem_distinctOnAfter hb).2 (hk ▸ List.mem_cons_self)

/-- Only which keys were seen matters, not in which order. -/
theorem distinctOnAfter_congr {key : α → β} {seen seen' : List β}
    (h : ∀ k, k ∈ seen ↔ k ∈ seen') (l : List α) :
    distinctOnAfter key seen l = distinctOnAfter key seen' l := by
  induction l generalizing seen seen' with
  | nil => rfl
  | cons a rest ih =>
    have hcons : ∀ k, k ∈ key a :: seen ↔ k ∈ key a :: seen' := by
      intro k
      rw [List.mem_cons, List.mem_cons, h k]
    rw [distinctOnAfter_cons, distinctOnAfter_cons, ih h, ih hcons]
    simp only [h (key a)]

/-- Going through two lists one after the other, the keys of the first are seen in the second. -/
theorem distinctOnAfter_append (key : α → β) (seen : List β) (l r : List α) :
    distinctOnAfter key seen (l ++ r) =
      distinctOnAfter key seen l ++ distinctOnAfter key (l.map key ++ seen) r := by
  induction l generalizing seen with
  | nil => rfl
  | cons a rest ih =>
    rw [List.cons_append, distinctOnAfter_cons, distinctOnAfter_cons]
    by_cases ha : key a ∈ seen
    · rw [if_pos ha, if_pos ha, ih seen]
      congr 1
      refine distinctOnAfter_congr (fun k => ?_) r
      simp only [List.map_cons, List.mem_append, List.mem_cons]
      constructor
      · exact Or.imp_left Or.inr
      · rintro ((rfl | hk) | hk)
        · exact Or.inr ha
        · exact Or.inl hk
        · exact Or.inr hk
    · rw [if_neg ha, if_neg ha, ih (key a :: seen), List.cons_append]
      congr 2
      refine distinctOnAfter_congr (fun k => ?_) r
      simp only [List.map_cons, List.mem_append, List.mem_cons]
      exact or_left_comm.trans or_assoc.symm

/-- Elements with keys of their own, none of them seen, are all kept. -/
theorem distinctOnAfter_eq_self {key : α → β} {seen : List β} {l : List α}
    (hnodup : (l.map key).Nodup) (hnew : ∀ a ∈ l, key a ∉ seen) :
    distinctOnAfter key seen l = l := by
  induction l generalizing seen with
  | nil => rfl
  | cons a rest ih =>
    rw [List.map_cons, List.nodup_cons] at hnodup
    rw [distinctOnAfter_cons, if_neg (hnew a List.mem_cons_self)]
    congr 1
    refine ih hnodup.2 fun b hb hmem => ?_
    rcases List.mem_cons.1 hmem with hk | hk
    · exact hnodup.1 (hk ▸ List.mem_map_of_mem hb)
    · exact hnew b (List.mem_cons_of_mem a hb) hk

/-- No two elements kept share a key. -/
theorem nodup_map_distinctOn (key : α → β) (l : List α) :
    ((distinctOn key l).map key).Nodup :=
  nodup_map_distinctOnAfter key [] l

/-- First occurrences go over to what the elements are made into, if that decides the key. -/
theorem map_distinctOn {γ : Type} (f : γ → α) (key : α → β) (l : List γ) :
    (distinctOn (fun c => key (f c)) l).map f = distinctOn key (l.map f) := by
  suffices h : ∀ seen, (distinctOnAfter (fun c => key (f c)) seen l).map f =
      distinctOnAfter key seen (l.map f) from h []
  induction l with
  | nil => exact fun _ => rfl
  | cons c rest ih =>
    intro seen
    rw [List.map_cons, distinctOnAfter_cons, distinctOnAfter_cons]
    split
    · exact ih seen
    · rw [List.map_cons, ih]

/-- Dropping repetitions loses no element and adds none. -/
@[simp] theorem mem_distinct {b : β} {l : List β} : b ∈ distinct l ↔ b ∈ l := by
  constructor
  · exact fun h => (mem_of_mem_distinctOnAfter h).1
  · intro h
    rcases @exists_mem_distinctOnAfter β β _ id [] l b h with h | ⟨c, hc, hk⟩
    · simp at h
    · have hcb : c = b := hk
      exact hcb ▸ hc

/-- A list without repetitions has none. -/
theorem nodup_distinct (l : List β) : (distinct l).Nodup := by
  have h := nodup_map_distinctOn (id : β → β) l
  rwa [List.map_id] at h

/-- One more element at the end is one more first occurrence, unless it has occurred. -/
theorem distinct_append_singleton (l : List β) (b : β) :
    distinct (l ++ [b]) = if b ∈ l then distinct l else distinct l ++ [b] := by
  rw [distinct, distinctOn, distinctOnAfter_append, List.map_id, List.append_nil,
    distinctOnAfter_cons, distinctOnAfter_nil, id]
  by_cases hb : b ∈ l
  · rw [if_pos hb, if_pos hb, List.append_nil]
    rfl
  · rw [if_neg hb, if_neg hb]
    rfl

end SchemaAssembly
