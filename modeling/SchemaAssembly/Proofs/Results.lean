/-!
# Results

A computation that may fail has a result only if all its parts have. So what a result says of one
part holds of all of them: element by element, or along a fold.
-/

namespace SchemaAssembly

variable {α β ε : Type}

/-- What comes of two steps comes of the first one and then of the second. -/
theorem exists_of_bind_eq_ok {x : Except ε α} {f : α → Except ε β} {b : β} (h : x >>= f = .ok b) :
    ∃ a, x = .ok a ∧ f a = .ok b := by
  cases x with
  | error e => cases h
  | ok a => exact ⟨a, rfl, h⟩

/-- Errors said in another way leave results as they are. -/
theorem mapError_eq_ok_iff {ε' : Type} {x : Except ε α} {f : ε → ε'} {a : α} :
    x.mapError f = .ok a ↔ x = .ok a := by
  constructor
  · intro h
    cases x with
    | ok b =>
      cases h
      rfl
    | error e => cases h
  · rintro rfl
    rfl

/-- What is made of all elements, one after another and each as `g` says, is what `g` makes of them. -/
theorem eq_map_of_mapM_eq_ok {f : α → Except ε β} {g : α → β}
    (hg : ∀ a b, f a = .ok b → b = g a) {as : List α} {bs : List β} (h : as.mapM f = .ok bs) :
    bs = as.map g := by
  induction as generalizing bs with
  | nil =>
    cases h
    rfl
  | cons a rest ih =>
    rw [List.mapM_cons] at h
    obtain ⟨b, hfirst, h⟩ := exists_of_bind_eq_ok h
    obtain ⟨more, hrest, h⟩ := exists_of_bind_eq_ok h
    cases h
    rw [List.map_cons, ← hg a b hfirst, ← ih hrest]

/-- If something is made of each element, all of it is made of all of them. -/
theorem mapM_eq_ok_map {f : α → Except ε β} {g : α → β} {as : List α}
    (hf : ∀ a ∈ as, f a = .ok (g a)) : as.mapM f = .ok (as.map g) := by
  induction as with
  | nil => rfl
  | cons a rest ih =>
    rw [List.mapM_cons, hf a List.mem_cons_self, ih fun b hb => hf b (List.mem_cons_of_mem a hb)]
    rfl

/-- What each step of a fold keeps, the fold keeps. -/
theorem of_foldlM_eq_ok {p : β → Prop} {f : β → α → Except ε β}
    (hstep : ∀ b a b', p b → f b a = .ok b' → p b') {as : List α} {b b' : β} (hb : p b)
    (h : as.foldlM f b = .ok b') : p b' := by
  induction as generalizing b with
  | nil =>
    cases h
    exact hb
  | cons a rest ih =>
    rw [List.foldlM_cons] at h
    obtain ⟨next, hnext, hrest⟩ := exists_of_bind_eq_ok h
    exact ih (hstep b a next hb hnext) hrest

end SchemaAssembly
