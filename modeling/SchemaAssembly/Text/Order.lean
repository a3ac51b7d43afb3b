import SchemaAssembly.Distinct

/-!
# Texts in order

Texts are ordered by their code points. `sortTexts` keeps repetitions, `sortedSet` drops them.
-/

namespace SchemaAssembly

/-- Lists in an order that never holds both ways are known from what is in them. -/
theorem eq_of_pairwise_of_asymm {α : Type} {r : α → α → Prop} {first second : List α}
    (hasymm : ∀ a b, r a b → ¬ r b a) (hfirst : first.Pairwise r) (hsecond : second.Pairwise r)
    (hmem : ∀ a, a ∈ first ↔ a ∈ second) : first = second := by
  have hnodup : ∀ {l : List α}, l.Pairwise r → l.Nodup := by
    refine fun hl => hl.imp fun hab heq => ?_
    subst heq
    exact hasymm _ _ hab hab
  have hperm := (List.perm_ext_iff_of_nodup (hnodup hfirst) (hnodup hsecond)).2 hmem
  exact hperm.eq_of_pairwise (fun a b _ _ hab hba => absurd hba (hasymm a b hab)) hfirst hsecond

/-- Texts in ascending order of their code points. -/
def sortTexts (texts : List String) : List String :=
  texts.mergeSort fun a b => decide (a ≤ b)

/-- **The elements of a set of texts**, ascending and each once. -/
def sortedSet (texts : List String) : List String :=
  distinct (sortTexts texts)

/-- Sorting changes no membership. -/
@[simp] theorem mem_sortTexts {text : String} {texts : List String} :
    text ∈ sortTexts texts ↔ text ∈ texts := by
  simp [sortTexts]

/-- Sorting sorts. -/
theorem pairwise_sortTexts (texts : List String) : (sortTexts texts).Pairwise (· ≤ ·) := by
  have h := @List.pairwise_mergeSort _ (fun a b : String => decide (a ≤ b))
    (fun a b c hab hbc => by
      simp only [decide_eq_true_eq] at *
      exact String.le_trans hab hbc)
    (fun a b => by simpa using String.le_total a b) texts
  exact h.imp (fun hab => by simpa using hab)

/-- A list in order stays as it is when it is sorted. -/
theorem sortTexts_eq_self {texts : List String} (h : texts.Pairwise (· ≤ ·)) :
    sortTexts texts = texts :=
  List.mergeSort_of_pairwise (h.imp fun hle => by simpa using hle)

/-- A set of texts has the elements it was made from. -/
@[simp] theorem mem_sortedSet {text : String} {texts : List String} :
    text ∈ sortedSet texts ↔ text ∈ texts := by
  simp [sortedSet]

/-- A set of texts is empty if it was made from none. -/
theorem sortedSet_eq_nil_iff {texts : List String} : sortedSet texts = [] ↔ texts = [] := by
  simp only [List.eq_nil_iff_forall_not_mem, mem_sortedSet]

/-- A set of texts has no repetitions. -/
theorem nodup_sortedSet (texts : List String) : (sortedSet texts).Nodup :=
  nodup_distinct (sortTexts texts)

/-- Without repetitions, a list in order is strictly ascending. -/
theorem pairwise_lt_distinct {texts : List String} (h : texts.Pairwise (· ≤ ·)) :
    (distinct texts).Pairwise (· < ·) := by
  have hle : (distinct texts).Pairwise (· ≤ ·) := h.sublist (distinctOnAfter_sublist id [] texts)
  refine (hle.and (nodup_distinct texts)).imp fun h => ?_
  exact String.not_le.1 fun hle => h.2 (String.le_antisymm h.1 hle)

/-- A set of texts is listed in strictly ascending order. -/
theorem pairwise_lt_sortedSet (texts : List String) : (sortedSet texts).Pairwise (· < ·) :=
  pairwise_lt_distinct (pairwise_sortTexts texts)

end SchemaAssembly
