import SchemaAssembly.Assembly

/-!
# Documents of a file tree

What reading makes of a list of paths while the tree stays as it is.

* **one document per path** — documents that were read from one path are one document
  (`eq_of_path_eq`), so whatever depends on a document depends on its path;
* **all or the first fault** — either every path can be read and the documents come in the order of
  the paths (`readAll_of_readable`), or the first path that cannot be read is the failure
  (`readAll_of_unreadable`). Which failure that is depends on whether the system can be asked for the
  path (`ending_of_read`).
-/

namespace SchemaAssembly.FileTree

variable {t : FileTree}

/-- The path leads to a file that can be read as text. -/
def Readable (t : FileTree) (p : Path) : Prop :=
  ∃ d, SourceDocument.read t p = .ok d

/-- The documents of the paths that can be read, in the order of the paths. -/
def documents (t : FileTree) (paths : List Path) : List SourceDocument :=
  paths.filterMap fun p => (SourceDocument.read t p).toOption

/-- A path that the system cannot be asked for cannot be read, and this is the only reason not to ask
for it. -/
theorem readText_eq_unusable_iff {p : Path} :
    t.readText p = .error (.fault .unusable) ↔ p.isUsable = false := by
  rw [← @FileTree.read_eq_unusable_iff t, readText]
  cases hbytes : t.read p with
  | error fault => simp
  | ok bytes =>
    dsimp only
    cases Text.decodeUtf8 bytes <;> simp

/-- So it has no document. -/
theorem read_document_eq_unusable_iff {p : Path} :
    SourceDocument.read t p = .error (.fault .unusable) ↔ p.isUsable = false := by
  rw [← @readText_eq_unusable_iff t, SourceDocument.read]
  cases t.readText p <;> simp [Except.map]

/-- The system can be asked for what can be read. -/
theorem Readable.isUsable {p : Path} (h : t.Readable p) : p.isUsable = true := by
  obtain ⟨d, hd⟩ := h
  refine Bool.ne_false_iff.1 fun husable => ?_
  rw [read_document_eq_unusable_iff.2 husable] at hd
  cases hd

/-- **Why an assembly fails** that cannot read a path. -/
theorem ending_of_read {p : Path} {failure : ReadFailure}
    (h : SourceDocument.read t p = .error failure) :
    failure.ending p =
      if p.isUsable then .unreadable p (failure.reason p) else .unusable p := by
  cases husable : p.isUsable with
  | true =>
    rw [if_pos rfl, ReadFailure.ending]
    rintro rfl
    rw [read_document_eq_unusable_iff.1 h] at husable
    cases husable
  | false =>
    rw [read_document_eq_unusable_iff.2 husable] at h
    obtain rfl := Except.error.inj h
    rfl

/-- A document knows the path it was read from. -/
theorem path_of_read {p : Path} {d : SourceDocument} (h : SourceDocument.read t p = .ok d) :
    d.path = p := by
  rw [SourceDocument.read] at h
  cases htext : t.readText p with
  | error failure =>
    rw [htext] at h
    cases h
  | ok text =>
    rw [htext] at h
    cases h
    rfl

theorem mem_documents_iff {paths : List Path} {d : SourceDocument} :
    d ∈ t.documents paths ↔ d.path ∈ paths ∧ SourceDocument.read t d.path = .ok d := by
  rw [documents, List.mem_filterMap]
  constructor
  · rintro ⟨p, hp, hd⟩
    cases hread : SourceDocument.read t p with
    | error failure =>
      rw [hread] at hd
      cases hd
    | ok e =>
      rw [hread] at hd
      obtain rfl : e = d := Option.some.inj hd
      rw [path_of_read hread]
      exact ⟨hp, hread⟩
  · rintro ⟨hp, hread⟩
    exact ⟨d.path, hp, by rw [hread]; rfl⟩

/-- **One document per path.** -/
theorem eq_of_path_eq {paths paths' : List Path} {d e : SourceDocument}
    (hd : d ∈ t.documents paths) (he : e ∈ t.documents paths') (h : d.path = e.path) : d = e := by
  have hd := (mem_documents_iff.1 hd).2
  have he := (mem_documents_iff.1 he).2
  rw [h, he] at hd
  exact (Except.ok.inj hd).symm

theorem documents_cons {p : Path} {d : SourceDocument} (h : SourceDocument.read t p = .ok d)
    (rest : List Path) : t.documents (p :: rest) = d :: t.documents rest :=
  List.filterMap_cons_some (by rw [h]; rfl)

/-- Documents that could all be read are as many as the paths, and in their order. -/
theorem map_path_documents {paths : List Path} (h : ∀ p ∈ paths, t.Readable p) :
    (t.documents paths).map (·.path) = paths := by
  induction paths with
  | nil => rfl
  | cons p rest ih =>
    obtain ⟨d, hd⟩ := h p List.mem_cons_self
    rw [documents_cons hd, List.map_cons, path_of_read hd,
      ih fun q hq => h q (List.mem_cons_of_mem p hq)]

theorem readAll_cons (p : Path) (rest : List Path) :
    t.readAll (p :: rest) =
      match SourceDocument.read t p with
      | .error failure => .error (failure.ending p)
      | .ok d => (t.readAll rest).map (d :: ·) := by
  rw [readAll, List.mapM_cons, ← readAll]
  cases SourceDocument.read t p with
  | error failure => rfl
  | ok d => cases t.readAll rest <;> rfl

/-- **All documents**, if every path can be read. -/
theorem readAll_of_readable {paths : List Path} (h : ∀ p ∈ paths, t.Readable p) :
    t.readAll paths = .ok (t.documents paths) := by
  induction paths with
  | nil => rfl
  | cons p rest ih =>
    obtain ⟨d, hd⟩ := h p List.mem_cons_self
    rw [readAll_cons, hd, ih fun q hq => h q (List.mem_cons_of_mem p hq), documents_cons hd]
    rfl

/-- **The first fault**, if some path cannot be read. -/
theorem readAll_of_unreadable {before after : List Path} {p : Path} {failure : ReadFailure}
    (hbefore : ∀ q ∈ before, t.Readable q) (hp : SourceDocument.read t p = .error failure) :
    t.readAll (before ++ p :: after) = .error (failure.ending p) := by
  induction before with
  | nil => rw [List.nil_append, readAll_cons, hp]
  | cons q rest ih =>
    obtain ⟨d, hd⟩ := hbefore q List.mem_cons_self
    rw [List.cons_append, readAll_cons, hd, ih fun r hr => hbefore r (List.mem_cons_of_mem q hr)]
    rfl

/-- Every path can be read, or there is a first one that cannot. -/
theorem readable_or_first_unreadable (t : FileTree) (paths : List Path) :
    (∀ p ∈ paths, t.Readable p) ∨
      ∃ before p after failure, paths = before ++ p :: after ∧ (∀ q ∈ before, t.Readable q) ∧
        SourceDocument.read t p = .error failure := by
  induction paths with
  | nil => exact Or.inl fun p hp => absurd hp List.not_mem_nil
  | cons q rest ih =>
    cases hq : SourceDocument.read t q with
    | error failure =>
      exact Or.inr ⟨[], q, rest, failure, rfl, fun r hr => absurd hr List.not_mem_nil, hq⟩
    | ok d =>
      rcases ih with hall | ⟨before, p, after, failure, rfl, hbefore, hp⟩
      · exact Or.inl (List.forall_mem_cons.2 ⟨⟨d, hq⟩, hall⟩)
      · exact Or.inr ⟨q :: before, p, after, failure, rfl,
          List.forall_mem_cons.2 ⟨⟨d, hq⟩, hbefore⟩, hp⟩

end SchemaAssembly.FileTree
