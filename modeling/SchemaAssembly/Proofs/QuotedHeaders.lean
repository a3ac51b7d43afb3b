import SchemaAssembly.Proofs.Tokens
import SchemaAssembly.Source.Document

/-!
# Headers within strings

Only comments are taken out before a header is looked for, and strings stay with their line ends. Where
no gap of a text names a keyword, a header can still be found: in a line of a string that goes on like
one. `header?_eq_findSome?_strings` says that it is found there and nowhere else.

- `Tokenized.not_keyword_stripComments`: the text itself does not start with a header;
- `Tokenized.headerInLaterLine_stripComments`: nor does any line, but for those in strings;
- `exists_header_in_string`: a string with a header in its second line.
-/

namespace SchemaAssembly.Source

/-! ### Lines of a part of a text -/

/-- The first header at the beginning of a line that starts within a part of a text, given the text
behind that part. -/
def headerWithin : List Char → List Char → Option Header
  | [], _ => none
  | '\n' :: rest, after => (headerAt (rest ++ after)).or (headerWithin rest after)
  | _ :: rest, after => headerWithin rest after

section

variable {front after : List Char}

/-- The lines of a text start within its one part or within the other. -/
theorem headerInLaterLine_append (front after : List Char) :
    headerInLaterLine (front ++ after) =
      (headerWithin front after).or (headerInLaterLine after) := by
  fun_induction headerWithin front after with
  | case1 => rfl
  | case2 rest after ih => rw [List.cons_append, headerInLaterLine, ih, Option.or_assoc]
  | case3 c rest after hc ih =>
    rw [List.cons_append, headerInLaterLine, ih]
    exact hc

/-- No header is found within a part exactly if none stands behind any line end in it. -/
theorem headerWithin_eq_none_iff :
    headerWithin front after = none ↔
      ∀ before rest, front = before ++ '\n' :: rest → headerAt (rest ++ after) = none := by
  fun_induction headerWithin front after with
  | case1 => simp
  | case2 rest after ih =>
    rw [Option.or_eq_none_iff, ih]
    constructor
    · rintro ⟨hhere, hrest⟩ before back hback
      cases before with
      | nil =>
        obtain rfl := (List.cons.inj hback).2
        exact hhere
      | cons c before => exact hrest before back (List.cons.inj hback).2
    · intro h
      refine ⟨h [] rest rfl, fun before back hback => h ('\n' :: before) back ?_⟩
      rw [hback, List.cons_append]
  | case3 c rest after hc ih =>
    rw [ih]
    constructor
    · intro h before back hback
      cases before with
      | nil => exact (hc (List.cons.inj hback).1).elim
      | cons d before => exact h before back (List.cons.inj hback).2
    · intro h before back hback
      refine h (c :: before) back ?_
      rw [hback, List.cons_append]

end

/-! ### Texts that start with no keyword -/

/-- A keyword is some text. -/
theorem HeaderKind.text_ne_nil (kind : HeaderKind) : kind.text.toList ≠ [] := by
  cases kind <;> decide

/-- **A text that starts with no keyword**, blanks left aside, and that ends one before it. -/
structure NoKeyword (cs : List Char) : Prop where
  /-- blanks left aside, no keyword starts it -/
  not_keyword : ∀ kind : HeaderKind, ¬ kind.text.toList <+: Text.trimStart cs
  /-- its first character is part of no keyword -/
  head_notMem : ∀ c ∈ cs.head?, ∀ kind : HeaderKind, c ∉ kind.text.toList

/-- Whether a gap names a header's keyword. -/
def NamesKeyword (gap : List Char) : Prop :=
  "module".toList <:+: gap

instance (gap : List Char) : Decidable (NamesKeyword gap) :=
  inferInstanceAs (Decidable ("module".toList <:+: gap))

section

variable {gap after : List Char}

/-- There is no header where there is no keyword. -/
theorem headerAt_eq_none (h : ∀ kind : HeaderKind, ¬ kind.text.toList <+: Text.trimStart after) :
    headerAt after = none := by
  have hafter : ∀ kind : HeaderKind, afterKeyword kind.text.toList (Text.trimStart after) = none :=
    fun kind => if_neg fun hprefix => h kind (List.isPrefixOf_iff_prefix.1 hprefix)
  simp only [headerAt, hafter, Option.bind_none, Option.map_none, Option.or_none]

/-- The one keyword is part of the other. -/
theorem not_infix_of_not_namesKeyword (h : ¬ NamesKeyword gap) (kind : HeaderKind) :
    ¬ kind.text.toList <:+: gap := by
  intro hkind
  have hpart : "module".toList <:+: kind.text.toList := by
    cases kind with
    | main => exact List.infix_refl _
    | sub => exact ⟨"sub".toList, [], by decide⟩
  exact h (hpart.trans hkind)

/-- A keyword at the beginning of a gap would be part of the gap, as the text behind ends it. -/
theorem not_prefix_append (h : ¬ NamesKeyword gap) (hafter : NoKeyword after)
    (kind : HeaderKind) : ¬ kind.text.toList <+: gap ++ after := by
  intro hprefix
  have hin := prefix_of_prefix_append hprefix fun c hc => hafter.head_notMem c hc kind
  exact not_infix_of_not_namesKeyword h kind hin.isInfix

/-- Neither does a keyword follow the blanks of a gap. -/
theorem not_prefix_trimStart_append (h : ¬ NamesKeyword gap) (hafter : NoKeyword after)
    (kind : HeaderKind) : ¬ kind.text.toList <+: Text.trimStart (gap ++ after) := by
  rw [Text.trimStart, List.dropWhile_append]
  split
  · exact hafter.not_keyword kind
  · have hsuffix : gap.dropWhile Text.isBlank <:+ gap := List.dropWhile_suffix _
    exact not_prefix_append (fun hnames => h (hnames.trans hsuffix.isInfix)) hafter kind

/-- No line that starts within a gap is a header. -/
theorem headerWithin_gap (h : ¬ NamesKeyword gap) (hafter : NoKeyword after) :
    headerWithin gap after = none := by
  refine headerWithin_eq_none_iff.2 fun before rest hrest => headerAt_eq_none ?_
  have hpart : rest <:+: gap := ⟨before ++ ['\n'], [], by simp [hrest]⟩
  exact not_prefix_trimStart_append (fun hnames => h (hnames.trans hpart)) hafter

end

/-- The end of a text is no keyword. -/
theorem noKeyword_nil : NoKeyword [] :=
  ⟨fun kind => by cases kind <;> decide, fun _ hc => by cases hc⟩

/-- Nor is a quote the beginning of one. -/
theorem noKeyword_quote {quote : Char} (h : quote = '"' ∨ quote = '\'') (rest : List Char) :
    NoKeyword (quote :: rest) := by
  have hblank : Text.isBlank quote = false := by
    rcases h with rfl | rfl <;> decide
  have hmem : ∀ kind : HeaderKind, quote ∉ kind.text.toList := by
    intro kind
    rcases h with rfl | rfl <;> cases kind <;> decide
  refine ⟨fun kind => ?_, fun c hc => ?_⟩
  · obtain ⟨first, keyword, hfirst⟩ := List.exists_cons_of_ne_nil kind.text_ne_nil
    rw [Text.trimStart_cons_of_not_isBlank hblank, hfirst, List.cons_prefix_cons]
    rintro ⟨rfl, -⟩
    exact hmem kind (hfirst ▸ List.mem_cons_self)
  · obtain rfl := Option.some.inj hc
    exact hmem

/-- A blank ends what stands before it, and is left aside. -/
theorem noKeyword_blank {rest : List Char}
    (h : ∀ kind : HeaderKind, ¬ kind.text.toList <+: Text.trimStart rest) :
    NoKeyword (' ' :: rest) := by
  refine ⟨h, fun c hc kind => ?_⟩
  obtain rfl := Option.some.inj hc
  cases kind <;> decide

/-! ### Texts whose gaps name no keyword -/

/-- A string of a text: its quote, what it says, and the text behind it. -/
structure StringPlace where
  /-- the quote -/
  quote : Char
  /-- the text between the quotes -/
  body : List Char
  /-- the text behind the string -/
  after : List Char

/-- The first header at the beginning of a line that starts within the string. Its name may be read
from behind the string. -/
def StringPlace.header? (s : StringPlace) : Option Header :=
  headerWithin s.body (s.quote :: stripComments s.after)

/-- The token with the text behind it, if it is a string. -/
def Token.place? (after : List Char) : Token → Option StringPlace
  | double body _ => some ⟨'"', body, after⟩
  | single body _ => some ⟨'\'', body, after⟩
  | _ => none

namespace Token

variable {after : List Char}

/-- Without comments, a token starts with no keyword and is part of none. -/
theorem noKeyword_append (t : Token)
    (h : ∀ kind : HeaderKind, ¬ kind.text.toList <+: Text.trimStart (stripComments after)) :
    NoKeyword (t.piece.withoutComment ++ stripComments after) := by
  cases t with
  | double => exact noKeyword_quote (Or.inl rfl) _
  | single => exact noKeyword_quote (Or.inr rfl) _
  | block => exact noKeyword_blank h
  | line => exact noKeyword_blank h

/-- The lines that start within a token are those of a string. -/
theorem headerInLaterLine_token (t : Token) :
    headerInLaterLine (t.piece.withoutComment ++ stripComments after) =
      ((t.place? after).bind StringPlace.header?).or (headerInLaterLine (stripComments after)) := by
  cases t with
  | double body =>
    have hlines := headerInLaterLine_append body ('"' :: stripComments after)
    simpa [piece, Piece.withoutComment, Piece.written, headerInLaterLine, place?,
      StringPlace.header?] using hlines
  | single body =>
    have hlines := headerInLaterLine_append body ('\'' :: stripComments after)
    simpa [piece, Piece.withoutComment, Piece.written, headerInLaterLine, place?,
      StringPlace.header?] using hlines
  | block => rfl
  | line => rfl

end Token

namespace Tokenized

/-- The gaps of a text. -/
def gaps {cs : List Char} : Tokenized cs → List (List Char)
  | last gap _ => [gap]
  | cons gap _ rest _ _ => gap :: rest.gaps

/-- The strings of a text, in order. -/
def strings {cs : List Char} : Tokenized cs → List StringPlace
  | last .. => []
  | @cons _ t after rest _ _ => (t.place? after).toList ++ rest.strings

/-- Without comments, a text is its gap, its token and what follows, without comments. -/
theorem stripComments_cons {gap after : List Char} {t : Token}
    (hgap : opensNothing gap (t.written ++ after) = true) (hends : t.EndsBefore after) :
    stripComments (gap ++ (t.written ++ after)) =
      gap ++ (t.piece.withoutComment ++ stripComments after) := by
  rw [stripComments_gap_append hgap, Token.stripComments_append hends]

/-- Without tokens, a text is as it was. -/
theorem stripComments_last {gap : List Char} (hgap : opensNothing gap [] = true) :
    stripComments gap = gap := by
  have hstrip := stripComments_gap_append hgap
  rwa [stripComments_nil, List.append_nil] at hstrip

variable {cs : List Char} {d : Tokenized cs}

/-- **No header starts a text** whose gaps name no keyword: neither a keyword that a comment divides
nor one that a string begins is one. -/
theorem not_keyword_stripComments (h : ∀ gap ∈ d.gaps, ¬ NamesKeyword gap) (kind : HeaderKind) :
    ¬ kind.text.toList <+: Text.trimStart (stripComments cs) := by
  induction d generalizing kind with
  | last gap hgap =>
    rw [stripComments_last hgap, ← List.append_nil gap]
    exact not_prefix_trimStart_append (h gap List.mem_cons_self) noKeyword_nil kind
  | cons gap t rest hgap hends ih =>
    rw [stripComments_cons hgap hends]
    refine not_prefix_trimStart_append (h gap List.mem_cons_self) (t.noKeyword_append ?_) kind
    exact ih fun gap hmem => h gap (List.mem_cons_of_mem _ hmem)

/-- **Lines start with headers within strings only**, if the gaps name no keyword. -/
theorem headerInLaterLine_stripComments (h : ∀ gap ∈ d.gaps, ¬ NamesKeyword gap) :
    headerInLaterLine (stripComments cs) = d.strings.findSome? StringPlace.header? := by
  induction d with
  | last gap hgap =>
    have hlines := headerInLaterLine_append gap []
    rw [List.append_nil, headerWithin_gap (h gap List.mem_cons_self) noKeyword_nil] at hlines
    rw [stripComments_last hgap, hlines]
    rfl
  | cons gap t rest hgap hends ih =>
    have hrest : ∀ gap ∈ rest.gaps, ¬ NamesKeyword gap :=
      fun gap hmem => h gap (List.mem_cons_of_mem _ hmem)
    have hstart := t.noKeyword_append fun kind => not_keyword_stripComments hrest kind
    rw [stripComments_cons hgap hends, headerInLaterLine_append,
      headerWithin_gap (h gap List.mem_cons_self) hstart, Option.none_or,
      t.headerInLaterLine_token, ih hrest, strings, List.findSome?_append]
    congr 1
    cases t.place? _ <;> simp

/-- **Headers are found in strings and nowhere else**, if the gaps name no keyword. -/
theorem header?_eq_findSome?_strings (h : ∀ gap ∈ d.gaps, ¬ NamesKeyword gap) :
    header? d.text = d.strings.findSome? StringPlace.header? := by
  rw [header?, text, String.toList_ofList, headerInLines,
    headerAt_eq_none (not_keyword_stripComments h), Option.none_or,
    headerInLaterLine_stripComments h]

end Tokenized

/-- **Where a header is found** in a text whose gaps name no keyword: it is the first one that a string
shows. There is none exactly if no line of a string, but its first, goes on like a header; a document
read from such a text is named after its file. -/
theorem header?_only_in_strings {cs : List Char} (d : Tokenized cs)
    (h : ∀ gap ∈ d.gaps, ¬ NamesKeyword gap) :
    header? d.text = d.strings.findSome? StringPlace.header? ∧
    (header? d.text = none ↔
      ∀ s ∈ d.strings, ∀ before rest, s.body = before ++ '\n' :: rest →
        headerAt (rest ++ s.quote :: stripComments s.after) = none) ∧
    ∀ (tree : FileTree) (path : Path), tree.readText path = .ok d.text → header? d.text = none →
      ∃ document, SourceDocument.read tree path = .ok document ∧
        document.name = SourceDocument.nameOfFile path ∧ document.kind = none := by
  have hfound := Tokenized.header?_eq_findSome?_strings h
  refine ⟨hfound, ?_, fun tree path htext hnone => ?_⟩
  · rw [hfound, List.findSome?_eq_none_iff]
    exact forall₂_congr fun s _ => headerWithin_eq_none_iff
  · refine ⟨SourceDocument.ofText path d.text, ?_, ?_, ?_⟩
    · rw [SourceDocument.read, htext]
      rfl
    · rw [SourceDocument.ofText, hnone]
      rfl
    · rw [SourceDocument.ofText, hnone]
      rfl

/-- A text in which strings and comments name keywords, and none is a header. -/
def mentioning :=
  Tokenized.cons "cite ".toList (.double "module a\n the module b".toList (by decide +kernel))
    (.cons "; mod".toList (.block "\nmodule c\n".toList (by decide +kernel))
      (.cons "ule d; ".toList (.single "\n\tsubmodules".toList (by decide +kernel))
        (.cons " ".toList (.line "module e".toList (by decide +kernel)) (.last "\n".toList rfl) rfl
          (Or.inr ⟨_, rfl⟩)) rfl trivial) rfl trivial) rfl trivial

/-- None of them is taken for one. -/
theorem header?_only_in_strings_mentioning :
    (∀ gap ∈ mentioning.gaps, ¬ NamesKeyword gap) ∧
    header? ("cite \"module a\n the module b\"; mod/*\nmodule c\n*/ule d; " ++
      "'\n\tsubmodules' //module e\n") = none := by
  have hgaps : ∀ gap ∈ mentioning.gaps, ¬ NamesKeyword gap := by
    decide +kernel
  have htext : mentioning.text = "cite \"module a\n the module b\"; mod/*\nmodule c\n*/ule d; " ++
      "'\n\tsubmodules' //module e\n" := by
    decide +kernel
  obtain ⟨hfound, -⟩ := header?_only_in_strings mentioning hgaps
  rw [htext] at hfound
  refine ⟨hgaps, hfound.trans ?_⟩
  decide +kernel

/-- A description with a header in its second line. -/
def describing :=
  Tokenized.cons "description ".toList (.double "\nmodule m".toList (by decide +kernel))
    (.last ";".toList rfl) rfl trivial

/-- **A header can be read out of a string**, though no gap of the text names a keyword. -/
theorem exists_header_in_string :
    (∀ gap ∈ describing.gaps, ¬ NamesKeyword gap) ∧
    describing.text = "description \"\nmodule m\";" ∧
    header? "description \"\nmodule m\";" = some ⟨.main, "m"⟩ := by
  refine ⟨?_, ?_, ?_⟩
  · decide +kernel
  · decide +kernel
  · cbv

end SchemaAssembly.Source
