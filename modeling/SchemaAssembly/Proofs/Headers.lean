import Mathlib
import SchemaAssembly.Proofs.Stripping

/-!
# Headers that are found

The other side of `header?`: what a document with a header looks like. It begins with gaps (blanks
and comments), then comes the keyword, then gaps again, and then the name, bare or between quotes.
Whatever a comment says and whatever follows the name, the header is found
(`header?_of_wellFormed`).

Taking comments out leaves a blank or two of every gap and nothing else changes, up to the name
(`stripComments_gaps`, `stripComments_written`); from there the header is read off
(`headerAt_of_blanks`).
-/

namespace SchemaAssembly.Source

/-! ### What a document with a header looks like -/

/-- What may stand before a word and between words. -/
inductive Gap where
  /-- a blank -/
  | blank (c : Char) (isBlank : Text.isBlank c = true)
  /-- a block comment, with what stands between its markers -/
  | block (body : List Char) (ends_once : ¬ ['*', '/'] <:+: body)
  /-- a line comment with the end of its line -/
  | line (body : List Char) (ends_once : '\n' ∉ body)

/-- The gap as it is written. -/
def Gap.written : Gap → List Char
  | blank c _ => [c]
  | block body _ => '/' :: '*' :: (body ++ ['*', '/'])
  | line body _ => '/' :: '/' :: (body ++ ['\n'])

/-- A name that needs no quotes. -/
structure BareName where
  /-- its first character -/
  first : Char
  /-- the characters that follow -/
  rest : List Char
  /-- it starts with a letter or an underscore -/
  starts : first.isAlpha = true ∨ first = '_'
  /-- it goes on with letters, digits, underscores, points and hyphens -/
  continues : ∀ c ∈ rest, c.isAlphanum = true ∨ c = '_' ∨ c = '.' ∨ c = '-'

/-- The characters of a name. -/
def BareName.chars (n : BareName) : List Char :=
  n.first :: n.rest

/-- How a name is written as an argument. -/
inductive NameStyle where
  /-- as it is -/
  | bare
  /-- between quotes, with blanks on both sides -/
  | quoted (quote : Char) (before after : List Char) (is_quote : quote = '"' ∨ quote = '\'')
    (blank : ∀ c ∈ before ++ after, Text.isBlank c = true)

namespace NameStyle

/-- A name written in a style. -/
def written (n : BareName) : NameStyle → List Char
  | bare => n.chars
  | quoted quote before after _ _ => quote :: (before ++ n.chars ++ after ++ [quote])

/-- Whether a name is over where the text goes on: a quoted one always is, a bare one unless it
would go on as well. -/
def EndsBefore (rest : List Char) : NameStyle → Prop
  | bare => ∀ c ∈ rest.head?, continuesName c = false
  | quoted .. => True

end NameStyle

/-! ### What is left of it without comments -/

/-- A block comment is closed by the first end marker. -/
theorem closeBlock_of_not_infix {body : List Char} (h : ¬ ['*', '/'] <:+: body)
    (rest : List Char) : closeBlock (body ++ '*' :: '/' :: rest) = some (body ++ ['*', '/'], rest) := by
  induction body with
  | nil => rfl
  | cons c body ih =>
    have hbody : ¬ ['*', '/'] <:+: body :=
      fun hmark => h (hmark.trans (List.suffix_cons c body).isInfix)
    rw [List.cons_append, closeBlock, ih hbody]
    · rfl
    · -- the next character is one of the body, or the star of the marker
      rintro after rfl heq
      cases body with
      | nil => cases heq
      | cons d body =>
        obtain ⟨rfl, -⟩ := List.cons.inj heq
        exact h ⟨[], body, rfl⟩

/-- A double-quoted string without quotes and backslashes in it is closed by the next quote. -/
theorem closeDouble_of_not_mem {body : List Char} (hquote : '"' ∉ body) (hslash : '\\' ∉ body)
    (rest : List Char) : closeDouble (body ++ '"' :: rest) = some (body ++ ['"'], rest) := by
  induction body with
  | nil => rfl
  | cons c body ih =>
    rw [List.mem_cons, not_or] at hquote hslash
    rw [List.cons_append, closeDouble, ih hquote.2 hslash.2]
    · rfl
    · exact fun hc => hquote.1 hc.symm
    · exact fun _ _ hc _ => hslash.1 hc.symm
    · exact fun hc _ => hslash.1 hc.symm

section

variable {c : Char}

/-- A character of a class is none that the class lacks. -/
theorem ne_of_class {isMember : Char → Bool} {d : Char} (hc : isMember c = true)
    (hd : isMember d = false) : c ≠ d := by
  rintro rfl
  rw [hc] at hd
  cases hd

/-- A blank opens neither a string nor a comment. -/
theorem opens_nothing_of_isBlank (h : Text.isBlank c = true) : c ≠ '"' ∧ c ≠ '\'' ∧ c ≠ '/' :=
  ⟨ne_of_class h (by decide), ne_of_class h (by decide), ne_of_class h (by decide)⟩

/-- Nor does it end a string or escape its end. -/
theorem ends_nothing_of_isBlank (h : Text.isBlank c = true) : c ≠ '"' ∧ c ≠ '\'' ∧ c ≠ '\\' := by
  obtain ⟨hdouble, hsingle, -⟩ := opens_nothing_of_isBlank h
  exact ⟨hdouble, hsingle, ne_of_class h (by decide)⟩

/-- A quoted string that nothing ends before its quote. -/
theorem starts_quoted {inside : List Char} (hc : c = '"' ∨ c = '\'')
    (hinside : ∀ d ∈ inside, d ≠ '"' ∧ d ≠ '\'' ∧ d ≠ '\\') (rest : List Char) :
    Piece.Starts c (inside ++ c :: rest) (.quoted c inside) rest := by
  rcases hc with rfl | rfl
  · exact .double (closeDouble_of_not_mem (fun h => (hinside _ h).1 rfl)
      (fun h => (hinside _ h).2.2 rfl) rest)
  · exact .single fun h => (hinside _ h).2.1 rfl

/-- Characters that open nothing stay as they are. -/
theorem stripComments_append {front : List Char}
    (h : ∀ c ∈ front, c ≠ '"' ∧ c ≠ '\'' ∧ c ≠ '/') (rest : List Char) :
    stripComments (front ++ rest) = front ++ stripComments rest := by
  induction front with
  | nil => rfl
  | cons c front ih =>
    obtain ⟨hdouble, hsingle, hslash⟩ := h c List.mem_cons_self
    rw [List.cons_append, stripComments_cons_of_other _ hdouble hsingle hslash,
      ih fun d hd => h d (List.mem_cons_of_mem c hd), List.cons_append]

end

namespace Gap

/-- What is left of a gap without comments. -/
def left : Gap → List Char
  | blank c _ => [c]
  | block .. => [' ']
  | line .. => [' ', '\n']

theorem left_ne_nil (g : Gap) : g.left ≠ [] := by
  cases g <;> exact List.cons_ne_nil _ _

theorem isBlank_of_mem_left {g : Gap} {c : Char} (h : c ∈ g.left) : Text.isBlank c = true := by
  cases g with
  | blank d hd =>
    obtain rfl := List.mem_singleton.1 h
    exact hd
  | block =>
    obtain rfl := List.mem_singleton.1 h
    decide
  | line =>
    rcases List.mem_cons.1 h with rfl | h
    · decide
    · obtain rfl := List.mem_singleton.1 h
      decide

/-- A gap is a piece of its own, whatever follows it. -/
theorem stripComments_gap (g : Gap) (rest : List Char) :
    stripComments (g.written ++ rest) = g.left ++ stripComments rest := by
  cases g with
  | blank c hc =>
    refine stripComments_append (fun d hd => ?_) rest
    obtain rfl := List.mem_singleton.1 hd
    exact opens_nothing_of_isBlank hc
  | block body hbody =>
    have hclose := closeBlock_of_not_infix hbody rest
    have hstrip := stripComments_cons_of_starts (.block hclose)
    simpa only [written, left, Piece.withoutComment, List.cons_append, List.append_assoc,
      List.nil_append] using hstrip
  | line body hbody =>
    have hstrip := stripComments_cons_of_starts (.line hbody (Or.inr ⟨rest, rfl⟩))
    rw [stripComments_cons_of_other rest (by decide) (by decide) (by decide)] at hstrip
    simpa only [written, left, Piece.withoutComment, List.cons_append, List.append_assoc,
      List.nil_append] using hstrip

end Gap

/-- **Gaps** leave blanks behind. -/
theorem stripComments_gaps (gaps : List Gap) (rest : List Char) :
    stripComments (gaps.flatMap Gap.written ++ rest) =
      gaps.flatMap Gap.left ++ stripComments rest := by
  induction gaps with
  | nil => rfl
  | cons g gaps ih =>
    rw [List.flatMap_cons, List.append_assoc, g.stripComments_gap, ih, List.flatMap_cons,
      List.append_assoc]

/-- A text without comments begins as it did, or with a blank. -/
theorem head?_stripComments {c : Char} {cs : List Char} (h : c ∈ (stripComments cs).head?) :
    c = ' ' ∨ c ∈ cs.head? := by
  cases cs with
  | nil =>
    rw [stripComments_nil] at h
    cases h
  | cons d rest =>
    have hstarts := starts_first d rest
    generalize Piece.first d rest = found at hstarts
    obtain ⟨p, after⟩ := found
    rw [stripComments_cons_of_starts hstarts] at h
    cases hstarts with
    | line => exact Or.inl (Option.some.inj h).symm
    | block => exact Or.inl (Option.some.inj h).symm
    | _ => exact Or.inr h

/-! ### Names -/

/-- What a character of a name is not, and that a name may go on with it. -/
structure InName (c : Char) : Prop where
  /-- it is no blank -/
  not_blank : Text.isBlank c = false
  /-- it is no double quote -/
  ne_double : c ≠ '"'
  /-- it is no single quote -/
  ne_single : c ≠ '\''
  /-- it opens no comment -/
  ne_slash : c ≠ '/'
  /-- it escapes nothing -/
  ne_backslash : c ≠ '\\'
  /-- a name may go on with it -/
  continues : continuesName c = true

theorem inName_of_nameCharacter {c : Char}
    (h : c.isAlphanum = true ∨ c = '_' ∨ c = '.' ∨ c = '-') : InName c := by
  rcases h with h | rfl | rfl | rfl
  · refine ⟨Text.isBlank_of_isAlphanum h, ne_of_class h (by decide), ne_of_class h (by decide),
      ne_of_class h (by decide), ne_of_class h (by decide), ?_⟩
    simp [continuesName, Text.isWord_of_isAlphanum h]
  · constructor <;> decide
  · constructor <;> decide
  · constructor <;> decide

namespace BareName

variable {n : BareName} {c : Char}

theorem inName (h : c ∈ n.chars) : InName c := by
  refine inName_of_nameCharacter ?_
  rcases List.mem_cons.1 h with rfl | h
  · refine n.starts.imp (fun halpha => ?_) Or.inl
    rw [Char.isAlphanum, halpha, Bool.true_or]
  · exact n.continues c h

/-- Neither a name nor the blanks around it hold anything that ends a string. -/
theorem ends_nothing {before after : List Char}
    (h : ∀ c ∈ before ++ after, Text.isBlank c = true) :
    ∀ c ∈ before ++ n.chars ++ after, c ≠ '"' ∧ c ≠ '\'' ∧ c ≠ '\\' := by
  intro c hc
  rw [List.append_assoc, List.mem_append, List.mem_append, or_left_comm] at hc
  rcases hc with hc | hc
  · exact ⟨(inName hc).ne_double, (inName hc).ne_single, (inName hc).ne_backslash⟩
  · exact ends_nothing_of_isBlank (h c (List.mem_append.2 hc))

/-- Blanks around a name do not count. -/
theorem trimChars_append {before after : List Char}
    (h : ∀ c ∈ before ++ after, Text.isBlank c = true) :
    Text.trimChars (before ++ n.chars ++ after) = n.chars := by
  rw [Text.trimChars_append _ (fun c hc => h c (List.mem_append_left after hc))
    (fun c hc => h c (List.mem_append_right before hc))]
  exact Text.trimChars_eq_self fun c hc => (inName hc).not_blank

end BareName

namespace NameStyle

variable {n : BareName} {rest : List Char}

/-- A name stays as it is written when comments are taken out. -/
theorem stripComments_written (n : BareName) (style : NameStyle) (rest : List Char) :
    stripComments (style.written n ++ rest) = style.written n ++ stripComments rest := by
  cases style with
  | bare =>
    exact stripComments_append
      (fun c hc => ⟨(n.inName hc).ne_double, (n.inName hc).ne_single, (n.inName hc).ne_slash⟩) rest
  | quoted quote before after hquote hblank =>
    have hstarts := starts_quoted hquote (n.ends_nothing hblank) rest
    have hstrip := stripComments_cons_of_starts hstarts
    simpa only [written, Piece.withoutComment, Piece.written, List.cons_append, List.append_assoc,
      List.nil_append] using hstrip

/-- **The name is read off** in either style, up to the blanks between its quotes. -/
theorem exists_nameArgument_eq {style : NameStyle} (h : style.EndsBefore rest) :
    ∃ found, nameArgument (style.written n ++ rest) = some found ∧
      Text.trimChars found = n.chars := by
  cases style with
  | bare =>
    have htrim : Text.trimChars ([] ++ n.chars ++ []) = n.chars :=
      n.trimChars_append fun c hc => by cases hc
    rw [List.nil_append, List.append_nil] at htrim
    refine ⟨n.chars, ?_, htrim⟩
    have hfirst := n.inName List.mem_cons_self
    have hstarts : startsName n.first = true := by
      simpa [startsName] using n.starts
    have hrest : rest.takeWhile continuesName = [] := by
      cases rest with
      | nil => rfl
      | cons c rest => exact List.takeWhile_cons_of_neg (by simp [h c rfl])
    have hcontinues : ∀ c ∈ n.rest, continuesName c = true :=
      fun c hc => (n.inName (List.mem_cons_of_mem _ hc)).continues
    rw [written, BareName.chars, List.cons_append, nameArgument, if_pos hstarts,
      List.takeWhile_append_of_pos hcontinues, hrest, List.append_nil]
    · exact hfirst.ne_double
    · exact hfirst.ne_single
  | quoted quote before after hquote hblank =>
    refine ⟨before ++ n.chars ++ after, ?_, n.trimChars_append hblank⟩
    have hinside : ∀ c ∈ before ++ n.chars ++ after, (c != quote) = true := by
      intro c hc
      obtain ⟨hdouble, hsingle, -⟩ := n.ends_nothing hblank c hc
      rcases hquote with rfl | rfl
      · exact bne_iff_ne.2 hdouble
      · exact bne_iff_ne.2 hsingle
    have hfound : quotedName quote (before ++ n.chars ++ after ++ quote :: rest) =
        some (before ++ n.chars ++ after) := by
      rw [quotedName, List.takeWhile_append_of_pos hinside,
        List.takeWhile_cons_of_neg (by simp), List.append_nil, if_neg]
      simp [BareName.chars]
    rw [← hfound]
    rcases hquote with rfl | rfl
    · simp [written, nameArgument]
    · simp [written, nameArgument]

end NameStyle

/-! ### Reading a header -/

section

variable {blanks cs : List Char}

/-- Blanks before a text that starts with none. -/
theorem trimStart_append (hblanks : ∀ c ∈ blanks, Text.isBlank c = true)
    (hcs : ∀ c ∈ cs.head?, Text.isBlank c = false) : Text.trimStart (blanks ++ cs) = cs := by
  rw [Text.trimStart, List.dropWhile_append_of_pos hblanks]
  cases cs with
  | nil => rfl
  | cons c cs => exact Text.trimStart_cons_of_not_isBlank (hcs c rfl)

/-- An argument is looked for behind the blanks that follow a keyword. -/
theorem nameAfterBlanks_append (hne : blanks ≠ []) (hblanks : ∀ c ∈ blanks, Text.isBlank c = true)
    (hcs : ∀ c ∈ cs.head?, Text.isBlank c = false) :
    nameAfterBlanks (blanks ++ cs) = nameArgument cs := by
  have hlength := List.length_pos_iff.2 hne
  rw [nameAfterBlanks, trimStart_append hblanks hcs, if_pos]
  rw [List.length_append]
  omega

/-- What follows a keyword that is there. -/
theorem afterKeyword_append (keyword cs : List Char) :
    afterKeyword keyword (keyword ++ cs) = some cs := by
  rw [afterKeyword, if_pos (List.isPrefixOf_iff_prefix.2 (List.prefix_append keyword cs)),
    List.drop_left]

/-- **A header is read off** behind blanks, if its keyword is followed by blanks and a name. -/
theorem headerAt_of_blanks {between found : List Char} (kind : HeaderKind)
    (hblanks : ∀ c ∈ blanks, Text.isBlank c = true) (hne : between ≠ [])
    (hbetween : ∀ c ∈ between, Text.isBlank c = true)
    (hcs : ∀ c ∈ cs.head?, Text.isBlank c = false) (hname : nameArgument cs = some found) :
    headerAt (blanks ++ (kind.text.toList ++ (between ++ cs))) =
      some ⟨kind, String.ofList (Text.trimChars found)⟩ := by
  have hargument := (nameAfterBlanks_append hne hbetween hcs).trans hname
  have hkeyword : ∀ c ∈ (kind.text.toList ++ (between ++ cs)).head?, Text.isBlank c = false := by
    intro c hc
    cases kind with
    | main =>
      obtain rfl := Option.some.inj hc
      decide
    | sub =>
      obtain rfl := Option.some.inj hc
      decide
  simp only [headerAt, trimStart_append hblanks hkeyword]
  cases kind with
  | main => rw [afterKeyword_append, Option.bind_some, hargument, Option.map_some, Option.some_or]
  | sub =>
    have hmain : afterKeyword HeaderKind.main.text.toList
        (HeaderKind.sub.text.toList ++ (between ++ cs)) = none := rfl
    rw [hmain, afterKeyword_append, Option.bind_none, Option.map_none, Option.none_or,
      Option.bind_some, hargument, Option.map_some]

end

/-- What is left of gaps is blank. -/
theorem isBlank_of_mem_flatMap_left (gaps : List Gap) :
    ∀ c ∈ gaps.flatMap Gap.left, Text.isBlank c = true := by
  intro c hc
  obtain ⟨g, -, hc⟩ := List.mem_flatMap.1 hc
  exact Gap.isBlank_of_mem_left hc

/-- A written name starts with no blank. -/
theorem NameStyle.not_isBlank_of_mem_head? {n : BareName} {style : NameStyle} {rest : List Char} :
    ∀ c ∈ (style.written n ++ rest).head?, Text.isBlank c = false := by
  intro c hc
  cases style with
  | bare =>
    obtain rfl := Option.some.inj hc
    exact (n.inName List.mem_cons_self).not_blank
  | quoted quote before after hquote _ =>
    obtain rfl := Option.some.inj hc
    rcases hquote with rfl | rfl
    · decide
    · decide

/-- A name that is over where the text goes on is over there without comments, too. -/
theorem NameStyle.EndsBefore.stripComments {style : NameStyle} {rest : List Char}
    (h : style.EndsBefore rest) : style.EndsBefore (stripComments rest) := by
  cases style with
  | bare =>
    intro c hc
    rcases head?_stripComments hc with rfl | hc
    · decide
    · exact h c hc
  | quoted => trivial

/-- **Every well-formed header is found**: after any gaps, a keyword, at least one gap, and a name in
either style; comments may say what they like, and so may the text behind the name, unless the name
goes on there. -/
theorem header?_of_wellFormed (leading : List Gap) (kind : HeaderKind) (gaps : List Gap)
    (n : BareName) (style : NameStyle) (rest : List Char) (hgaps : gaps ≠ [])
    (hrest : style.EndsBefore rest) :
    header? (String.ofList (leading.flatMap Gap.written ++ kind.text.toList ++
        gaps.flatMap Gap.written ++ style.written n ++ rest)) =
      some ⟨kind, String.ofList n.chars⟩ := by
  have hkeyword : ∀ c ∈ kind.text.toList, c ≠ '"' ∧ c ≠ '\'' ∧ c ≠ '/' := by
    cases kind with
    | main => simp [HeaderKind.text]
    | sub => simp [HeaderKind.text]
  have hne : gaps.flatMap Gap.left ≠ [] := by
    obtain ⟨g, gaps, rfl⟩ := List.exists_cons_of_ne_nil hgaps
    exact List.append_ne_nil_of_left_ne_nil g.left_ne_nil _
  obtain ⟨found, hfound, htrim⟩ := NameStyle.exists_nameArgument_eq (n := n) hrest.stripComments
  have hheader := headerAt_of_blanks kind (isBlank_of_mem_flatMap_left leading) hne
    (isBlank_of_mem_flatMap_left gaps) NameStyle.not_isBlank_of_mem_head? hfound
  rw [header?, String.toList_ofList, List.append_assoc, List.append_assoc, List.append_assoc,
    stripComments_gaps, stripComments_append hkeyword, stripComments_gaps,
    NameStyle.stripComments_written, headerInLines, hheader, Option.some_or, htrim]

/-- Comments that hold quotes, markers and headers of their own. -/
def commentedGaps : List Gap :=
  [.block " ' module x; // ".toList (by decide +kernel),
    .line " \"module y /*".toList (by decide +kernel), .blank '\t' (by decide)]

/-- A name with a point in it. -/
def dottedName : BareName :=
  ⟨'m', ['.', 'n'], by decide, by simp⟩

/-- Behind those comments a header is found whose keyword and name have a comment between them, and
whose name is followed by a comment that nothing closes. -/
theorem header?_of_wellFormed_commented :
    [Gap.block [] (by decide)] ≠ [] ∧ NameStyle.bare.EndsBefore "/*\";".toList ∧
    header? "/* ' module x; // */// \"module y /*\n\tsubmodule/**/m.n/*\";" =
      some ⟨.sub, "m.n"⟩ := by
  have hends : NameStyle.bare.EndsBefore "/*\";".toList := by
    intro c hc
    obtain rfl := Option.some.inj hc
    decide +kernel
  have hheader := header?_of_wellFormed commentedGaps .sub [.block [] (by decide)] dottedName .bare
    "/*\";".toList (List.cons_ne_nil _ _) hends
  have htext : String.ofList (commentedGaps.flatMap Gap.written ++ HeaderKind.sub.text.toList ++
      [Gap.block [] (by decide)].flatMap Gap.written ++ NameStyle.bare.written dottedName ++
      "/*\";".toList) = "/* ' module x; // */// \"module y /*\n\tsubmodule/**/m.n/*\";" := by
    decide +kernel
  rw [htext] at hheader
  exact ⟨List.cons_ne_nil _ _, hends, hheader⟩

end SchemaAssembly.Source
