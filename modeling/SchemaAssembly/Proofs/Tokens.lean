import SchemaAssembly.Proofs.Headers

/-!
# Gaps and tokens

A text made up of gaps and complete tokens: quoted strings and comments, and between them whatever
opens neither. `Tokenized` is such a division of a text, and it is the one that cutting the text finds
(`Tokenized.pieces_eq`): what stands within a token never moves the tokens behind it.

So documents that differ only in what their comments say, and in what their strings say where that is
no date, have the same revision (`revision?_eq_of_alike`).
-/

namespace SchemaAssembly.Source

/-- A word at the beginning of two parts lies in the first of them, if the second does not go on with
it. -/
theorem prefix_of_prefix_append {word front after : List Char} (h : word <+: front ++ after)
    (hafter : ∀ c ∈ after.head?, c ∉ word) : word <+: front := by
  rcases List.prefix_or_prefix_of_prefix h (List.prefix_append front after) with hin | ⟨back, rfl⟩
  · exact hin
  · rw [List.prefix_append_right_inj] at h
    cases back with
    | nil => rw [List.append_nil]
    | cons c back =>
      obtain ⟨rest, rfl⟩ := h
      exact (hafter c rfl (List.mem_append_right front List.mem_cons_self)).elim

/-! ### Tokens -/

/-- Whether a text can stand between double quotes: quotes and backslashes in it are escaped. -/
def isEscaped : List Char → Bool
  | [] => true
  | '\\' :: _ :: rest => isEscaped rest
  | c :: rest => c != '"' && c != '\\' && isEscaped rest

/-- An escaped text is closed by the next double quote. -/
theorem closeDouble_of_isEscaped {body : List Char} (h : isEscaped body = true)
    (rest : List Char) : closeDouble (body ++ '"' :: rest) = some (body ++ ['"'], rest) := by
  fun_induction isEscaped body with
  | case1 => rfl
  | case2 c body ih =>
    rw [List.cons_append, List.cons_append, closeDouble, ih h]
    rfl
  | case3 c body hpair ih =>
    rw [Bool.and_eq_true, Bool.and_eq_true, bne_iff_ne, bne_iff_ne] at h
    obtain ⟨⟨hquote, hslash⟩, hbody⟩ := h
    rw [List.cons_append, closeDouble, ih hbody]
    · rfl
    · exact hquote
    · exact fun _ _ hc _ => hslash hc
    · exact fun hc _ => hslash hc

/-- A string that says no date is emptied. -/
theorem Piece.withoutString_of_not_isDate {quote : Char} {body : List Char}
    (h : isDate (Text.trimChars body) = false) :
    (Piece.quoted quote body).withoutString = ['"', '"'] :=
  if_neg (by rw [h]; exact Bool.false_ne_true)

/-- A complete token. -/
inductive Token where
  /-- a double-quoted string -/
  | double (body : List Char) (escaped : isEscaped body = true)
  /-- a single-quoted string -/
  | single (body : List Char) (ends_once : '\'' ∉ body)
  /-- a block comment, with what stands between its markers -/
  | block (body : List Char) (ends_once : ¬ ['*', '/'] <:+: body)
  /-- a line comment, without the end of its line -/
  | line (body : List Char) (ends_once : '\n' ∉ body)

namespace Token

/-- The piece that a token is. -/
def piece : Token → Piece
  | double body _ => .quoted '"' body
  | single body _ => .quoted '\'' body
  | block body _ => .comment ('/' :: '*' :: body ++ ['*', '/'])
  | line body _ => .comment ('/' :: '/' :: body)

/-- The token as it is written. -/
def written (t : Token) : List Char :=
  t.piece.written

/-- Whether a token is over where the text goes on. A line comment is over at the end of a line only,
any other token everywhere. -/
def EndsBefore (after : List Char) : Token → Prop
  | line .. => EndsLine after
  | _ => True

/-- **A token is a piece of its own.** -/
theorem pieces_append {t : Token} {after : List Char} (h : t.EndsBefore after) :
    pieces (t.written ++ after) = t.piece :: pieces after := by
  cases t with
  | double body hbody =>
    have hcut := pieces_cons_of_starts (.double (closeDouble_of_isEscaped hbody after))
    simpa [written, piece, Piece.written] using hcut
  | single body hbody =>
    have hstarts : Piece.Starts '\'' (body ++ '\'' :: after) (.quoted '\'' body) after := .single hbody
    have hcut := pieces_cons_of_starts hstarts
    simpa [written, piece, Piece.written] using hcut
  | block body hbody =>
    have hclose := closeBlock_of_not_infix hbody after
    have hcut := pieces_cons_of_starts (.block hclose)
    simpa [written, piece, Piece.written] using hcut
  | line body hbody => exact pieces_cons_of_starts (.line hbody h)

/-- A token is dealt with on its own when comments are taken out. -/
theorem stripComments_append {t : Token} {after : List Char} (h : t.EndsBefore after) :
    stripComments (t.written ++ after) = t.piece.withoutComment ++ stripComments after := by
  rw [stripComments, pieces_append h, List.flatMap_cons, ← stripComments]

/-- So it is when strings are taken out. -/
theorem stripStrings_append {t : Token} {after : List Char} (h : t.EndsBefore after) :
    stripStrings (t.written ++ after) = t.piece.withoutString ++ stripStrings after := by
  rw [stripStrings, pieces_append h, List.flatMap_cons, ← stripStrings]

/-- **Tokens that are alike**: the same token, two comments of one kind, or two strings of one kind
neither of which says a date. -/
inductive Alike : Token → Token → Prop
  /-- the same token -/
  | same (t : Token) : Alike t t
  /-- double-quoted strings that say no date -/
  | double {body body' : List Char} (escaped : isEscaped body = true)
    (escaped' : isEscaped body' = true) : isDate (Text.trimChars body) = false →
    isDate (Text.trimChars body') = false → Alike (.double body escaped) (.double body' escaped')
  /-- single-quoted strings that say no date -/
  | single {body body' : List Char} (ends_once : '\'' ∉ body) (ends_once' : '\'' ∉ body') :
    isDate (Text.trimChars body) = false → isDate (Text.trimChars body') = false →
    Alike (.single body ends_once) (.single body' ends_once')
  /-- block comments -/
  | block {body body' : List Char} (ends_once : ¬ ['*', '/'] <:+: body)
    (ends_once' : ¬ ['*', '/'] <:+: body') : Alike (.block body ends_once) (.block body' ends_once')
  /-- line comments -/
  | line {body body' : List Char} (ends_once : '\n' ∉ body) (ends_once' : '\n' ∉ body') :
    Alike (.line body ends_once) (.line body' ends_once')

/-- Without strings, tokens that are alike are the same. -/
theorem Alike.withoutString_eq {t t' : Token} (h : t.Alike t') :
    t.piece.withoutString = t'.piece.withoutString := by
  cases h with
  | same => rfl
  | double _ _ hbody hbody' =>
    rw [piece, piece, Piece.withoutString_of_not_isDate hbody,
      Piece.withoutString_of_not_isDate hbody']
  | single _ _ hbody hbody' =>
    rw [piece, piece, Piece.withoutString_of_not_isDate hbody,
      Piece.withoutString_of_not_isDate hbody']
  | block => rfl
  | line => rfl

end Token

/-! ### Gaps -/

/-- Whether a slash would open a comment before the text. -/
def completesMarker (cs : List Char) : Bool :=
  cs.head?.any fun c => c == '/' || c == '*'

/-- Whether nothing is opened in a gap, given the text behind it: there is no quote in the gap, and no
comment starts in it. -/
def opensNothing : List Char → List Char → Bool
  | [], _ => true
  | c :: gap, after =>
    c != '"' && c != '\'' && !(c == '/' && completesMarker (gap ++ after)) && opensNothing gap after

/-- **A gap stays in single characters.** -/
theorem pieces_gap_append {gap after : List Char} (h : opensNothing gap after = true) :
    pieces (gap ++ after) = gap.map Piece.plain ++ pieces after := by
  induction gap with
  | nil => rfl
  | cons c gap ih =>
    simp only [opensNothing, Bool.and_eq_true, bne_iff_ne, Bool.not_eq_true',
      Bool.and_eq_false_imp, beq_iff_eq] at h
    obtain ⟨⟨⟨hdouble, hsingle⟩, hmarker⟩, hgap⟩ := h
    have hstarts : Piece.Starts c (gap ++ after) (.plain c) (gap ++ after) := by
      by_cases hslash : c = '/'
      · subst hslash
        have hmarker := hmarker rfl
        refine .slash (fun body hbody => ?_) fun body hbody => ?_
        · rw [hbody] at hmarker
          cases hmarker
        · rw [hbody] at hmarker
          cases hmarker
      · exact .other hdouble hsingle hslash
    rw [List.cons_append, pieces_cons_of_starts hstarts, ih hgap, List.map_cons, List.cons_append]

/-- A gap stays as it is when comments are taken out. -/
theorem stripComments_gap_append {gap after : List Char} (h : opensNothing gap after = true) :
    stripComments (gap ++ after) = gap ++ stripComments after := by
  rw [stripComments, pieces_gap_append h, List.flatMap_append, List.flatMap_map, ← stripComments]
  exact congrArg (· ++ stripComments after) (List.flatMap_singleton' gap)

/-- It also stays when strings are taken out. -/
theorem stripStrings_gap_append {gap after : List Char} (h : opensNothing gap after = true) :
    stripStrings (gap ++ after) = gap ++ stripStrings after := by
  rw [stripStrings, pieces_gap_append h, List.flatMap_append, List.flatMap_map, ← stripStrings]
  exact congrArg (· ++ stripStrings after) (List.flatMap_singleton' gap)

/-- Characters that open nothing are a gap, whatever follows them. -/
theorem opensNothing_of_forall {gap : List Char} (h : ∀ c ∈ gap, c ≠ '"' ∧ c ≠ '\'' ∧ c ≠ '/')
    (after : List Char) : opensNothing gap after = true := by
  induction gap with
  | nil => rfl
  | cons c gap ih =>
    obtain ⟨hdouble, hsingle, hslash⟩ := h c List.mem_cons_self
    rw [opensNothing, bne_iff_ne.2 hdouble, bne_iff_ne.2 hsingle, beq_false_of_ne hslash,
      ih fun d hd => h d (List.mem_cons_of_mem c hd)]
    rfl

/-- A gap before some text is one before more text, unless the gap touches what is added. -/
theorem opensNothing_append {gap after more : List Char} (h : opensNothing gap after = true)
    (hmore : completesMarker more = false) : opensNothing gap (after ++ more) = true := by
  induction gap with
  | nil => rfl
  | cons c gap ih =>
    simp only [opensNothing, Bool.and_eq_true] at h ⊢
    refine ⟨⟨h.1.1, ?_⟩, ih h.2⟩
    have hmarker : completesMarker (gap ++ (after ++ more)) = completesMarker (gap ++ after) ∨
        completesMarker (gap ++ (after ++ more)) = false := by
      rw [← List.append_assoc]
      cases gap ++ after with
      | nil => exact Or.inr hmore
      | cons => exact Or.inl rfl
    rcases hmarker with heq | hnone
    · rw [heq]
      exact h.1.2
    · rw [hnone, Bool.and_false]
      rfl

/-! ### Texts made up of gaps and tokens -/

/-- **A text made up of gaps and tokens**: a gap first, and another one behind each token. Nothing is
opened in a gap, and each token is over where the next gap starts. -/
inductive Tokenized : List Char → Type
  /-- a gap with nothing behind it -/
  | last (gap : List Char) (plain : opensNothing gap [] = true) : Tokenized gap
  /-- a gap, a token, and the text behind it -/
  | cons (gap : List Char) (t : Token) {after : List Char} (rest : Tokenized after)
    (plain : opensNothing gap (t.written ++ after) = true) (ends : t.EndsBefore after) :
    Tokenized (gap ++ (t.written ++ after))

namespace Tokenized

/-- The text. -/
def text {cs : List Char} (_ : Tokenized cs) : String :=
  String.ofList cs

/-- The gaps as single characters, and the tokens. -/
def pieces {cs : List Char} : Tokenized cs → List Piece
  | last gap _ => gap.map .plain
  | cons gap t rest _ _ => gap.map .plain ++ t.piece :: rest.pieces

/-- **There is one way to cut a text**, and these gaps and tokens are it. -/
theorem pieces_eq {cs : List Char} (d : Tokenized cs) : Source.pieces cs = d.pieces := by
  induction d with
  | last gap hgap =>
    have hcut := pieces_gap_append hgap
    rwa [List.append_nil, Source.pieces, List.append_nil] at hcut
  | cons gap t rest hgap hends ih =>
    rw [pieces_gap_append hgap, Token.pieces_append hends, ih, pieces]

/-- **Documents that are alike**: the same gaps, and tokens that are alike between them. -/
inductive Alike : {cs ds : List Char} → Tokenized cs → Tokenized ds → Prop
  /-- the same last gap -/
  | last (gap : List Char) (plain : opensNothing gap [] = true) :
    Alike (.last gap plain) (.last gap plain)
  /-- the same gap, tokens that are alike, and documents that are alike behind them -/
  | cons (gap : List Char) {t t' : Token} {after after' : List Char} {rest : Tokenized after}
    {rest' : Tokenized after'} {plain : opensNothing gap (t.written ++ after) = true}
    {plain' : opensNothing gap (t'.written ++ after') = true} {ends : t.EndsBefore after}
    {ends' : t'.EndsBefore after'} : t.Alike t' → Alike rest rest' →
    Alike (.cons gap t rest plain ends) (.cons gap t' rest' plain' ends')

/-- Without comments and strings, documents that are alike are the same. -/
theorem Alike.withoutStrings_eq {cs ds : List Char} {d : Tokenized cs} {e : Tokenized ds}
    (h : Alike d e) : d.pieces.flatMap Piece.withoutString = e.pieces.flatMap Piece.withoutString := by
  induction h with
  | last => rfl
  | cons gap ht _ ih =>
    rw [pieces, pieces, List.flatMap_append, List.flatMap_append, List.flatMap_cons,
      List.flatMap_cons, ht.withoutString_eq, ih]

/-- The revision is looked for in the gaps, and in the dates that strings say. -/
theorem revision?_text {cs : List Char} (d : Tokenized cs) : revision? d.text =
    greatest? ((revisionsFrom true (d.pieces.flatMap Piece.withoutString)).map String.ofList) := by
  rw [revision?, revisionDates, text, String.toList_ofList, stripStrings, d.pieces_eq]

end Tokenized

/-- **Quoted text and comments have no say in the revision**, unless the text is a date: documents
with the same gaps, and with tokens that are alike between them, have the same revision. -/
theorem revision?_eq_of_alike {cs ds : List Char} {d : Tokenized cs} {e : Tokenized ds}
    (h : d.Alike e) : revision? d.text = revision? e.text := by
  rw [d.revision?_text, e.revision?_text, h.withoutStrings_eq]

/-- A document with a description, a note, a reference and a remark at its end. -/
def remarked (said noted cited remark : List Char) (escaped : isEscaped said = true)
    (note_ends : ¬ ['*', '/'] <:+: noted) (citation_ends : '\'' ∉ cited)
    (remark_ends : '\n' ∉ remark) :=
  Tokenized.cons "module m; description ".toList (.double said escaped)
    (.cons "; ".toList (.block noted note_ends)
      (.cons "reference ".toList (.single cited citation_ends)
        (.cons "; revision 2020-01-01; ".toList (.line remark remark_ends) (.last [] rfl) rfl
          (Or.inl rfl)) rfl trivial) rfl trivial) rfl trivial

/-- Such a document that tells of revisions, with quotes and markers of all kinds. -/
def telling :=
  remarked "\nrevision 2099-01-01; ' \\\" // /*".toList "\"; revision 2098-01-01; //".toList
    " \" */ revision 2097-01-01; ".toList " revision 2096-01-01; ' \" */".toList (by decide +kernel)
    (by decide +kernel) (by decide +kernel) (by decide +kernel)

/-- Such a document that tells nothing. -/
def silent :=
  remarked [] [] [] [] rfl (by decide) List.not_mem_nil List.not_mem_nil

/-- What the one document tells of does not count: it has the revision of the other, which is the one
that both state. -/
theorem revision?_eq_of_alike_telling :
    telling.Alike silent ∧
    revision? ("module m; description \"\nrevision 2099-01-01; ' \\\" // /*\"; " ++
        "/*\"; revision 2098-01-01; //*/reference ' \" */ revision 2097-01-01; '; " ++
        "revision 2020-01-01; // revision 2096-01-01; ' \" */") =
      revision? "module m; description \"\"; /**/reference ''; revision 2020-01-01; //" ∧
    revision? "module m; description \"\"; /**/reference ''; revision 2020-01-01; //" =
      some "2020-01-01" := by
  have halike : telling.Alike silent := by
    refine .cons _ (.double _ _ (by decide +kernel) rfl) ?_
    refine .cons _ (.block _ _) ?_
    refine .cons _ (.single _ _ (by decide +kernel) rfl) ?_
    exact .cons _ (.line _ _) (.last _ rfl)
  have htelling : telling.text =
      "module m; description \"\nrevision 2099-01-01; ' \\\" // /*\"; " ++
        "/*\"; revision 2098-01-01; //*/reference ' \" */ revision 2097-01-01; '; " ++
        "revision 2020-01-01; // revision 2096-01-01; ' \" */" := by
    decide +kernel
  have hsilent : silent.text =
      "module m; description \"\"; /**/reference ''; revision 2020-01-01; //" := by
    decide +kernel
  have hstated : revision? silent.text = some "2020-01-01" := by
    rw [silent.revision?_text]
    decide +kernel
  have hrevision := revision?_eq_of_alike halike
  rw [htelling, hsilent] at hrevision
  rw [hsilent] at hstated
  exact ⟨halike, hrevision, hstated⟩

end SchemaAssembly.Source
