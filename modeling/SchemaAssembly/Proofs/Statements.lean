import SchemaAssembly.Proofs.RevisionDates

/-!
# Statements and their revisions

What a schema document consists of: statements, each a keyword and an argument, if it has one, with a
semicolon or a block of further statements behind them, and gaps between all of these. The search for
revisions knows nothing of this. It looks for a word in the text without comments and strings, and the
statements whose dates it reads are not only those whose keyword is that word.

- `Statements.revisionsFrom_written`: the dates that are read, statement by statement;
- `revision?_latest_read`: the revision is the latest of them, and when it is the latest of the dates
  that revisions give;
- `revision?_of_extension`: a document with a later date in a statement of another module.
-/

namespace SchemaAssembly.Source

/-! ### What a document consists of -/

/-- The keyword of a statement. -/
structure Keyword where
  /-- the name before the colon, if there is one -/
  qualifier : Option BareName
  /-- the name of the statement -/
  name : BareName

/-- The characters of a keyword. -/
def Keyword.chars (k : Keyword) : List Char :=
  match k.qualifier with
  | none => k.name.chars
  | some q => q.chars ++ ':' :: k.name.chars

/-- The characters that structure a document. -/
def punctuation : List Char :=
  [';', '{', '}']

/-- Whether a bare argument may hold a character: it is neither blank nor punctuation. -/
def isUnbroken (c : Char) : Bool :=
  !Text.isBlank c && !punctuation.contains c

/-- The argument of a statement. -/
inductive Argument where
  /-- without quotes -/
  | bare (chars : List Char) (unbroken : chars.all isUnbroken = true) (ne_nil : chars ≠ [])
  /-- between double quotes -/
  | double (body : List Char) (escaped : isEscaped body = true)
  /-- between single quotes -/
  | single (body : List Char) (ends_once : '\'' ∉ body)

namespace Argument

/-- The argument as it is written. -/
def written : Argument → List Char
  | bare chars _ _ => chars
  | double body h => (Token.double body h).written
  | single body h => (Token.single body h).written

/-- Whether an argument is over where the text goes on: a bare one unless it would open a string or a
comment. -/
def EndsBefore (after : List Char) : Argument → Prop
  | bare chars _ _ => opensNothing chars after = true
  | _ => True

/-- **The date that an argument is**, blanks between quotes left aside. -/
def date? : Argument → Option (List Char)
  | bare chars _ _ => if isDate chars then some chars else none
  | double body _ | single body _ =>
    if isDate (Text.trimChars body) then some (Text.trimChars body) else none

/-- **The date that is read** from an argument. A bare one may go on behind it. -/
def dateRead? : Argument → Option (List Char)
  | bare chars _ _ => leadingDate? chars
  | argument => argument.date?

end Argument

/-- An argument, and what stands before it. -/
structure Given where
  /-- the gaps between a keyword and the argument -/
  between : List Gap
  /-- the argument -/
  argument : Argument
  /-- there is a gap -/
  between_ne_nil : between ≠ []

/-- What a statement begins with. -/
structure Head where
  /-- the gaps before it -/
  leading : List Gap
  /-- its keyword -/
  keyword : Keyword
  /-- its argument -/
  given : Option Given
  /-- the gaps behind it -/
  trailing : List Gap
  /-- the argument is over there -/
  ends : ∀ g ∈ given, g.argument.EndsBefore (trailing.flatMap Gap.written)

/-- The head of a statement as it is written. -/
def Head.written (h : Head) : List Char :=
  h.leading.flatMap Gap.written ++ (h.keyword.chars ++
    (h.given.elim [] (fun g => g.between.flatMap Gap.written ++ g.argument.written) ++
      h.trailing.flatMap Gap.written))

/-- **Statements** in a row. -/
inductive Statements where
  /-- no statement more -/
  | nil
  /-- a statement that a semicolon ends, and what follows it -/
  | simple (head : Head) (rest : Statements)
  /-- a statement with a block, the gaps at the end of the block, and what follows it -/
  | block (head : Head) (inner : Statements) (closing : List Gap) (rest : Statements)

namespace Statements

/-- Statements as they are written. -/
def written : Statements → List Char
  | nil => []
  | simple head rest => head.written ++ ';' :: rest.written
  | block head inner closing rest =>
    head.written ++ '{' :: (inner.written ++ (closing.flatMap Gap.written ++ '}' :: rest.written))

/-- All statements, those in blocks included. -/
def heads : Statements → List Head
  | nil => []
  | simple head rest => head :: rest.heads
  | block head inner _ rest => head :: (inner.heads ++ rest.heads)

end Statements

/-- **A well-formed document**: statements, and gaps at the end. -/
structure WellFormed where
  /-- the statements -/
  statements : Statements
  /-- the gaps behind them -/
  closing : List Gap
  /-- a line comment at the very end, if there is one -/
  remark : Option (List Char)
  /-- it is one line -/
  remark_ends : ∀ body ∈ remark, '\n' ∉ body

namespace WellFormed

/-- The characters of a document. -/
def chars (d : WellFormed) : List Char :=
  d.statements.written ++ (d.closing.flatMap Gap.written ++ d.remark.elim [] ('/' :: '/' :: ·))

/-- The text of a document. -/
def text (d : WellFormed) : String :=
  String.ofList d.chars

end WellFormed

/-! ### Which dates are given, and which are read -/

/-- Whether the search takes a keyword for that of a revision: if it is that word, or ends in it behind
a character that no word holds. -/
def Keyword.isTaken (k : Keyword) : Bool :=
  k.chars == revisionKeyword ||
    [':', '-', '.'].any fun c => (c :: revisionKeyword).isSuffixOf k.chars

namespace Head

/-- **The date that a revision gives.** Any other statement gives none. -/
def date? (h : Head) : Option (List Char) :=
  if h.keyword.chars = revisionKeyword then h.given.bind (·.argument.date?) else none

/-- **The date that is read** from a statement. -/
def dateRead? (h : Head) : Option (List Char) :=
  if h.keyword.isTaken then h.given.bind (·.argument.dateRead?) else none

end Head

namespace WellFormed

/-- The dates that the revisions of a document give. -/
def dates (d : WellFormed) : List String :=
  (d.statements.heads.filterMap Head.date?).map String.ofList

/-- The dates that are read from a document. -/
def datesRead (d : WellFormed) : List String :=
  (d.statements.heads.filterMap Head.dateRead?).map String.ofList

end WellFormed

/-! ### Documents without comments and strings -/

theorem stripStrings_nil : stripStrings [] = [] := by
  rw [stripStrings, pieces, List.flatMap_nil]

/-- Gaps leave blanks behind. -/
theorem stripStrings_gaps (gaps : List Gap) (after : List Char) :
    stripStrings (gaps.flatMap Gap.written ++ after) =
      gaps.flatMap Gap.left ++ stripStrings after := by
  have hblanks : opensNothing (gaps.flatMap Gap.left) (stripComments after) = true :=
    opensNothing_of_forall
      (fun c hc => opens_nothing_of_isBlank (isBlank_of_mem_flatMap_left gaps c hc)) _
  rw [← stripStrings_stripComments, stripComments_gaps, stripStrings_gap_append hblanks,
    stripStrings_stripComments]

section

variable {c : Char}

/-- **What separates** the parts of a document: it breaks off words and dates, and is part of nothing
else. -/
structure Separates (c : Char) : Prop extends Breaks c where
  /-- it is no blank -/
  not_blank : Text.isBlank c = false
  /-- it is no double quote -/
  ne_double : c ≠ '"'
  /-- it is no single quote -/
  ne_single : c ≠ '\''
  /-- it starts no comment -/
  ne_slash : c ≠ '/'
  /-- it completes no marker of a comment -/
  ne_star : c ≠ '*'

theorem separates_of_mem_punctuation (hc : c ∈ punctuation) : Separates c := by
  simp only [punctuation, List.mem_cons, List.not_mem_nil, or_false] at hc
  rcases hc with rfl | rfl | rfl
  · exact ⟨⟨by decide, by decide, by decide⟩, by decide, by decide, by decide, by decide, by decide⟩
  · exact ⟨⟨by decide, by decide, by decide⟩, by decide, by decide, by decide, by decide, by decide⟩
  · exact ⟨⟨by decide, by decide, by decide⟩, by decide, by decide, by decide, by decide, by decide⟩

/-- What separates stays. -/
theorem Separates.stripStrings_cons (hc : Separates c) (after : List Char) :
    stripStrings (c :: after) = c :: stripStrings after := by
  have hplain : opensNothing [c] after = true := by
    refine opensNothing_of_forall (fun d hd => ?_) after
    obtain rfl := List.mem_singleton.1 hd
    exact ⟨hc.ne_double, hc.ne_single, hc.ne_slash⟩
  exact stripStrings_gap_append hplain

/-- Nor does it complete the marker of a comment. -/
theorem Separates.completesMarker_cons (hc : Separates c) (after : List Char) :
    completesMarker (c :: after) = false := by
  rw [completesMarker, List.head?_cons, Option.any_some, beq_false_of_ne hc.ne_slash,
    beq_false_of_ne hc.ne_star]
  rfl

/-- A character of a keyword is one of a name, or the colon between two names. -/
theorem Keyword.inName_or_eq {k : Keyword} (hc : c ∈ k.chars) : InName c ∨ c = ':' := by
  unfold Keyword.chars at hc
  split at hc
  · exact Or.inl (BareName.inName hc)
  · rw [List.mem_append, List.mem_cons] at hc
    rcases hc with hc | rfl | hc
    · exact Or.inl (BareName.inName hc)
    · exact Or.inr rfl
    · exact Or.inl (BareName.inName hc)

end

namespace Keyword

variable {k : Keyword} {c : Char}

/-- No keyword holds blanks. -/
theorem not_isBlank_of_mem (hc : c ∈ k.chars) : Text.isBlank c = false := by
  rcases inName_or_eq hc with hname | rfl
  · exact hname.not_blank
  · decide

/-- A keyword stays. -/
theorem stripStrings_append (k : Keyword) (after : List Char) :
    stripStrings (k.chars ++ after) = k.chars ++ stripStrings after := by
  refine stripStrings_gap_append (opensNothing_of_forall (fun c hc => ?_) after)
  rcases inName_or_eq hc with hname | rfl
  · exact ⟨hname.ne_double, hname.ne_single, hname.ne_slash⟩
  · decide

/-- What is no word character in a keyword is a point, a hyphen or a colon. -/
theorem isWord_eq_false_iff (hc : c ∈ k.chars) : Text.isWord c = false ↔ c ∈ [':', '-', '.'] := by
  simp only [List.mem_cons, List.not_mem_nil, or_false]
  constructor
  · intro hword
    rcases inName_or_eq hc with hname | rfl
    · have hcontinues := hname.continues
      simp only [continuesName, hword, Bool.false_or, Bool.or_eq_true, beq_iff_eq] at hcontinues
      exact Or.inr hcontinues.symm
    · exact Or.inl rfl
  · rintro (rfl | rfl | rfl)
    · decide
    · decide
    · decide

/-- The keyword of a revision is taken for what it is. -/
theorem isTaken_of_chars_eq (h : k.chars = revisionKeyword) : k.isTaken = true := by
  rw [isTaken, h, beq_self_eq_true, Bool.true_or]

/-- A keyword is taken if it ends in the word that is searched for. -/
theorem endsInRevision_chars (k : Keyword) : endsInRevision true k.chars = k.isTaken := by
  rw [Bool.eq_iff_iff, endsInRevision_iff, isTaken, Bool.or_eq_true, beq_iff_eq, List.any_eq_true,
    and_iff_right rfl]
  refine or_congr_right (exists_congr fun c => ?_)
  rw [List.isSuffixOf_iff_suffix]
  refine and_congr_left fun hsuffix => isWord_eq_false_iff (hsuffix.subset List.mem_cons_self)

end Keyword

namespace Argument

/-- What is left of an argument without strings. -/
def left : Argument → List Char
  | bare chars _ _ => chars
  | double body h => (Token.double body h).piece.withoutString
  | single body h => (Token.single body h).piece.withoutString

/-- An argument without strings does not depend on what follows it. -/
theorem stripStrings_append {a : Argument} {after : List Char} (h : a.EndsBefore after) :
    stripStrings (a.written ++ after) = a.left ++ stripStrings after := by
  cases a with
  | bare => exact stripStrings_gap_append h
  | double => exact Token.stripStrings_append trivial
  | single => exact Token.stripStrings_append trivial

theorem EndsBefore.append {a : Argument} {after more : List Char} (h : a.EndsBefore after)
    (hmore : completesMarker more = false) : a.EndsBefore (after ++ more) := by
  cases a with
  | bare => exact opensNothing_append h hmore
  | double => trivial
  | single => trivial

/-- What is left of a string is the date that it says, or a pair of quotes. -/
theorem withoutString_cases (quote : Char) (body : List Char) :
    (isDate (Text.trimChars body) = true ∧
      (Piece.quoted quote body).withoutString = Text.trimChars body) ∨
    (isDate (Text.trimChars body) = false ∧ (Piece.quoted quote body).withoutString = ['"', '"']) := by
  cases h : isDate (Text.trimChars body) with
  | true => exact Or.inl ⟨rfl, if_pos h⟩
  | false => exact Or.inr ⟨rfl, Piece.withoutString_of_not_isDate h⟩

theorem breaks_quote : Breaks '"' :=
  ⟨by decide, by decide, by decide⟩

theorem leadingDate?_withoutString (quote : Char) (body : List Char) :
    leadingDate? (Piece.quoted quote body).withoutString =
      if isDate (Text.trimChars body) then some (Text.trimChars body) else none := by
  rcases withoutString_cases quote body with ⟨hdate, heq⟩ | ⟨hdate, heq⟩
  · rw [heq, leadingDate?_of_isDate hdate, if_pos hdate]
  · rw [heq, leadingDate?_cons_of_breaks breaks_quote, if_neg (Bool.eq_false_iff.1 hdate)]

/-- **The date that is read** from an argument is the one that leads in what is left of it. -/
theorem leadingDate?_left (a : Argument) : leadingDate? a.left = a.dateRead? := by
  cases a with
  | bare => rfl
  | double body => exact leadingDate?_withoutString '"' body
  | single body => exact leadingDate?_withoutString '\'' body

/-- No blanks are left of a string. -/
theorem not_isBlank_of_mem_withoutString (quote : Char) {body : List Char} {c : Char}
    (hc : c ∈ (Piece.quoted quote body).withoutString) : Text.isBlank c = false := by
  rcases withoutString_cases quote body with ⟨hdate, heq⟩ | ⟨-, heq⟩
  · rw [heq] at hc
    rcases isDecimal_or_eq_of_isDate hdate hc with hdecimal | rfl
    · by_contra hblank
      rw [Bool.not_eq_false] at hblank
      rw [Text.isDecimal_of_isBlank hblank] at hdecimal
      cases hdecimal
    · decide
  · rw [heq] at hc
    simp only [List.mem_cons, List.not_mem_nil, or_false, or_self] at hc
    subst hc
    decide

theorem withoutString_ne_nil (quote : Char) (body : List Char) :
    (Piece.quoted quote body).withoutString ≠ [] := by
  rcases withoutString_cases quote body with ⟨hdate, heq⟩ | ⟨-, heq⟩
  · rw [heq]
    intro hnil
    rw [hnil] at hdate
    cases hdate
  · rw [heq]
    exact List.cons_ne_nil _ _

/-- Something is left of an argument. -/
theorem left_ne_nil (a : Argument) : a.left ≠ [] := by
  cases a with
  | bare _ _ hne => exact hne
  | double body => exact withoutString_ne_nil '"' body
  | single body => exact withoutString_ne_nil '\'' body

/-- No blanks are left of an argument. -/
theorem not_isBlank_of_mem_left {a : Argument} {c : Char} (hc : c ∈ a.left) :
    Text.isBlank c = false := by
  cases a with
  | bare _ hunbroken =>
    have hc := List.all_eq_true.1 hunbroken c hc
    rw [isUnbroken, Bool.and_eq_true, Bool.not_eq_true'] at hc
    exact hc.1
  | double => exact not_isBlank_of_mem_withoutString '"' hc
  | single => exact not_isBlank_of_mem_withoutString '\'' hc

/-- Nor does an argument begin with one. -/
theorem not_isBlank_of_mem_head? (a : Argument) (after : List Char) :
    ∀ c ∈ (a.left ++ after).head?, Text.isBlank c = false := by
  intro c hc
  rw [List.head?_append_of_ne_nil _ a.left_ne_nil] at hc
  exact not_isBlank_of_mem_left (List.mem_of_mem_head? hc)

end Argument

/-- Something is left of the gaps before an argument. -/
theorem Given.left_between_ne_nil (g : Given) : g.between.flatMap Gap.left ≠ [] := by
  obtain ⟨first, gaps, hgaps⟩ := List.exists_cons_of_ne_nil g.between_ne_nil
  rw [hgaps, List.flatMap_cons]
  exact List.append_ne_nil_of_left_ne_nil first.left_ne_nil _

/-! ### Dates, statement by statement -/

section

variable {blanks : List Char} {c : Char}

/-- Blanks and punctuation start with what breaks off words and dates. -/
theorem exists_breaks_cons (hblanks : ∀ c ∈ blanks, Text.isBlank c = true) (hc : Separates c)
    (after : List Char) : ∃ d rest, blanks ++ c :: after = d :: rest ∧ Breaks d := by
  cases blanks with
  | nil => exact ⟨c, after, rfl, hc.toBreaks⟩
  | cons d blanks => exact ⟨d, _, rfl, breaks_of_isBlank (hblanks d List.mem_cons_self)⟩

/-- **Scanning an argument**: no date is found in it, nor in the punctuation that follows. -/
theorem Argument.revisionsFrom_left {a : Argument} (wordMayBegin : Bool)
    (hblanks : ∀ c ∈ blanks, Text.isBlank c = true) (hc : Separates c) (after : List Char) :
    revisionsFrom wordMayBegin (a.left ++ (blanks ++ c :: after)) = revisionsFrom true after := by
  obtain ⟨d, rest, hcons, hd⟩ := exists_breaks_cons hblanks hc after
  -- whatever the argument ends in, what follows it is no date
  have hnone := dateAfterKeyword_append_cons hblanks hc.not_blank hc.toBreaks after
  have hafter : ∀ e ∈ (blanks ++ c :: after).head?, Text.isWord e = false := by
    rw [hcons]
    intro e he
    obtain rfl := Option.some.inj he
    exact hd.not_word
  rw [revisionsFrom_append_of_unbroken wordMayBegin (fun c => not_isBlank_of_mem_left) hafter, hnone,
    Option.toList_none, ite_self, List.nil_append,
    revisionsFrom_append_cons_of_breaks _ hblanks hc.toBreaks]

end

namespace Head

/-- What is left of the argument and the gaps before it. -/
def givenLeft (h : Head) : List Char :=
  h.given.elim [] fun g => g.between.flatMap Gap.left ++ g.argument.left

section

variable {c : Char} (h : Head) (hc : Separates c)

include hc

/-- What is left of a head without comments and strings. -/
theorem stripStrings_written_append (after : List Char) :
    stripStrings (h.written ++ c :: after) =
      h.leading.flatMap Gap.left ++ (h.keyword.chars ++ (h.givenLeft ++
        (h.trailing.flatMap Gap.left ++ c :: stripStrings after))) := by
  have htrailing : stripStrings (h.trailing.flatMap Gap.written ++ c :: after) =
      h.trailing.flatMap Gap.left ++ c :: stripStrings after := by
    rw [stripStrings_gaps, hc.stripStrings_cons]
  have hgiven : stripStrings (h.given.elim [] (fun g => g.between.flatMap Gap.written ++
        g.argument.written) ++ (h.trailing.flatMap Gap.written ++ c :: after)) =
      h.givenLeft ++ (h.trailing.flatMap Gap.left ++ c :: stripStrings after) := by
    rw [givenLeft]
    cases hg : h.given with
    | none => exact htrailing
    | some g =>
      have hends := (h.ends g hg).append (hc.completesMarker_cons after)
      rw [Option.elim, Option.elim, List.append_assoc, stripStrings_gaps,
        Argument.stripStrings_append hends, htrailing, List.append_assoc]
  rw [written, List.append_assoc, List.append_assoc, List.append_assoc, stripStrings_gaps,
    Keyword.stripStrings_append, hgiven]

/-- What follows a keyword breaks it off. -/
theorem exists_breaks_cons_givenLeft (after : List Char) : ∃ d rest,
    h.givenLeft ++ (h.trailing.flatMap Gap.left ++ c :: after) = d :: rest ∧ Breaks d := by
  rw [givenLeft]
  cases h.given with
  | none => exact exists_breaks_cons (isBlank_of_mem_flatMap_left _) hc after
  | some g =>
    obtain ⟨d, blanks, hblanks⟩ := List.exists_cons_of_ne_nil g.left_between_ne_nil
    have hd : Text.isBlank d = true :=
      isBlank_of_mem_flatMap_left g.between d (hblanks ▸ List.mem_cons_self)
    refine ⟨d, blanks ++ g.argument.left ++ (h.trailing.flatMap Gap.left ++ c :: after), ?_,
      breaks_of_isBlank hd⟩
    rw [Option.elim, hblanks]
    rfl

/-- The date that follows a keyword is the one that is read from its argument. -/
theorem dateAfterKeyword_givenLeft (after : List Char) :
    dateAfterKeyword (h.givenLeft ++ (h.trailing.flatMap Gap.left ++ c :: after)) =
      h.given.bind (·.argument.dateRead?) := by
  have htrailing := isBlank_of_mem_flatMap_left h.trailing
  rw [givenLeft]
  cases h.given with
  | none => exact dateAfterKeyword_append_cons htrailing hc.not_blank hc.toBreaks after
  | some g =>
    obtain ⟨d, rest, hcons, hd⟩ := exists_breaks_cons htrailing hc after
    rw [Option.elim, List.append_assoc, hcons,
      dateAfterKeyword_append g.left_between_ne_nil (isBlank_of_mem_flatMap_left _)
        (g.argument.not_isBlank_of_mem_head? _),
      leadingDate?_append _ hd, Argument.leadingDate?_left]
    rfl

/-- No further date is found up to the punctuation. -/
theorem revisionsFrom_givenLeft (wordMayBegin : Bool) (after : List Char) :
    revisionsFrom wordMayBegin (h.givenLeft ++ (h.trailing.flatMap Gap.left ++ c :: after)) =
      revisionsFrom true after := by
  have htrailing := isBlank_of_mem_flatMap_left h.trailing
  rw [givenLeft]
  cases h.given with
  | none => exact revisionsFrom_append_cons_of_breaks _ htrailing hc.toBreaks after
  | some g =>
    rw [Option.elim, List.append_assoc, revisionsFrom_append_of_notMem wordMayBegin
      (notMem_of_isBlank (isBlank_of_mem_flatMap_left g.between)),
      Argument.revisionsFrom_left _ htrailing hc]

/-- **Scanning the head of a statement**: the date is read that the head gives to be read. -/
theorem revisionsFrom_written_append (after : List Char) :
    revisionsFrom true (stripStrings (h.written ++ c :: after)) =
      h.dateRead?.toList ++ revisionsFrom true (stripStrings after) := by
  have hafter : ∀ e ∈ (h.givenLeft ++
      (h.trailing.flatMap Gap.left ++ c :: stripStrings after)).head?, Text.isWord e = false := by
    obtain ⟨d, rest, hcons, hd⟩ := h.exists_breaks_cons_givenLeft hc (stripStrings after)
    rw [hcons]
    intro e he
    obtain rfl := Option.some.inj he
    exact hd.not_word
  rw [stripStrings_written_append h hc, revisionsFrom_blanks_append (isBlank_of_mem_flatMap_left _),
    revisionsFrom_append_of_unbroken true (fun e => Keyword.not_isBlank_of_mem) hafter,
    Keyword.endsInRevision_chars, dateAfterKeyword_givenLeft h hc, revisionsFrom_givenLeft h hc,
    dateRead?]
  congr 1
  split
  · rfl
  · rfl

end

end Head

/-- **Scanning statements**: the dates are read that their heads give to be read, in order. -/
theorem Statements.revisionsFrom_written (statements : Statements) (after : List Char) :
    revisionsFrom true (stripStrings (statements.written ++ after)) =
      statements.heads.flatMap (·.dateRead?.toList) ++ revisionsFrom true (stripStrings after) := by
  induction statements generalizing after with
  | nil => rfl
  | simple head rest ih =>
    have hend : Separates ';' := separates_of_mem_punctuation (by decide)
    rw [written, List.append_assoc, List.cons_append, head.revisionsFrom_written_append hend, ih,
      heads, List.flatMap_cons, List.append_assoc]
  | block head inner closing rest ihinner ihrest =>
    have hopen : Separates '{' := separates_of_mem_punctuation (by decide)
    have hclose : Separates '}' := separates_of_mem_punctuation (by decide)
    have hclosing : revisionsFrom true (stripStrings
        (closing.flatMap Gap.written ++ '}' :: (rest.written ++ after))) =
        revisionsFrom true (stripStrings (rest.written ++ after)) := by
      rw [stripStrings_gaps, hclose.stripStrings_cons, revisionsFrom_append_cons_of_breaks _
        (isBlank_of_mem_flatMap_left closing) hclose.toBreaks]
    rw [written, List.append_assoc, List.cons_append, List.append_assoc, List.append_assoc,
      List.cons_append, head.revisionsFrom_written_append hopen, ihinner, hclosing, ihrest, heads,
      List.flatMap_cons, List.flatMap_append, List.append_assoc, List.append_assoc]

/-- A date that an argument is, is read from it. -/
theorem Argument.dateRead?_of_date? {a : Argument} {date : List Char} (h : a.date? = some date) :
    a.dateRead? = some date := by
  cases a with
  | bare chars =>
    rw [date?, Option.ite_none_right_eq_some] at h
    obtain ⟨hdate, heq⟩ := h
    rw [← heq]
    exact leadingDate?_of_isDate hdate
  | double => exact h
  | single => exact h

/-- A date that a revision gives is read from it. -/
theorem Head.dateRead?_of_date? {head : Head} {date : List Char} (h : head.date? = some date) :
    head.dateRead? = some date := by
  rw [date?, Option.ite_none_right_eq_some, Option.bind_eq_some_iff] at h
  obtain ⟨hkeyword, g, hg, hdate⟩ := h
  rw [dateRead?, if_pos (Keyword.isTaken_of_chars_eq hkeyword), hg]
  exact Argument.dateRead?_of_date? hdate

namespace WellFormed

/-- **The dates that are read** from a document are those of its statements. -/
theorem revisionDates_text (d : WellFormed) : revisionDates d.text = d.datesRead := by
  have hend : revisionsFrom true (stripStrings
      (d.closing.flatMap Gap.written ++ d.remark.elim [] ('/' :: '/' :: ·))) = [] := by
    rw [stripStrings_gaps, revisionsFrom_blanks_append (isBlank_of_mem_flatMap_left d.closing)]
    cases hremark : d.remark with
    | none => rw [Option.elim, stripStrings_nil, revisionsFrom]
    | some body =>
      have hline : (Token.line body (d.remark_ends body hremark)).EndsBefore [] := Or.inl rfl
      have hblank : stripStrings ('/' :: '/' :: body) = [' '] := by
        have hstrip := Token.stripStrings_append hline
        rwa [List.append_nil, stripStrings_nil] at hstrip
      rw [Option.elim, hblank]
      rfl
  rw [revisionDates, text, String.toList_ofList, chars, Statements.revisionsFrom_written, hend,
    List.append_nil, datesRead, List.filterMap_eq_flatMap_toList]

/-- The dates that revisions give are read. -/
theorem dates_subset_datesRead (d : WellFormed) : d.dates ⊆ d.datesRead := by
  refine List.map_subset _ fun date hdate => ?_
  obtain ⟨head, hhead, hdate⟩ := List.mem_filterMap.1 hdate
  exact List.mem_filterMap.2 ⟨head, hhead, Head.dateRead?_of_date? hdate⟩

/-- They are all that is read if only revisions are taken for revisions and their arguments are dates
and no more. -/
theorem dates_eq_datesRead (d : WellFormed)
    (h : ∀ head ∈ d.statements.heads, head.keyword.isTaken = true →
      head.keyword.chars = revisionKeyword ∧
        ∀ g ∈ head.given, g.argument.dateRead? = g.argument.date?) : d.dates = d.datesRead := by
  have hheads : ∀ head ∈ d.statements.heads, head.date? = head.dateRead? := by
    intro head hhead
    rw [Head.date?, Head.dateRead?]
    by_cases htaken : head.keyword.isTaken = true
    · obtain ⟨hkeyword, harguments⟩ := h head hhead htaken
      rw [if_pos htaken, if_pos hkeyword]
      cases hgiven : head.given with
      | none => rfl
      | some g => exact (harguments g hgiven).symm
    · rw [if_neg htaken, if_neg]
      intro hkeyword
      exact htaken (Keyword.isTaken_of_chars_eq hkeyword)
  rw [dates, datesRead, List.filterMap_congr hheads]

end WellFormed

/-- **The revision of a well-formed document** is the latest date that is read from it. It is the latest
of those that its revisions give exactly if none is read that is later than all of these, so in
particular if only revisions are taken for revisions and their arguments are dates and no more. -/
theorem revision?_latest_read (d : WellFormed) :
    IsLatest d.datesRead (revision? d.text) ∧
    (IsLatest d.dates (revision? d.text) ↔
      ∀ date ∈ d.datesRead, ∃ given ∈ d.dates, date ≤ given) ∧
    ((∀ head ∈ d.statements.heads, head.keyword.isTaken = true →
        head.keyword.chars = revisionKeyword ∧
          ∀ g ∈ head.given, g.argument.dateRead? = g.argument.date?) →
      IsLatest d.dates (revision? d.text)) := by
  have hread : IsLatest d.datesRead (revision? d.text) := by
    rw [revision?, d.revisionDates_text]
    exact isLatest_greatest? d.datesRead
  refine ⟨hread, hread.iff_of_subset d.dates_subset_datesRead, fun h => ?_⟩
  rw [d.dates_eq_datesRead h]
  exact hread

/-- A bare argument that goes on behind a date is read as that date. -/
example : leadingDate? "2021-01-01-draft".toList = some "2021-01-01".toList := by
  decide +kernel

/-- A name that is a word. -/
def BareName.ofWord (first : Char) (rest : List Char) (starts : first.isAlpha = true)
    (continues : rest.all Char.isAlphanum = true) : BareName :=
  ⟨first, rest, Or.inl starts, fun c hc => Or.inl (List.all_eq_true.1 continues c hc)⟩

/-- A statement that has a name for its keyword, and a bare argument. -/
def Head.plain (leading : List Gap) (keyword : Keyword) (chars : List Char)
    (unbroken : chars.all isUnbroken = true) (ne_nil : chars ≠ []) (trailing : List Gap)
    (ends : opensNothing chars (trailing.flatMap Gap.written) = true) : Head where
  leading
  keyword
  given := some ⟨[.blank ' ' (by decide)], .bare chars unbroken ne_nil, List.cons_ne_nil _ _⟩
  trailing
  ends := fun g hg => by
    obtain rfl := Option.some.inj hg
    exact ends

/-- A module with a revision, and with a later date in a statement that another module defines. -/
def extended : WellFormed where
  statements :=
    .block (.plain [] ⟨none, .ofWord 'm' "odule".toList (by decide) (by decide)⟩ "m".toList
        (by decide) (by decide) [.blank ' ' (by decide)] (by decide))
      (.simple (.plain [.blank ' ' (by decide)]
          ⟨none, .ofWord 'r' "evision".toList (by decide) (by decide)⟩ "2020-01-01".toList
          (by decide) (by decide) [] (by decide))
        (.simple (.plain [.blank ' ' (by decide)]
            ⟨some (.ofWord 'x' [] (by decide) (by decide)),
              .ofWord 'r' "evision".toList (by decide) (by decide)⟩ "2024-01-01".toList
            (by decide) (by decide) [] (by decide)) .nil))
      [.blank ' ' (by decide)] .nil
  closing := []
  remark := none
  remark_ends := fun _ h => by cases h

/-- **A date of another module's statement can be read** as the revision, though the document's only
revision gives an earlier one. -/
theorem revision?_of_extension :
    extended.text = "module m \x7b revision 2020-01-01; x:revision 2024-01-01; \x7d" ∧
    extended.dates = ["2020-01-01"] ∧
    revision? "module m \x7b revision 2020-01-01; x:revision 2024-01-01; \x7d" =
      some "2024-01-01" := by
  have htext : extended.text =
      "module m \x7b revision 2020-01-01; x:revision 2024-01-01; \x7d" := by
    decide +kernel
  refine ⟨htext, ?_, ?_⟩
  · decide +kernel
  · rw [← htext, revision?, extended.revisionDates_text]
    decide +kernel

end SchemaAssembly.Source
