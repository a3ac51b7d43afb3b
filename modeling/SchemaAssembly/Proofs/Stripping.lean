import SchemaAssembly.Proofs.Pieces
import SchemaAssembly.Source.Header
import SchemaAssembly.Source.Revision

/-!
# Taking comments out

A text without its comments is read like the text itself. Its pieces are those of the text, with a
blank for each comment (`pieces_stripComments`), so that nothing is left to take out and whatever is
read from the pieces stays what it was (`stripComments_absorbed`).

What could go wrong is that an opener that is never closed finds its end once comments are gone: an
escaped quote might lose its backslash, a star might meet a slash. Looking for the end of a string or
a comment is a `Search`, and none of the three searches can be helped by a blank in place of a comment
(`Search.fails_stripComments`).
-/

namespace SchemaAssembly.Source

/-! ### The text without comments -/

/-- Without comments, a text is its first piece and what follows, both without comments. -/
theorem stripComments_cons_of_starts {c : Char} {rest after : List Char} {p : Piece}
    (h : Piece.Starts c rest p after) :
    stripComments (c :: rest) = p.withoutComment ++ stripComments after := by
  rw [stripComments, pieces_cons_of_starts h, List.flatMap_cons, ← stripComments]

theorem stripComments_nil : stripComments [] = [] := by
  rw [stripComments, pieces, List.flatMap_nil]

/-- A character that opens nothing stays where it is. -/
theorem stripComments_cons_of_other {c : Char} (rest : List Char) (hdouble : c ≠ '"')
    (hsingle : c ≠ '\'') (hslash : c ≠ '/') :
    stripComments (c :: rest) = c :: stripComments rest :=
  stripComments_cons_of_starts (.other hdouble hsingle hslash)

/-- Of the characters at the beginning of a text only a slash can be taken out. -/
theorem exists_stripComments_eq_cons {c : Char} (rest : List Char) (hc : c ≠ '/') :
    ∃ front, stripComments (c :: rest) = c :: front := by
  obtain ⟨p, after, h⟩ : ∃ p after, Piece.Starts c rest p after := ⟨_, _, starts_first c rest⟩
  rw [stripComments_cons_of_starts h]
  cases h with
  | line => exact absurd rfl hc
  | block => exact absurd rfl hc
  | _ => exact ⟨_, rfl⟩

/-- A line that ends without comments ended before. -/
theorem EndsLine.stripComments {after : List Char} (h : EndsLine after) :
    EndsLine (stripComments after) := by
  rcases h with rfl | ⟨rest, rfl⟩
  · exact Or.inl stripComments_nil
  · exact Or.inr ⟨_, stripComments_cons_of_other rest (by decide) (by decide) (by decide)⟩

/-! ### Searches -/

/-- **A search** for the mark that closes what has been opened, one character after the other.
Whatever it knows of the text before, a blank, a line end and the end of a block comment take it back
to where it started. -/
structure Search where
  /-- what the search knows of the text before -/
  State : Type
  /-- what it knows at first -/
  start : State
  /-- a character more; there is no state once the mark has been found -/
  step : State → Char → Option State
  /-- a blank is no part of a mark -/
  step_blank : ∀ s, step s ' ' = some start
  /-- neither is a line end -/
  step_lineEnd : ∀ s, step s '\n' = some start
  /-- nor the end of a block comment, unless it is the mark -/
  step_blockEnd : ∀ s mid next, step s '*' = some mid → step mid '/' = some next → next = start

namespace Search

variable (search : Search) {s next : search.State} {c : Char} {cs : List Char}

/-- The search goes through a text and does not find its mark. -/
def Fails (s : search.State) (cs : List Char) : Prop :=
  ∃ next, cs.foldlM search.step s = some next

theorem fails_nil (s : search.State) : search.Fails s [] :=
  ⟨s, rfl⟩

theorem fails_cons_of_step (h : search.step s c = some next) :
    search.Fails s (c :: cs) ↔ search.Fails next cs := by
  simp only [Fails, List.foldlM_cons, h, Option.bind_eq_bind, Option.bind_some]

theorem not_fails_of_step (h : search.step s c = none) : ¬ search.Fails s (c :: cs) := by
  simp only [Fails, List.foldlM_cons, h, Option.bind_eq_bind, Option.bind_none, reduceCtorEq,
    exists_false, not_false_eq_true]

/-- A search fails on two texts if it fails on one and, with what it knows then, on the other. -/
theorem fails_append {front back : List Char} :
    search.Fails s (front ++ back) ↔
      ∃ mid, front.foldlM search.step s = some mid ∧ search.Fails mid back := by
  simp only [Fails, List.foldlM_append, Option.bind_eq_bind, Option.bind_eq_some_iff]
  constructor
  · rintro ⟨next, mid, hmid, hnext⟩
    exact ⟨mid, hmid, next, hnext⟩
  · rintro ⟨mid, hmid, next, hnext⟩
    exact ⟨next, mid, hmid, hnext⟩

/-- At the end of a line it does not matter what the search knows. -/
theorem fails_start_of_endsLine (hcs : EndsLine cs) (h : search.Fails s cs) :
    search.Fails search.start cs := by
  rcases hcs with rfl | ⟨rest, rfl⟩
  · exact search.fails_nil _
  · rw [search.fails_cons_of_step (search.step_lineEnd _)] at h ⊢
    exact h

/-- Behind a block comment the search knows what it knew at first. -/
theorem eq_start_of_block {body : List Char}
    (h : (body ++ ['*', '/']).foldlM search.step s = some next) : next = search.start := by
  simp only [List.foldlM_append, List.foldlM_cons, List.foldlM_nil, Option.bind_eq_bind,
    Option.bind_eq_some_iff] at h
  obtain ⟨before, -, mid, hmid, last, hlast, hnext⟩ := h
  cases hnext
  exact search.step_blockEnd before mid _ hmid hlast

/-- **Taking comments out helps no search.** -/
theorem fails_stripComments (h : search.Fails s cs) : search.Fails s (stripComments cs) := by
  induction cs using pieces_induction generalizing s with
  | nil =>
    rw [stripComments_nil]
    exact h
  | cons c rest p after hstarts ih =>
    rw [stripComments_cons_of_starts hstarts]
    rw [← written_append_of_starts hstarts] at h
    obtain ⟨mid, hmid, hafter⟩ := search.fails_append.1 h
    have hkept := ih hafter
    -- behind the blank the search knows what it knew at first, and so it does behind the comment
    cases hstarts with
    | line _ hline =>
      exact (search.fails_cons_of_step (search.step_blank s)).2
        (search.fails_start_of_endsLine hline.stripComments hkept)
    | block _ =>
      rw [search.eq_start_of_block hmid] at hkept
      exact (search.fails_cons_of_step (search.step_blank s)).2 hkept
    | _ => exact search.fails_append.2 ⟨mid, hmid, hkept⟩

end Search

/-- The search for a double quote that is not escaped: whether a backslash has just been read. -/
def doubleSearch : Search where
  State := Bool
  start := false
  step := fun escaped c =>
    if escaped then some false else if c = '"' then none else some (c == '\\')
  step_blank := by decide
  step_lineEnd := by decide
  step_blockEnd := by decide

/-- The search for a single quote. -/
def singleSearch : Search where
  State := Unit
  start := ()
  step := fun _ c => if c = '\'' then none else some ()
  step_blank := fun _ => rfl
  step_lineEnd := fun _ => rfl
  step_blockEnd := fun _ _ _ _ _ => rfl

/-- The search for the end of a block comment: whether a star has just been read. -/
def blockSearch : Search where
  State := Bool
  start := false
  step := fun star c => if star ∧ c = '/' then none else some (c == '*')
  step_blank := by decide
  step_lineEnd := by decide
  step_blockEnd := by decide

section

variable {cs : List Char}

theorem closeDouble_eq_none_iff : closeDouble cs = none ↔ doubleSearch.Fails false cs := by
  fun_induction closeDouble cs with
  | case1 => exact iff_of_true rfl (doubleSearch.fails_nil _)
  | case2 rest => exact iff_of_false (by simp) (doubleSearch.not_fails_of_step rfl)
  | case3 c rest ih =>
    rw [Option.map_eq_none_iff, ih, @Search.fails_cons_of_step doubleSearch false true _ _ rfl,
      @Search.fails_cons_of_step doubleSearch true false _ _ rfl]
  | case4 => exact iff_of_true rfl ⟨true, rfl⟩
  | case5 c rest hquote hpair hlast ih =>
    have hstep : doubleSearch.step false c = some false := by
      simp [doubleSearch, ne_backslash hpair hlast, show c ≠ '"' from hquote]
    rw [Option.map_eq_none_iff, ih, doubleSearch.fails_cons_of_step hstep]

theorem closeSingle_eq_none_iff : closeSingle cs = none ↔ singleSearch.Fails () cs := by
  fun_induction closeSingle cs with
  | case1 => exact iff_of_true rfl (singleSearch.fails_nil _)
  | case2 rest => exact iff_of_false (by simp) (singleSearch.not_fails_of_step rfl)
  | case3 c rest hquote ih =>
    have hstep : singleSearch.step () c = some () := if_neg hquote
    rw [Option.map_eq_none_iff, ih, singleSearch.fails_cons_of_step hstep]

theorem blockSearch_step_of_ne {c : Char} (star : Bool) (hc : c ≠ '/') :
    blockSearch.step star c = some (c == '*') :=
  if_neg fun h => hc h.2

theorem closeBlock_eq_none_iff : closeBlock cs = none ↔ blockSearch.Fails false cs := by
  fun_induction closeBlock cs with
  | case1 => exact iff_of_true rfl (blockSearch.fails_nil _)
  | case2 rest =>
    refine iff_of_false (by simp) ?_
    rw [@Search.fails_cons_of_step blockSearch false true _ _ rfl]
    exact blockSearch.not_fails_of_step rfl
  | case3 c rest hmark ih =>
    have hstep : blockSearch.step false c = some (c == '*') := by simp [blockSearch]
    rw [Option.map_eq_none_iff, ih, blockSearch.fails_cons_of_step hstep]
    -- that a star has been read matters only if a slash follows it
    by_cases hc : c = '*'
    · subst hc
      cases rest with
      | nil => exact iff_of_true (blockSearch.fails_nil _) (blockSearch.fails_nil _)
      | cons d rest =>
        have hd : d ≠ '/' := by
          rintro rfl
          exact hmark rest rfl rfl
        rw [blockSearch.fails_cons_of_step (blockSearch_step_of_ne false hd),
          blockSearch.fails_cons_of_step (blockSearch_step_of_ne _ hd)]
    · rw [beq_false_of_ne hc]

end

/-! ### The pieces that are left -/

namespace Piece

/-- The piece, a blank if it is a comment. -/
def uncommented : Piece → Piece
  | .comment _ => .plain ' '
  | piece => piece

/-- The piece, if it is a quoted string. -/
def quoted? : Piece → Option Piece
  | .quoted quote body => some (.quoted quote body)
  | _ => none

theorem withoutComment_uncommented (p : Piece) :
    p.uncommented.withoutComment = p.withoutComment := by
  cases p <;> rfl

theorem withoutString_uncommented (p : Piece) : p.uncommented.withoutString = p.withoutString := by
  cases p <;> rfl

theorem quoted?_uncommented (p : Piece) : p.uncommented.quoted? = p.quoted? := by
  cases p <;> rfl

end Piece

/-- What starts a text also starts the text without comments, which begins with it. -/
theorem starts_stripComments {c : Char} {rest after : List Char} {p : Piece}
    (h : Piece.Starts c rest p after) : ∃ d front, p.withoutComment = d :: front ∧
      Piece.Starts d (front ++ stripComments after) p.uncommented (stripComments after) := by
  cases h with
  | @double rest body after h =>
    exact ⟨'"', body ++ ['"'], rfl, .double (closeDouble_append h (stripComments after))⟩
  | @single body after h =>
    refine ⟨'\'', body ++ ['\''], rfl, ?_⟩
    rw [List.append_assoc]
    exact .single h
  | line => exact ⟨' ', [], rfl, .other (by decide) (by decide) (by decide)⟩
  | block => exact ⟨' ', [], rfl, .other (by decide) (by decide) (by decide)⟩
  | openDouble h =>
    refine ⟨'"', [], rfl, .openDouble (closeDouble_eq_none_iff.2 ?_)⟩
    exact doubleSearch.fails_stripComments (closeDouble_eq_none_iff.1 h)
  | openSingle h =>
    refine ⟨'\'', [], rfl, .openSingle (closeSingle_eq_none_iff.2 ?_)⟩
    exact singleSearch.fails_stripComments (closeSingle_eq_none_iff.1 h)
  | slash hline hblock =>
    refine ⟨'/', [], rfl, ?_⟩
    rw [List.nil_append]
    cases rest with
    | nil =>
      rw [stripComments_nil]
      exact .slash hline hblock
    | cons d rest =>
      have hd : d ≠ '/' := by
        rintro rfl
        exact hline rest rfl
      obtain ⟨front, hfront⟩ := exists_stripComments_eq_cons rest hd
      refine .slash (fun body hbody => ?_) fun body hbody => ?_
      · rw [hfront] at hbody
        exact hd (List.cons.inj hbody).1
      · -- a star that follows the slash followed it before
        obtain rfl : d = '*' := by
          rw [hfront] at hbody
          exact (List.cons.inj hbody).1
        rw [stripComments_cons_of_other rest (by decide) (by decide) (by decide)] at hbody
        rw [← (List.cons.inj hbody).2, closeBlock_eq_none_iff]
        exact blockSearch.fails_stripComments (closeBlock_eq_none_iff.1 (hblock rest rfl))
  | other hdouble hsingle hslash => exact ⟨_, [], rfl, .other hdouble hsingle hslash⟩

/-- **The pieces of a text without comments** are those of the text, with a blank for each comment. -/
theorem pieces_stripComments (cs : List Char) :
    pieces (stripComments cs) = (pieces cs).map Piece.uncommented := by
  induction cs using pieces_induction with
  | nil => rw [stripComments_nil, pieces, List.map_nil]
  | cons c rest p after h ih =>
    obtain ⟨d, front, hwritten, hstarts⟩ := starts_stripComments h
    rw [stripComments_cons_of_starts h, hwritten, List.cons_append, pieces_cons_of_starts hstarts,
      ih, pieces_cons_of_starts h, List.map_cons]

/-- Taking comments out a second time changes nothing. -/
theorem stripComments_stripComments (cs : List Char) :
    stripComments (stripComments cs) = stripComments cs := by
  rw [stripComments, pieces_stripComments, List.flatMap_map]
  simp only [Piece.withoutComment_uncommented]
  rfl

/-- Taking strings out takes comments out, whether or not they are there. -/
theorem stripStrings_stripComments (cs : List Char) :
    stripStrings (stripComments cs) = stripStrings cs := by
  rw [stripStrings, pieces_stripComments, List.flatMap_map]
  simp only [Piece.withoutString_uncommented]
  rfl

/-- The quoted strings stay, in order. -/
theorem filterMap_quoted?_pieces_stripComments (cs : List Char) :
    (pieces (stripComments cs)).filterMap Piece.quoted? = (pieces cs).filterMap Piece.quoted? := by
  rw [pieces_stripComments, List.filterMap_map]
  congr 1
  exact funext Piece.quoted?_uncommented

/-- **Taking comments out** of a text, whatever it is, leaves nothing for a second time and nothing
for the passes that follow: they say of the text without comments what they say of the text itself,
its header and its revision included, and all quoted strings are still there as they were. -/
theorem stripComments_absorbed (text : String) :
    stripComments (stripComments text.toList) = stripComments text.toList ∧
    stripStrings (stripComments text.toList) = stripStrings text.toList ∧
    header? (String.ofList (stripComments text.toList)) = header? text ∧
    revision? (String.ofList (stripComments text.toList)) = revision? text ∧
    (pieces (stripComments text.toList)).filterMap Piece.quoted? =
      (pieces text.toList).filterMap Piece.quoted? := by
  refine ⟨stripComments_stripComments _, stripStrings_stripComments _, ?_, ?_,
    filterMap_quoted?_pieces_stripComments _⟩
  · rw [header?, String.toList_ofList, stripComments_stripComments, header?]
  · rw [revision?, revisionDates, String.toList_ofList, stripStrings_stripComments, revision?,
      revisionDates]

/-- A quote that nothing closes is not closed by taking a comment out, escaped quotes or not. -/
example : stripComments "\" \\/*\\\"*/ ' //' /".toList = "\" \\  ' //' /".toList := by
  cbv

end SchemaAssembly.Source
