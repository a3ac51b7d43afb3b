import SchemaAssembly.Source.Piece

/-!
# Cutting a text

What the first piece of a text can be. `Piece.first` tries one reading of an opener after the other;
`Piece.Starts` says in one rule for each kind of piece when it is the one that is taken, with what the
piece and the text after it look like.

- `starts_first` and `first_eq_of_starts`: the rules describe the first piece and nothing else;
- `pieces_induction`: induction on a text piece by piece;
- `closeDouble_append`: whether a string is closed does not depend on what follows it.
-/

namespace SchemaAssembly.Source

/-! ### Closed strings and comments -/

/-- A double-quoted string ends in its quote. -/
theorem exists_body_of_closeDouble {cs written rest : List Char}
    (h : closeDouble cs = some (written, rest)) : ∃ body, written = body ++ ['"'] := by
  fun_induction closeDouble cs generalizing written with
  | case1 => cases h
  | case2 r =>
    cases h
    exact ⟨[], rfl⟩
  | case3 c r ih =>
    obtain ⟨⟨b, s⟩, hb, heq⟩ := Option.map_eq_some_iff.1 h
    cases heq
    obtain ⟨body, rfl⟩ := ih hb
    exact ⟨'\\' :: c :: body, rfl⟩
  | case4 => cases h
  | case5 c r _ _ _ ih =>
    obtain ⟨⟨b, s⟩, hb, heq⟩ := Option.map_eq_some_iff.1 h
    cases heq
    obtain ⟨body, rfl⟩ := ih hb
    exact ⟨c :: body, rfl⟩

/-- A backslash that is neither the last character nor before another one is none. -/
theorem ne_backslash {c : Char} {rest : List Char}
    (hpair : ∀ d after, c = '\\' → rest = d :: after → False) (hlast : c = '\\' → rest = [] → False) :
    c ≠ '\\' := by
  rintro rfl
  cases rest with
  | nil => exact hlast rfl rfl
  | cons d after => exact hpair d after rfl rfl

/-- Where a double-quoted string ends does not depend on what follows it. -/
theorem closeDouble_append {cs written rest : List Char}
    (h : closeDouble cs = some (written, rest)) (rest' : List Char) :
    closeDouble (written ++ rest') = some (written, rest') := by
  fun_induction closeDouble cs generalizing written with
  | case1 => cases h
  | case2 r =>
    cases h
    rfl
  | case3 c r ih =>
    obtain ⟨⟨b, s⟩, hb, heq⟩ := Option.map_eq_some_iff.1 h
    cases heq
    rw [List.cons_append, List.cons_append, closeDouble, ih hb]
    rfl
  | case4 => cases h
  | case5 c r hquote hpair hlast ih =>
    obtain ⟨⟨b, s⟩, hb, heq⟩ := Option.map_eq_some_iff.1 h
    cases heq
    have hslash := ne_backslash hpair hlast
    rw [List.cons_append, closeDouble, ih hb]
    · rfl
    · exact hquote
    · exact fun _ _ hc _ => hslash hc
    · exact fun hc _ => hslash hc

/-- A single-quoted string ends at the next single quote. -/
theorem exists_body_of_closeSingle {cs written rest : List Char}
    (h : closeSingle cs = some (written, rest)) :
    ∃ body, '\'' ∉ body ∧ written = body ++ ['\''] := by
  fun_induction closeSingle cs generalizing written with
  | case1 => cases h
  | case2 r =>
    cases h
    exact ⟨[], List.not_mem_nil, rfl⟩
  | case3 c r hquote ih =>
    obtain ⟨⟨b, s⟩, hb, heq⟩ := Option.map_eq_some_iff.1 h
    cases heq
    obtain ⟨body, hbody, rfl⟩ := ih hb
    refine ⟨c :: body, fun hmem => ?_, rfl⟩
    rcases List.mem_cons.1 hmem with rfl | hmem
    · exact hquote rfl
    · exact hbody hmem

/-- Whatever holds no single quote is closed by the next one. -/
theorem closeSingle_of_not_mem {body : List Char} (h : '\'' ∉ body) (rest : List Char) :
    closeSingle (body ++ '\'' :: rest) = some (body ++ ['\''], rest) := by
  induction body with
  | nil => rfl
  | cons c body ih =>
    rw [List.mem_cons, not_or] at h
    rw [List.cons_append, closeSingle, ih h.2]
    · rfl
    · exact fun hc => h.1 hc.symm

/-- A block comment ends in its marker. -/
theorem exists_body_of_closeBlock {cs written rest : List Char}
    (h : closeBlock cs = some (written, rest)) : ∃ body, written = body ++ ['*', '/'] := by
  fun_induction closeBlock cs generalizing written with
  | case1 => cases h
  | case2 r =>
    cases h
    exact ⟨[], rfl⟩
  | case3 c r _ ih =>
    obtain ⟨⟨b, s⟩, hb, heq⟩ := Option.map_eq_some_iff.1 h
    cases heq
    obtain ⟨body, rfl⟩ := ih hb
    exact ⟨c :: body, rfl⟩

/-- The text after a line comment: nothing, or the end of the line. -/
def EndsLine (after : List Char) : Prop :=
  after = [] ∨ ∃ rest, after = '\n' :: rest

/-- A line comment goes up to the end of its line. -/
theorem closeLine_spec (cs : List Char) :
    '\n' ∉ (closeLine cs).1 ∧ EndsLine (closeLine cs).2 := by
  fun_induction closeLine cs with
  | case1 => exact ⟨List.not_mem_nil, Or.inl rfl⟩
  | case2 r => exact ⟨List.not_mem_nil, Or.inr ⟨r, rfl⟩⟩
  | case3 c r hc ih =>
    refine ⟨fun hmem => ?_, ih.2⟩
    rcases List.mem_cons.1 hmem with rfl | hmem
    · exact hc rfl
    · exact ih.1 hmem

/-- Whatever holds no line end is a line comment up to the next one. -/
theorem closeLine_append {body after : List Char} (hbody : '\n' ∉ body) (hafter : EndsLine after) :
    closeLine (body ++ after) = (body, after) := by
  induction body with
  | nil =>
    rcases hafter with rfl | ⟨rest, rfl⟩
    · rfl
    · rfl
  | cons c body ih =>
    rw [List.mem_cons, not_or] at hbody
    rw [List.cons_append, closeLine, ih hbody.2]
    exact fun hc => hbody.1 hc.symm

/-! ### The first piece -/

/-- **What a first piece can be**: the first character of a text and its rest, the piece they start
with, and the text after it. -/
inductive Piece.Starts : Char → List Char → Piece → List Char → Prop
  /-- a double-quoted string -/
  | double {rest body after : List Char} :
    closeDouble rest = some (body ++ ['"'], after) → Starts '"' rest (.quoted '"' body) after
  /-- a single-quoted string -/
  | single {body after : List Char} : '\'' ∉ body →
    Starts '\'' (body ++ '\'' :: after) (.quoted '\'' body) after
  /-- a line comment -/
  | line {body after : List Char} : '\n' ∉ body → EndsLine after →
    Starts '/' ('/' :: (body ++ after)) (.comment ('/' :: '/' :: body)) after
  /-- a block comment -/
  | block {rest body after : List Char} : closeBlock rest = some (body ++ ['*', '/'], after) →
    Starts '/' ('*' :: rest) (.comment ('/' :: '*' :: body ++ ['*', '/'])) after
  /-- a double quote that is never closed -/
  | openDouble {rest : List Char} : closeDouble rest = none → Starts '"' rest (.plain '"') rest
  /-- a single quote that is never closed -/
  | openSingle {rest : List Char} : closeSingle rest = none → Starts '\'' rest (.plain '\'') rest
  /-- a slash that opens no comment, or a block comment that is never closed -/
  | slash {rest : List Char} : (∀ body, rest ≠ '/' :: body) →
    (∀ body, rest = '*' :: body → closeBlock body = none) → Starts '/' rest (.plain '/') rest
  /-- a character that opens nothing -/
  | other {c : Char} {rest : List Char} : c ≠ '"' → c ≠ '\'' → c ≠ '/' →
    Starts c rest (.plain c) rest

section

variable {c : Char} {rest after : List Char} {p : Piece}

/-- **The first piece** is one that the rules describe. -/
theorem starts_first (c : Char) (rest : List Char) :
    Piece.Starts c rest (Piece.first c rest).1 (Piece.first c rest).2 := by
  unfold Piece.first
  split
  · split
    · rename_i written after h
      obtain ⟨body, rfl⟩ := exists_body_of_closeDouble h
      rw [List.dropLast_concat]
      exact .double h
    · rename_i h
      exact .openDouble h
  · split
    · rename_i written after h
      obtain ⟨body, hbody, rfl⟩ := exists_body_of_closeSingle h
      rw [List.dropLast_concat, ← append_of_closeSingle h, List.append_assoc]
      exact .single hbody
    · rename_i h
      exact .openSingle h
  · rename_i rest
    obtain ⟨hbody, hafter⟩ := closeLine_spec rest
    have hstarts := Piece.Starts.line hbody hafter
    rwa [append_closeLine] at hstarts
  · split
    · rename_i written after h
      obtain ⟨body, rfl⟩ := exists_body_of_closeBlock h
      exact .block h
    · rename_i h
      refine .slash (fun body hbody => by cases hbody) fun body hbody => ?_
      rw [← (List.cons.inj hbody).2]
      exact h
  · rename_i hdouble hsingle hline hblock
    by_cases hc : c = '/'
    · subst hc
      exact .slash (fun body hbody => hline body rfl hbody)
        fun body hbody => (hblock body rfl hbody).elim
    · exact .other hdouble hsingle hc

/-- The rules describe the first piece only. -/
theorem first_eq_of_starts (h : Piece.Starts c rest p after) :
    Piece.first c rest = (p, after) := by
  cases h with
  | double h => simp only [Piece.first, h, List.dropLast_concat]
  | single h => simp only [Piece.first, closeSingle_of_not_mem h, List.dropLast_concat]
  | line hbody hafter => simp only [Piece.first, closeLine_append hbody hafter]
  | block h =>
    simp only [Piece.first, h]
    rfl
  | openDouble h => simp only [Piece.first, h]
  | openSingle h => simp only [Piece.first, h]
  | slash hline hblock =>
    by_cases hstar : ∃ body, rest = '*' :: body
    · obtain ⟨body, rfl⟩ := hstar
      simp only [Piece.first, hblock body rfl]
    · rw [Piece.first]
      · exact fun hc => absurd hc (by decide)
      · exact fun hc => absurd hc (by decide)
      · exact fun body _ hbody => hline body hbody
      · exact fun body _ hbody => hstar ⟨body, hbody⟩
  | other hdouble hsingle hslash =>
    rw [Piece.first]
    · exact hdouble
    · exact hsingle
    · exact fun body hc _ => hslash hc
    · exact fun body hc _ => hslash hc

/-- A text is its first piece and the pieces of what follows. -/
theorem pieces_cons_of_starts (h : Piece.Starts c rest p after) :
    pieces (c :: rest) = p :: pieces after := by
  rw [pieces, first_eq_of_starts h]

/-- The first piece, as it is written, and what follows make up the text. -/
theorem written_append_of_starts (h : Piece.Starts c rest p after) :
    p.written ++ after = c :: rest := by
  cases h with
  | double h =>
    rw [← append_of_closeDouble h]
    rfl
  | block h =>
    rw [← append_of_closeBlock h]
    simp [Piece.written]
  | single => simp [Piece.written]
  | line => simp [Piece.written]
  | _ => rfl

end

/-- **Induction on a text piece by piece.** -/
theorem pieces_induction {motive : List Char → Prop} (nil : motive [])
    (cons : ∀ c rest p after, Piece.Starts c rest p after → motive after → motive (c :: rest))
    (cs : List Char) : motive cs := by
  fun_induction pieces cs with
  | case1 => exact nil
  | case2 c rest ih => exact cons c rest _ _ (starts_first c rest) ih

/-- **Nothing is lost**: the pieces of a text, as they are written, make up the text. -/
theorem concat_pieces (cs : List Char) : (pieces cs).flatMap Piece.written = cs := by
  induction cs using pieces_induction with
  | nil => rw [pieces, List.flatMap_nil]
  | cons c rest p after h ih =>
    rw [pieces_cons_of_starts h, List.flatMap_cons, ih, written_append_of_starts h]

end SchemaAssembly.Source
