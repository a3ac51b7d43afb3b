import SchemaAssembly.Proofs.Tokens

/-!
# Scanning for revisions

What the search for revisions finds in a text that is already free of comments and strings, part by
part. A part without blanks, such as a keyword or an argument, is a revision's keyword exactly if it
ends in that word, with no word character before it; what is found then depends on the text behind the
part only (`revisionsFrom_append_of_unbroken`). Any other part is passed over if the keyword's first
letter is not in it (`revisionsFrom_append_of_notMem`).

Behind the keyword `leadingDate?` is read, which does not depend on the text behind an argument
(`leadingDate?_append`).
-/

namespace SchemaAssembly

namespace Text

/-! ### Blanks are no word characters -/

/-- The code points of the blanks. -/
def blankCodes : List Nat :=
  [9, 10, 11, 12, 13, 28, 29, 30, 31, 32, 0x85, 0xA0, 0x1680, 0x2000, 0x2001, 0x2002, 0x2003, 0x2004,
   0x2005, 0x2006, 0x2007, 0x2008, 0x2009, 0x200A, 0x2028, 0x2029, 0x202F, 0x205F, 0x3000]

variable {c : Char}

theorem mem_blankCodes (h : isBlank c = true) : c.toNat ∈ blankCodes := by
  simp only [isBlank, Bool.or_eq_true, Bool.and_eq_true, decide_eq_true_eq, beq_iff_eq] at h
  simp only [blankCodes, List.mem_cons, List.not_mem_nil, or_false]
  omega

/-- A blank is neither a letter nor a digit. -/
theorem isAlphanum_of_isBlank (h : isBlank c = true) : c.isAlphanum = false := by
  by_contra halphanum
  rw [Bool.not_eq_false] at halphanum
  rw [isBlank_of_isAlphanum halphanum] at h
  cases h

/-- **A blank is no word character.** -/
theorem isWord_of_isBlank (h : isBlank c = true) : isWord c = false := by
  have hscore : (c == '_') = false := by
    refine beq_false_of_ne ?_
    rintro rfl
    revert h
    decide
  have hletters : ∀ code ∈ blankCodes, letterIntervals.covers code = false := by
    decide +kernel
  rw [isWord, isAlphanum_of_isBlank h, hscore, hletters _ (mem_blankCodes h)]
  rfl

/-- Nor is it a decimal digit. -/
theorem isDecimal_of_isBlank (h : isBlank c = true) : isDecimal c = false := by
  have hdigit : c.isDigit = false := by
    have halphanum := isAlphanum_of_isBlank h
    rw [Char.isAlphanum, Bool.or_eq_false_iff] at halphanum
    exact halphanum.2
  have hrows : ∀ code ∈ blankCodes,
      (digitZeros.any fun first => first ≤ code && code < first + 10) = false := by
    decide +kernel
  rw [isDecimal, hdigit, hrows _ (mem_blankCodes h)]
  rfl

end Text

namespace Source

/-! ### Dates -/

section

variable {cs rest : List Char} {c : Char}

theorem length_of_isDate (h : isDate cs = true) : cs.length = dateLength := by
  unfold isDate at h
  split at h
  · rfl
  · cases h

/-- A date consists of digits and hyphens. -/
theorem isDecimal_or_eq_of_isDate (h : isDate cs = true) (hc : c ∈ cs) :
    Text.isDecimal c = true ∨ c = '-' := by
  unfold isDate at h
  split at h
  · simp only [List.all_cons, List.all_nil, Bool.and_eq_true, beq_iff_eq] at h
    simp only [List.mem_cons, List.not_mem_nil, or_false] at hc
    grind
  · cases h

/-- **What breaks off** words and dates alike. -/
structure Breaks (c : Char) : Prop where
  /-- it is no word character -/
  not_word : Text.isWord c = false
  /-- it is no digit -/
  not_decimal : Text.isDecimal c = false
  /-- it is no hyphen -/
  ne_hyphen : c ≠ '-'

theorem breaks_of_isBlank (h : Text.isBlank c = true) : Breaks c :=
  ⟨Text.isWord_of_isBlank h, Text.isDecimal_of_isBlank h, ne_of_class h (by decide)⟩

/-- The date at the beginning of a text, if no word character follows it. -/
def leadingDate? (cs : List Char) : Option (List Char) :=
  let date := cs.take dateLength
  let ends := match (cs.drop dateLength).head? with
    | some c => !Text.isWord c
    | none => true
  if isDate date && ends then some date else none

/-- **Where a date breaks off, it does not matter what follows.** -/
theorem leadingDate?_append (cs : List Char) (hc : Breaks c) (rest : List Char) :
    leadingDate? (cs ++ c :: rest) = leadingDate? cs := by
  by_cases hlength : dateLength ≤ cs.length
  · have hends : (match ((cs ++ c :: rest).drop dateLength).head? with
        | some c => !Text.isWord c
        | none => true) =
        (match (cs.drop dateLength).head? with
        | some c => !Text.isWord c
        | none => true) := by
      rw [List.drop_append_of_le_length hlength]
      cases cs.drop dateLength with
      | nil => simp [hc.not_word]
      | cons => rfl
    rw [leadingDate?, leadingDate?, hends, List.take_append_of_le_length hlength]
  · -- the one date would be too short, and the other would hold what breaks it off
    have hshort : isDate (cs.take dateLength) = false := by
      by_contra hdate
      rw [Bool.not_eq_false] at hdate
      have hdate := length_of_isDate hdate
      rw [List.length_take] at hdate
      omega
    have hbroken : isDate ((cs ++ c :: rest).take dateLength) = false := by
      by_contra hdate
      rw [Bool.not_eq_false] at hdate
      have hmem : c ∈ (cs ++ c :: rest).take dateLength := by
        obtain ⟨n, hn⟩ : ∃ n, dateLength - cs.length = n + 1 :=
          ⟨dateLength - cs.length - 1, by omega⟩
        rw [List.take_append, hn, List.take_succ_cons]
        exact List.mem_append_right _ List.mem_cons_self
      rcases isDecimal_or_eq_of_isDate hdate hmem with hdecimal | hhyphen
      · rw [hc.not_decimal] at hdecimal
        cases hdecimal
      · exact hc.ne_hyphen hhyphen
    rw [leadingDate?, leadingDate?, hshort, hbroken]
    rfl

/-- There is no date where one breaks off at once. -/
theorem leadingDate?_cons_of_breaks (hc : Breaks c) (rest : List Char) :
    leadingDate? (c :: rest) = none :=
  leadingDate?_append [] hc rest

/-- A date leads with itself. -/
theorem leadingDate?_of_isDate (h : isDate cs = true) : leadingDate? cs = some cs := by
  have hlength := length_of_isDate h
  rw [leadingDate?, ← hlength, List.take_length, List.drop_length, h]
  rfl

/-- **A date is read behind the blanks** that follow a keyword. -/
theorem dateAfterKeyword_append {blanks : List Char} (hne : blanks ≠ [])
    (hblanks : ∀ c ∈ blanks, Text.isBlank c = true) (hcs : ∀ c ∈ cs.head?, Text.isBlank c = false) :
    dateAfterKeyword (blanks ++ cs) = leadingDate? cs := by
  have hlength : cs.length < (blanks ++ cs).length := by
    have hpos := List.length_pos_iff.2 hne
    rw [List.length_append]
    omega
  rw [dateAfterKeyword, trimStart_append hblanks hcs, decide_eq_true hlength, Bool.true_and]
  rfl

/-- Where there is no blank, no date follows a keyword. -/
theorem dateAfterKeyword_of_not_isBlank (hc : Text.isBlank c = false) (rest : List Char) :
    dateAfterKeyword (c :: rest) = none := by
  rw [dateAfterKeyword, Text.trimStart_cons_of_not_isBlank hc, decide_eq_false (Nat.lt_irrefl _)]
  rfl

/-- Nor does one follow where what breaks it off comes first, blanks left aside. -/
theorem dateAfterKeyword_append_cons {blanks : List Char}
    (hblanks : ∀ c ∈ blanks, Text.isBlank c = true) (hblank : Text.isBlank c = false) (hc : Breaks c)
    (rest : List Char) : dateAfterKeyword (blanks ++ c :: rest) = none := by
  by_cases hne : blanks = []
  · rw [hne]
    exact dateAfterKeyword_of_not_isBlank hblank rest
  · have hcs : ∀ d ∈ (c :: rest).head?, Text.isBlank d = false := by
      intro d hd
      obtain rfl := Option.some.inj hd
      exact hblank
    rw [dateAfterKeyword_append hne hblanks hcs, leadingDate?_cons_of_breaks hc]

end

/-! ### Scanning -/

/-- The keyword of a revision. -/
def revisionKeyword : List Char :=
  "revision".toList

section

variable {front after : List Char}

theorem revisionAt_eq (cs : List Char) :
    revisionAt cs = if revisionKeyword.isPrefixOf cs then
      dateAfterKeyword (cs.drop revisionKeyword.length) else none :=
  rfl

theorem revisionAt_eq_none {cs : List Char} (h : ¬ revisionKeyword <+: cs) :
    revisionAt cs = none := by
  rw [revisionAt_eq, if_neg fun hprefix => h (List.isPrefixOf_iff_prefix.1 hprefix)]

theorem revisionAt_keyword_append (after : List Char) :
    revisionAt (revisionKeyword ++ after) = dateAfterKeyword after := by
  rw [revisionAt_eq, if_pos (List.isPrefixOf_iff_prefix.2 (List.prefix_append _ after)),
    List.drop_left]

theorem revisionKeyword_ne_nil : revisionKeyword ≠ [] := by
  decide +kernel

theorem isWord_of_mem_revisionKeyword {c : Char} (h : c ∈ revisionKeyword) :
    Text.isWord c = true := by
  have halphanum : revisionKeyword.all Char.isAlphanum = true := by
    decide +kernel
  exact Text.isWord_of_isAlphanum (List.all_eq_true.1 halphanum c h)

/-- **A keyword stands at the beginning of a part without blanks** only if it is that part, as what
follows breaks it off. -/
theorem revisionAt_append (hfront : ∀ c ∈ front, Text.isBlank c = false)
    (hafter : ∀ c ∈ after.head?, Text.isWord c = false) :
    revisionAt (front ++ after) =
      if front = revisionKeyword then dateAfterKeyword after else none := by
  by_cases hprefix : revisionKeyword <+: front ++ after
  · have hnotMem : ∀ c ∈ after.head?, c ∉ revisionKeyword := by
      intro c hc hmem
      have hword := isWord_of_mem_revisionKeyword hmem
      rw [hafter c hc] at hword
      cases hword
    obtain ⟨back, rfl⟩ := prefix_of_prefix_append hprefix hnotMem
    rw [List.append_assoc, revisionAt_keyword_append]
    cases back with
    | nil => rw [List.append_nil, if_pos rfl, List.nil_append]
    | cons c back =>
      -- the part goes on behind the keyword, where no date can follow
      have hc := hfront c (List.mem_append_right _ List.mem_cons_self)
      rw [List.cons_append, dateAfterKeyword_of_not_isBlank hc, if_neg]
      simp
  · rw [revisionAt_eq_none hprefix, if_neg]
    rintro rfl
    exact hprefix (List.prefix_append _ _)

/-- Whether a part ends in the keyword, given whether a word may begin with it. -/
def endsInRevision : Bool → List Char → Bool
  | _, [] => false
  | wordMayBegin, c :: rest =>
    wordMayBegin && (c :: rest) == revisionKeyword || endsInRevision (!Text.isWord c) rest

/-- Whether a word may begin behind a part, given whether one may begin with it. -/
def wordMayFollow (wordMayBegin : Bool) (front : List Char) : Bool :=
  front.foldl (fun _ c => !Text.isWord c) wordMayBegin

/-- **Scanning a part without blanks**: if it ends in the keyword, the date behind it is found, and
nothing else in it is. -/
theorem revisionsFrom_append_of_unbroken (wordMayBegin : Bool)
    (hfront : ∀ c ∈ front, Text.isBlank c = false)
    (hafter : ∀ c ∈ after.head?, Text.isWord c = false) :
    revisionsFrom wordMayBegin (front ++ after) =
      (if endsInRevision wordMayBegin front then (dateAfterKeyword after).toList else []) ++
        revisionsFrom (wordMayFollow wordMayBegin front) after := by
  induction front generalizing wordMayBegin with
  | nil => rfl
  | cons c front ih =>
    have hhere := revisionAt_append hfront hafter
    have hrest := ih (!Text.isWord c) fun d hd => hfront d (List.mem_cons_of_mem c hd)
    rw [List.cons_append] at hhere ⊢
    rw [revisionsFrom, hhere, hrest, ← List.append_assoc]
    congr 1
    by_cases hkeyword : c :: front = revisionKeyword
    · -- the rest of the keyword does not end in the keyword
      have hend : endsInRevision (!Text.isWord c) front = false := by
        obtain ⟨rfl, rfl⟩ := List.cons.inj hkeyword
        decide +kernel
      rw [endsInRevision, hend, hkeyword, if_pos rfl, beq_self_eq_true, Bool.and_true, Bool.or_false,
        if_neg Bool.false_ne_true, List.append_nil]
    · rw [endsInRevision, if_neg hkeyword, beq_false_of_ne hkeyword, Bool.and_false, Bool.false_or,
        Option.toList_none, ite_self, List.nil_append]

/-- A part ends in the keyword if it is the keyword, or if the keyword follows in it what is no word
character. -/
theorem endsInRevision_iff {wordMayBegin : Bool} :
    endsInRevision wordMayBegin front = true ↔
      (wordMayBegin = true ∧ front = revisionKeyword) ∨
        ∃ c, Text.isWord c = false ∧ c :: revisionKeyword <:+ front := by
  induction front generalizing wordMayBegin with
  | nil =>
    refine iff_of_false Bool.false_ne_true ?_
    rintro (⟨-, hempty⟩ | ⟨c, -, hsuffix⟩)
    · exact revisionKeyword_ne_nil hempty.symm
    · exact List.cons_ne_nil c _ (List.suffix_nil.1 hsuffix)
  | cons c front ih =>
    rw [endsInRevision, Bool.or_eq_true, Bool.and_eq_true, beq_iff_eq, ih, Bool.not_eq_true']
    refine or_congr_right ?_
    constructor
    · rintro (⟨hc, rfl⟩ | ⟨d, hd, hsuffix⟩)
      · exact ⟨c, hc, List.suffix_rfl⟩
      · exact ⟨d, hd, hsuffix.trans (List.suffix_cons c front)⟩
    · rintro ⟨d, hd, hsuffix⟩
      rcases List.suffix_cons_iff.1 hsuffix with heq | hsuffix
      · obtain ⟨rfl, rfl⟩ := List.cons.inj heq
        exact Or.inl ⟨hd, rfl⟩
      · exact Or.inr ⟨d, hd, hsuffix⟩

/-- A part without the first letter of the keyword is passed over. -/
theorem revisionsFrom_append_of_notMem (wordMayBegin : Bool) (hfront : 'r' ∉ front) :
    revisionsFrom wordMayBegin (front ++ after) =
      revisionsFrom (wordMayFollow wordMayBegin front) after := by
  induction front generalizing wordMayBegin with
  | nil => rfl
  | cons c front ih =>
    rw [List.mem_cons, not_or] at hfront
    have hprefix : ¬ revisionKeyword <+: c :: (front ++ after) :=
      fun h => hfront.1 (List.cons_prefix_cons.1 h).1
    rw [List.cons_append, revisionsFrom, revisionAt_eq_none hprefix, ih _ hfront.2,
      Option.toList_none, ite_self, List.nil_append]
    rfl

/-- The last character of a part decides whether a word may begin behind it. -/
theorem wordMayFollow_concat (wordMayBegin : Bool) (front : List Char) (c : Char) :
    wordMayFollow wordMayBegin (front ++ [c]) = !Text.isWord c := by
  rw [wordMayFollow, List.foldl_append]
  rfl

variable {blanks : List Char}

theorem notMem_of_isBlank (hblanks : ∀ c ∈ blanks, Text.isBlank c = true) : 'r' ∉ blanks := by
  intro hmem
  have hblank := hblanks _ hmem
  revert hblank
  decide

/-- Blanks are passed over, and a word may begin behind them if one may begin with them. -/
theorem revisionsFrom_blanks_append (hblanks : ∀ c ∈ blanks, Text.isBlank c = true)
    (after : List Char) : revisionsFrom true (blanks ++ after) = revisionsFrom true after := by
  rw [revisionsFrom_append_of_notMem true (notMem_of_isBlank hblanks)]
  rcases List.eq_nil_or_concat blanks with rfl | ⟨front, c, rfl⟩
  · rfl
  · rw [List.concat_eq_append, wordMayFollow_concat, Text.isWord_of_isBlank]
    · rfl
    · exact hblanks c (by simp)

/-- Behind blanks and what breaks off words, a word may begin. -/
theorem revisionsFrom_append_cons_of_breaks {c : Char} (wordMayBegin : Bool)
    (hblanks : ∀ c ∈ blanks, Text.isBlank c = true) (hc : Breaks c) (after : List Char) :
    revisionsFrom wordMayBegin (blanks ++ c :: after) = revisionsFrom true after := by
  have hfront : 'r' ∉ blanks ++ [c] := by
    rw [List.mem_append, List.mem_singleton, not_or]
    refine ⟨notMem_of_isBlank hblanks, ?_⟩
    rintro rfl
    have hword := hc.not_word
    revert hword
    decide
  rw [List.append_cons, revisionsFrom_append_of_notMem wordMayBegin hfront, wordMayFollow_concat,
    hc.not_word]
  rfl

end

/-! ### The latest date -/

/-- **The latest of some dates**, if there are any. -/
def IsLatest (dates : List String) : Option String → Prop
  | none => dates = []
  | some date => date ∈ dates ∧ ∀ other ∈ dates, other ≤ date

/-- The latest of some dates is the latest of a part of them exactly if no date is later than all of
that part. -/
theorem IsLatest.iff_of_subset {dates part : List String} {found : Option String}
    (h : IsLatest dates found) (hpart : part ⊆ dates) :
    IsLatest part found ↔ ∀ date ∈ dates, ∃ other ∈ part, date ≤ other := by
  cases found with
  | none =>
    rw [IsLatest] at h
    rw [h] at hpart ⊢
    exact iff_of_true (List.subset_nil.1 hpart) fun date hdate => by cases hdate
  | some latest =>
    obtain ⟨hmem, hle⟩ := h
    constructor
    · rintro ⟨hlatest, -⟩ date hdate
      exact ⟨latest, hlatest, hle date hdate⟩
    · intro hbound
      obtain ⟨other, hother, hlatest⟩ := hbound latest hmem
      obtain rfl : latest = other := hlatest.antisymm (hle other (hpart hother))
      exact ⟨hother, fun date hdate => hle date (hpart hdate)⟩

/-- Each is compared with the best so far, which leaves the maximum. -/
theorem greatest?_eq_max? (dates : List String) : greatest? dates = dates.max? := by
  cases dates with
  | nil => rfl
  | cons first rest =>
    have hbest : (fun best next : String => if best < next then next else best) = max := by
      funext best next
      rw [max_def_lt]
    rw [greatest?, List.max?_cons', hbest]

/-- The greatest of some dates is the latest. -/
theorem isLatest_greatest? (dates : List String) : IsLatest dates (greatest? dates) := by
  rw [greatest?_eq_max?]
  cases h : dates.max? with
  | none => exact List.max?_eq_none_iff.1 h
  | some date => exact List.max?_eq_some_iff.1 h

end Source

end SchemaAssembly
