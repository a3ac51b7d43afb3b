import Mathlib
import SchemaAssembly.Report.Facts

/-!
# Lines and words

A text put together from lines and words is taken apart again: lines that hold no line feed are the
fields between line feeds (`filterMap_fields_joinLines`), and texts without a blank in them are the
words between blanks (`wordsOf_intercalate`).
-/

namespace SchemaAssembly.Text

variable {α : Type} {f : String → Option α}

/-! ### Lines -/

/-- What is taken from the lines of a text, empty lines apart. -/
theorem filterMap_fields_joinLines (hempty : f "" = none) {lines : List String}
    (h : ∀ line ∈ lines, '\n' ∉ line.toList) :
    (fields '\n' (joinLines lines)).filterMap f = lines.filterMap f := by
  cases lines with
  | nil =>
    rw [joinLines, String.intercalate_nil, fields_of_not_mem (by simp),
      List.filterMap_cons_none hempty]
  | cons line rest =>
    have hfields : fields '\n' (joinLines (line :: rest)) = line :: rest :=
      fields_intercalate (List.cons_ne_nil line rest) h
    rw [hfields]

/-- The first line is left out by its length. -/
theorem ofList_drop_joinLines (first : String) (rest : List String) :
    String.ofList ((joinLines (first :: rest)).toList.drop first.length) =
      joinLines ("" :: rest) := by
  cases rest with
  | nil => simp [joinLines, String.length_toList]
  | cons line rest =>
    rw [joinLines, String.intercalate_cons_cons, String.append_assoc, String.toList_append,
      ← String.length_toList, List.drop_left, String.ofList_toList, joinLines,
      String.intercalate_cons_cons, String.empty_append]

section

variable {β : Type} {separator : β}

/-- What is made of blocks with a separator between them. -/
theorem map_intercalate (g : β → α) (blocks : List (List β)) :
    ([separator].intercalate blocks).map g =
      [g separator].intercalate (blocks.map (List.map g)) := by
  induction blocks with
  | nil => rfl
  | cons block rest ih =>
    cases rest with
    | nil => simp
    | cons next rest => simpa [List.intercalate_cons_cons] using ih

/-- Nothing is taken from the separators between blocks. -/
theorem filterMap_intercalate {g : β → Option α} (hseparator : g separator = none)
    (blocks : List (List β)) :
    ([separator].intercalate blocks).filterMap g = blocks.flatMap (·.filterMap g) := by
  induction blocks with
  | nil => rfl
  | cons block rest ih =>
    cases rest with
    | nil => simp
    | cons next rest =>
      rw [List.flatMap_cons, ← ih, List.intercalate_cons_cons, List.filterMap_append,
        List.filterMap_append, List.filterMap_cons_none hseparator, List.filterMap_nil,
        List.append_nil]

/-- What stands there are the elements of the blocks, and separators. -/
theorem eq_or_mem_of_mem_intercalate {blocks : List (List β)} {b : β}
    (h : b ∈ [separator].intercalate blocks) : b = separator ∨ ∃ block ∈ blocks, b ∈ block := by
  induction blocks with
  | nil => cases h
  | cons block rest ih =>
    cases rest with
    | nil =>
      rw [List.intercalate_singleton] at h
      exact Or.inr ⟨block, List.mem_cons_self, h⟩
    | cons next rest =>
      rw [List.intercalate_cons_cons, List.mem_append, List.mem_append, List.mem_singleton] at h
      rcases h with (h | h) | h
      · exact Or.inr ⟨block, List.mem_cons_self, h⟩
      · exact Or.inl h
      · refine (ih h).imp_right fun hblock => ?_
        obtain ⟨other, hother, hmem⟩ := hblock
        exact ⟨other, List.mem_cons_of_mem block hother, hmem⟩

end

/-! ### Words -/

/-- Whether a text holds no blank. -/
def isUnbroken (text : String) : Bool :=
  text.toList.all (!isBlank ·)

/-- Whether a text is one word. -/
def isOneWord (text : String) : Bool :=
  text != "" && isUnbroken text

theorem isUnbroken_iff {text : String} :
    isUnbroken text = true ↔ ∀ c ∈ text.toList, isBlank c = false := by
  simp [isUnbroken]

theorem isOneWord_iff {text : String} :
    isOneWord text = true ↔ text ≠ "" ∧ ∀ c ∈ text.toList, isBlank c = false := by
  rw [isOneWord, Bool.and_eq_true, bne_iff_ne, isUnbroken_iff]

theorem isUnbroken_of_isOneWord {text : String} (h : isOneWord text = true) :
    isUnbroken text = true :=
  (Bool.and_eq_true_iff.1 h).2

/-- A word may be continued. -/
theorem isOneWord_append {x y : String} (hx : isOneWord x = true) (hy : isUnbroken y = true) :
    isOneWord (x ++ y) = true := by
  rw [isOneWord_iff] at hx ⊢
  refine ⟨fun h => hx.1 (String.append_eq_empty_iff.1 h).1, fun c hc => ?_⟩
  rw [String.toList_append, List.mem_append] at hc
  exact hc.elim (hx.2 c) (isUnbroken_iff.1 hy c)

theorem go_append (word cs : List Char) {w : List Char} (h : ∀ c ∈ w, isBlank c = false) :
    wordsOf.go word (w ++ cs) = wordsOf.go (w.reverse ++ word) cs := by
  induction w generalizing word with
  | nil => rfl
  | cons c rest ih =>
    rw [List.cons_append, wordsOf.go, h c List.mem_cons_self, if_neg Bool.false_ne_true,
      ih (c :: word) fun d hd => h d (List.mem_cons_of_mem c hd), List.reverse_cons,
      List.append_assoc, List.singleton_append]

/-- Behind a word that has begun every other word comes after a blank. -/
theorem go_flatMap (word : List Char) {words : List String}
    (h : ∀ w ∈ words, isOneWord w = true) :
    wordsOf.go word (words.flatMap fun w => ' ' :: w.toList) = wordsOf.finish word ++ words := by
  induction words generalizing word with
  | nil => rw [List.flatMap_nil, wordsOf.go, List.append_nil]
  | cons w rest ih =>
    obtain ⟨hne, hblank⟩ := isOneWord_iff.1 (h w List.mem_cons_self)
    have hfinish : wordsOf.finish w.toList.reverse = [w] := by
      rw [wordsOf.finish, if_neg (by simpa using hne), List.reverse_reverse, String.ofList_toList]
    rw [List.flatMap_cons, List.cons_append, wordsOf.go, if_pos (by decide),
      go_append [] _ hblank, List.append_nil, ih _ fun v hv => h v (List.mem_cons_of_mem w hv),
      hfinish, List.singleton_append]

/-- Every text after the first comes after a separator. -/
theorem toList_intercalate_cons (separator w : String) (words : List String) :
    (separator.intercalate (w :: words)).toList =
      w.toList ++ words.flatMap fun w => separator.toList ++ w.toList := by
  induction words generalizing w with
  | nil => simp
  | cons v rest ih =>
    rw [String.intercalate_cons_cons, String.toList_append, String.toList_append, ih v,
      List.flatMap_cons]
    simp

/-- **Words are told apart by blanks.** -/
theorem wordsOf_intercalate {words : List String} (h : ∀ w ∈ words, isOneWord w = true) :
    wordsOf (" ".intercalate words) = words := by
  cases words with
  | nil => rfl
  | cons w rest =>
    -- a first word that is empty but begun is the same as a blank before it
    have hblank : wordsOf (" ".intercalate (w :: rest)) =
        wordsOf.go [] ((w :: rest).flatMap fun w => ' ' :: w.toList) := by
      rw [wordsOf, toList_intercalate_cons, List.flatMap_cons, List.cons_append, wordsOf.go,
        if_pos (by decide)]
      rfl
    rw [hblank, go_flatMap [] h]
    rfl

/-- Blanks before the first word say nothing. -/
theorem wordsOf_append {blanks : String} (h : blanks.toList.all isBlank = true) (text : String) :
    wordsOf (blanks ++ text) = wordsOf text := by
  rw [wordsOf, String.toList_append, wordsOf]
  generalize blanks.toList = cs at h
  induction cs with
  | nil => rfl
  | cons c rest ih =>
    rw [List.all_cons, Bool.and_eq_true] at h
    rw [List.cons_append, wordsOf.go, if_pos h.1, ← ih h.2]
    rfl

theorem lineFeed_not_mem_of_isOneWord {text : String} (h : isOneWord text = true) :
    '\n' ∉ text.toList := by
  intro hmem
  have hblank := (isOneWord_iff.1 h).2 '\n' hmem
  exact absurd hblank (by decide)

/-- Words make one line. -/
theorem lineFeed_not_mem_intercalate {words : List String} (h : ∀ w ∈ words, isOneWord w = true) :
    '\n' ∉ (" ".intercalate words).toList := by
  cases words with
  | nil => exact List.not_mem_nil
  | cons w rest =>
    rw [toList_intercalate_cons, List.mem_append, List.mem_flatMap]
    rintro (hmem | ⟨v, hv, hmem⟩)
    · exact lineFeed_not_mem_of_isOneWord (h w List.mem_cons_self) hmem
    · rcases List.mem_cons.1 hmem with heq | hmem
      · exact absurd heq (by decide)
      · exact lineFeed_not_mem_of_isOneWord (h v (List.mem_cons_of_mem w hv)) hmem

/-! ### Identifiers -/

/-- Whether an identifier may go on with a character. -/
def continuesIdentifier (c : Char) : Bool :=
  c.isAlphanum || c == '_' || c == '.' || c == '-'

/-- Whether a text is an identifier: it starts with a letter or an underscore and goes on with
letters, digits, underscores, points and hyphens. -/
def isIdentifier (text : String) : Bool :=
  match text.toList with
  | [] => false
  | c :: rest => (c.isAlpha || c == '_') && rest.all continuesIdentifier

theorem isBlank_of_continuesIdentifier {c : Char} (h : continuesIdentifier c = true) :
    isBlank c = false := by
  simp only [continuesIdentifier, Bool.or_eq_true, beq_iff_eq] at h
  rcases h with ((h | rfl) | rfl) | rfl
  · exact isBlank_of_isAlphanum h
  · decide
  · decide
  · decide

section

variable {text : String} (h : isIdentifier text = true)

include h

theorem exists_first_of_isIdentifier :
    ∃ c rest, text.toList = c :: rest ∧ (c.isAlpha || c == '_') = true := by
  rw [isIdentifier] at h
  split at h
  · cases h
  · rename_i c rest hchars
    exact ⟨c, rest, hchars, (Bool.and_eq_true_iff.1 h).1⟩

theorem continuesIdentifier_of_mem {c : Char} (hc : c ∈ text.toList) :
    continuesIdentifier c = true := by
  rw [isIdentifier] at h
  split at h
  · cases h
  · rename_i first rest hchars
    obtain ⟨hfirst, hrest⟩ := Bool.and_eq_true_iff.1 h
    rw [hchars] at hc
    rcases List.mem_cons.1 hc with rfl | hc
    · rw [continuesIdentifier, Char.isAlphanum]
      rcases Bool.or_eq_true_iff.1 hfirst with h | h <;> simp [h]
    · exact List.all_eq_true.1 hrest c hc

theorem isOneWord_of_isIdentifier : isOneWord text = true := by
  obtain ⟨c, rest, hchars, -⟩ := exists_first_of_isIdentifier h
  refine isOneWord_iff.2 ⟨?_, fun d hd => ?_⟩
  · rintro rfl
    cases hchars
  · exact isBlank_of_continuesIdentifier (continuesIdentifier_of_mem h hd)

/-- A character that no identifier goes on with is in none. -/
theorem not_mem_of_isIdentifier {c : Char} (hc : continuesIdentifier c = false) :
    c ∉ text.toList := by
  intro hmem
  rw [continuesIdentifier_of_mem h hmem] at hc
  cases hc

end

end SchemaAssembly.Text
