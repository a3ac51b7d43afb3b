import Mathlib
import SchemaAssembly.Json.Reader
import SchemaAssembly.Proofs.Results
import SchemaAssembly.Report.Listing

/-!
# What a listing says

A listing is read as the value it was written from (`JsonValue.read_write`): whatever the indentation
is, and whatever characters its texts hold. A value is written as its tokens, with nothing but blanks
between them, and each kind of token is read as it is written.

- `SchemaModel.exists_source_of_listing` says what the value of a listing holds for any base.
- `SchemaModel.read_listingReport` says what the listing of an assembled model reads as.
-/

namespace SchemaAssembly

/-! ### Characters and the units they are escaped as -/

theorem Text.hexValue?_hexDigit {n : Nat} (h : n < 16) : hexValue? (hexDigit n) = some n := by
  revert n
  decide

/-- Hexadecimal digits stand for the number they were made from, if it has no more of them. -/
theorem JsonToken.number?_hex {width n : Nat} (h : n < 16 ^ width) :
    number? (Text.hex width n) = some n := by
  induction width generalizing n with
  | zero =>
    obtain rfl : n = 0 := by simpa using h
    rfl
  | succ width ih =>
    have hhigh : n / 16 < 16 ^ width := by
      rw [pow_succ] at h
      omega
    rw [Text.hex, number?, List.foldlM_append, ← number?, ih hhigh]
    simp only [Option.bind_eq_bind, Option.bind_some, List.foldlM_cons, List.foldlM_nil,
      Text.hexValue?_hexDigit (Nat.mod_lt n (by decide : 0 < 16)), Option.map_some]
    rw [Option.pure_def, Nat.div_add_mod]

/-- A code point is no surrogate. -/
theorem toNat_cases (c : Char) :
    c.toNat < 0xD800 ∨ 0xDFFF < c.toNat ∧ c.toNat < 0x110000 :=
  c.valid

/-- The sixteen-bit units of a character. -/
def unitsOf (c : Char) : List Nat :=
  if c.toNat < 0x10000 then [c.toNat]
  else [0xD800 + (c.toNat - 0x10000) / 0x400, 0xDC00 + (c.toNat - 0x10000) % 0x400]

namespace JsonToken

theorem readUnits_escapedUnit {n : Nat} (h : n < 0x10000) (cs : List Char) :
    readUnits (JsonValue.escapedUnit n ++ cs) = (readUnits cs).map (withUnit n) := by
  have hdigits : number? (Text.hex 4 n) = some n := number?_hex h
  have hlength := Text.length_hex 4 n
  rw [JsonValue.escapedUnit, List.cons_append, List.cons_append]
  match Text.hex 4 n, hlength, hdigits with
  | [a, b, c, d], _, hdigits =>
    rw [List.cons_append, List.cons_append, List.cons_append, List.cons_append, List.nil_append,
      readUnits, hdigits, Option.bind_some]

theorem readUnits_of_plain {c : Char} (hquote : c ≠ '"') (hbackslash : c ≠ '\\') (hc : ' ' ≤ c)
    (cs : List Char) : readUnits (c :: cs) = (readUnits cs).map (withUnit c.toNat) := by
  rw [readUnits]
  · rw [if_neg]
    rintro (h | h)
    · exact hbackslash h
    · exact absurd hc (not_le_of_gt h)
  · exact hquote
  · exact fun _ _ _ _ _ h _ => hbackslash h
  · exact fun _ _ h _ => hbackslash h

/-- A character is read as it is written, as its units. -/
theorem readUnits_escapedChar (c : Char) (cs : List Char) :
    readUnits (JsonValue.escapedChar c ++ cs) =
      (readUnits cs).map fun p => (unitsOf c ++ p.1, p.2) := by
  rw [JsonValue.escapedChar]
  -- the characters with an escape of their own come first
  split
  · subst c
    rfl
  split
  · subst c
    rfl
  split
  · subst c
    rfl
  split
  · subst c
    rfl
  split
  · subst c
    rfl
  split
  · subst c
    rfl
  split
  · subst c
    rfl
  rename_i hquote hbackslash _ _ _ _ _
  split
  · rename_i hplain
    have hsmall : c.toNat < 0x10000 := Nat.lt_of_le_of_lt hplain.2 (by decide)
    rw [List.singleton_append, readUnits_of_plain hquote hbackslash hplain.1, unitsOf, if_pos hsmall]
    rfl
  split
  · rename_i hsmall
    rw [readUnits_escapedUnit hsmall, unitsOf, if_pos hsmall]
    rfl
  · rename_i hlarge
    have hcode := toNat_cases c
    rw [List.append_assoc, readUnits_escapedUnit (by omega), readUnits_escapedUnit (by omega),
      Option.map_map, unitsOf, if_neg hlarge]
    rfl

/-- The units of a character stand for it. -/
theorem ofUnits_unitsOf (c : Char) (units : List Nat) :
    ofUnits (unitsOf c ++ units) = (ofUnits units).map (c :: ·) := by
  have hcode := toNat_cases c
  rw [unitsOf]
  split
  · rw [List.singleton_append, ofUnits.eq_def]
    dsimp only
    rw [if_neg (by omega), if_neg (by omega), Char.ofNat_toNat]
  · have hpair : 0x10000 + (0x400 * (0xD800 + (c.toNat - 0x10000) / 0x400 - 0xD800) +
        (0xDC00 + (c.toNat - 0x10000) % 0x400 - 0xDC00)) = c.toNat := by
      omega
    rw [List.cons_append, List.singleton_append, ofUnits.eq_def]
    dsimp only
    rw [if_pos (by omega), if_pos (by omega), hpair, Char.ofNat_toNat]

/-- The units of characters stand for them. -/
theorem ofUnits_flatMap_unitsOf (cs : List Char) : ofUnits (cs.flatMap unitsOf) = some cs := by
  induction cs with
  | nil => rfl
  | cons c rest ih => rw [List.flatMap_cons, ofUnits_unitsOf, ih, Option.map_some]

/-- A string is read up to its end, as the units of its characters. -/
theorem readUnits_string (value cs : List Char) :
    readUnits (value.flatMap JsonValue.escapedChar ++ '"' :: cs) =
      some (value.flatMap unitsOf, cs) := by
  induction value with
  | nil => rfl
  | cons c rest ih =>
    rw [List.flatMap_cons, List.append_assoc, readUnits_escapedChar, ih, Option.map_some,
      List.flatMap_cons]

/-! ### Tokens -/

theorem ofChars_of_isBlank {c : Char} (h : isBlank c = true) (cs : List Char) :
    ofChars (c :: cs) = ofChars cs := by
  simp only [isBlank, Bool.or_eq_true, beq_iff_eq] at h
  rcases h with ((rfl | rfl) | rfl) | rfl <;> simp [ofChars, isBlank]

/-- Blanks before a token say nothing. -/
theorem ofChars_append_of_blanks {blanks : List Char} (h : ∀ c ∈ blanks, isBlank c = true)
    (cs : List Char) : ofChars (blanks ++ cs) = ofChars cs := by
  induction blanks with
  | nil => rfl
  | cons c rest ih =>
    rw [List.cons_append, ofChars_of_isBlank (h c List.mem_cons_self),
      ih fun d hd => h d (List.mem_cons_of_mem c hd)]

theorem ofChars_lineBreak (indent : Int) (depth : Nat) (cs : List Char) :
    ofChars (JsonValue.lineBreak indent depth ++ cs) = ofChars cs := by
  refine ofChars_append_of_blanks (fun c hc => ?_) cs
  rcases List.mem_cons.1 hc with rfl | hc
  · rfl
  · obtain rfl := List.eq_of_mem_replicate hc
    rfl

/-- A text is one token. -/
theorem ofChars_writeText (value : String) (cs : List Char) :
    ofChars (JsonValue.writeText value ++ cs) = (ofChars cs).map (text value :: ·) := by
  rw [JsonValue.writeText, List.cons_append, List.cons_append, List.append_assoc,
    List.singleton_append, ofChars]
  split
  · rename_i hnone
    rw [readUnits_string] at hnone
    cases hnone
  · rename_i units after hstring
    rw [readUnits_string] at hstring
    cases hstring
    rw [ofUnits_flatMap_unitsOf]
    cases ofChars cs with
    | none => rfl
    | some tokens => simp [String.ofList_toList]

end JsonToken

namespace JsonValue

open JsonToken

mutual

/-- The tokens of a value. -/
def tokens : JsonValue → List JsonToken
  | null => [.null]
  | bool value => [.bool value]
  | text value => [.text value]
  | list [] => [.openList, .closeList]
  | list (item :: rest) => .openList :: item.tokens ++ itemTokens rest ++ [.closeList]
  | object [] => [.openObject, .closeObject]
  | object ((name, value) :: rest) =>
    .openObject :: .text name :: .colon :: value.tokens ++ memberTokens rest ++ [.closeObject]

/-- The tokens of the items of a list after the first. -/
def itemTokens : List JsonValue → List JsonToken
  | [] => []
  | item :: rest => .comma :: item.tokens ++ itemTokens rest

/-- The tokens of the members of an object after the first. -/
def memberTokens : List (String × JsonValue) → List JsonToken
  | [] => []
  | (name, value) :: rest => .comma :: .text name :: .colon :: value.tokens ++ memberTokens rest

end

mutual

/-- **A value is written as its tokens.** -/
theorem ofChars_writeAt (indent : Int) (depth : Nat) (cs : List Char) : (value : JsonValue) →
    ofChars (writeAt indent depth value ++ cs) = (ofChars cs).map (value.tokens ++ ·)
  | null => by
    rw [writeAt, tokens]
    exact ofChars.eq_8 cs
  | bool true => by
    rw [writeAt, tokens]
    exact ofChars.eq_9 cs
  | bool false => by
    rw [writeAt, tokens]
    exact ofChars.eq_10 cs
  | text value => by
    rw [writeAt, ofChars_writeText, tokens]
    rfl
  | list [] => by
    rw [writeAt, tokens, List.cons_append, List.singleton_append, ofChars, ofChars, Option.map_map]
    rfl
  | list (item :: rest) => by
    simp only [writeAt, tokens, List.cons_append, List.append_assoc, List.nil_append]
    rw [ofChars, ofChars_lineBreak, ofChars_writeAt, ofChars_writeItems, ofChars_lineBreak, ofChars]
    simp only [Option.map_map]
    rfl
  | object [] => by
    rw [writeAt, tokens, List.cons_append, List.singleton_append, ofChars, ofChars, Option.map_map]
    rfl
  | object ((name, value) :: rest) => by
    simp only [writeAt, tokens, List.cons_append, List.append_assoc, List.nil_append]
    rw [ofChars, ofChars_lineBreak, ofChars_writeText, ofChars, ofChars_of_isBlank rfl,
      ofChars_writeAt, ofChars_writeMembers, ofChars_lineBreak, ofChars]
    simp only [Option.map_map]
    rfl

theorem ofChars_writeItems (indent : Int) (depth : Nat) (cs : List Char) :
    (items : List JsonValue) →
      ofChars (writeItems indent depth items ++ cs) = (ofChars cs).map (itemTokens items ++ ·)
  | [] => by
    rw [writeItems, itemTokens]
    exact Option.map_id'.symm
  | item :: rest => by
    simp only [writeItems, itemTokens, List.cons_append, List.append_assoc]
    rw [ofChars, ofChars_lineBreak, ofChars_writeAt, ofChars_writeItems]
    simp only [Option.map_map]
    rfl

theorem ofChars_writeMembers (indent : Int) (depth : Nat) (cs : List Char) :
    (members : List (String × JsonValue)) →
      ofChars (writeMembers indent depth members ++ cs) =
        (ofChars cs).map (memberTokens members ++ ·)
  | [] => by
    rw [writeMembers, memberTokens]
    exact Option.map_id'.symm
  | (name, value) :: rest => by
    simp only [writeMembers, memberTokens, List.cons_append, List.append_assoc, List.nil_append]
    rw [ofChars, ofChars_lineBreak, ofChars_writeText, ofChars, ofChars_of_isBlank rfl,
      ofChars_writeAt, ofChars_writeMembers]
    simp only [Option.map_map]
    rfl

end

/-- The first token of a value closes nothing. -/
theorem exists_tokens_eq_cons (value : JsonValue) :
    ∃ token rest, value.tokens = token :: rest ∧ token ≠ .closeList ∧ token ≠ .closeObject := by
  match value with
  | null => exact ⟨.null, [], tokens.eq_1, nofun, nofun⟩
  | bool value => exact ⟨.bool value, [], tokens.eq_2 value, nofun, nofun⟩
  | text value => exact ⟨.text value, [], tokens.eq_3 value, nofun, nofun⟩
  | list [] => exact ⟨.openList, _, tokens.eq_4, nofun, nofun⟩
  | list (item :: rest) => exact ⟨.openList, _, tokens.eq_5 item rest, nofun, nofun⟩
  | object [] => exact ⟨.openObject, _, tokens.eq_6, nofun, nofun⟩
  | object ((name, value) :: rest) =>
    exact ⟨.openObject, _, tokens.eq_7 name value rest, nofun, nofun⟩

section Reading

variable {tokens rest after : List JsonToken} {item value : JsonValue} {items : List JsonValue}
  {name : String} {members : List (String × JsonValue)} {n k : Nat}

theorem readItems_of_closeList (hitem : readValue tokens = some (item, n))
    (hafter : tokens.drop n = .closeList :: after) :
    readItems tokens = some ([item], n + 1) := by
  rw [readItems, hitem]
  simp only [Option.bind_eq_bind, Option.bind_some]
  split <;> simp_all

theorem readItems_of_comma (hitem : readValue tokens = some (item, n))
    (hafter : tokens.drop n = .comma :: rest) (hitems : readItems rest = some (items, k)) :
    readItems tokens = some (item :: items, n + 1 + k) := by
  rw [readItems, hitem]
  simp only [Option.bind_eq_bind, Option.bind_some]
  split <;> simp_all

theorem readMembers_of_closeObject (hvalue : readValue tokens = some (value, n))
    (hafter : tokens.drop n = .closeObject :: after) :
    readMembers (.text name :: .colon :: tokens) = some ([(name, value)], n + 3) := by
  rw [readMembers, hvalue]
  simp only [Option.bind_eq_bind, Option.bind_some]
  split <;> simp_all

theorem readMembers_of_comma (hvalue : readValue tokens = some (value, n))
    (hafter : tokens.drop n = .comma :: rest) (hmembers : readMembers rest = some (members, k)) :
    readMembers (.text name :: .colon :: tokens) = some ((name, value) :: members, n + 3 + k) := by
  rw [readMembers, hvalue]
  simp only [Option.bind_eq_bind, Option.bind_some]
  split <;> simp_all

end Reading

mutual

/-- **A value is read from its tokens**, whatever follows them. -/
theorem readValue_tokens (after : List JsonToken) : (value : JsonValue) →
    readValue (value.tokens ++ after) = some (value, value.tokens.length)
  | null => by
    rw [tokens, List.singleton_append, readValue]
    rfl
  | bool value => by
    rw [tokens, List.singleton_append, readValue]
    rfl
  | text value => by
    rw [tokens, List.singleton_append, readValue]
    rfl
  | list [] => by
    rw [tokens, List.cons_append, List.singleton_append, readValue]
    rfl
  | list (item :: rest) => by
    have hitems := readItems_tokens after item rest
    obtain ⟨token, more, hcons, hopen, -⟩ := exists_tokens_eq_cons item
    simp only [tokens, List.append_assoc, List.cons_append, List.nil_append] at hitems ⊢
    rw [readValue, hitems]
    · simp [Nat.add_assoc]
    · intro cs hcs
      rw [hcons] at hcs
      exact hopen (List.cons.inj hcs).1
  | object [] => by
    rw [tokens, List.cons_append, List.singleton_append, readValue]
    rfl
  | object ((name, value) :: rest) => by
    have hmembers := readMembers_tokens after name value rest
    simp only [tokens, List.append_assoc, List.cons_append, List.nil_append] at hmembers ⊢
    rw [readValue, hmembers]
    · simp [Nat.add_assoc]
    · intro cs hcs
      cases hcs
termination_by value => sizeOf value

theorem readItems_tokens (after : List JsonToken) (item : JsonValue) : (rest : List JsonValue) →
    readItems (item.tokens ++ itemTokens rest ++ .closeList :: after) =
      some (item :: rest, (item.tokens ++ itemTokens rest).length + 1)
  | [] => by
    rw [itemTokens, List.append_nil]
    exact readItems_of_closeList (readValue_tokens _ item) List.drop_left
  | next :: rest => by
    have hrest := readItems_tokens after next rest
    simp only [itemTokens, List.append_assoc, List.cons_append] at hrest ⊢
    rw [readItems_of_comma (readValue_tokens _ item) List.drop_left hrest]
    simp only [List.length_append, List.length_cons, Option.some.injEq, Prod.mk.injEq, true_and]
    omega
termination_by rest => sizeOf item + sizeOf rest + 1

theorem readMembers_tokens (after : List JsonToken) (name : String) (value : JsonValue) :
    (rest : List (String × JsonValue)) →
      readMembers (.text name :: .colon :: value.tokens ++ memberTokens rest ++
          .closeObject :: after) =
        some ((name, value) :: rest, (value.tokens ++ memberTokens rest).length + 3)
  | [] => by
    simp only [memberTokens, List.append_nil, List.cons_append]
    exact readMembers_of_closeObject (readValue_tokens _ value) List.drop_left
  | (next, nextValue) :: rest => by
    have hrest := readMembers_tokens after next nextValue rest
    simp only [memberTokens, List.append_assoc, List.cons_append] at hrest ⊢
    rw [readMembers_of_comma (readValue_tokens _ value) List.drop_left hrest]
    simp only [List.length_append, List.length_cons, Option.some.injEq, Prod.mk.injEq, true_and]
    omega
termination_by rest => sizeOf value + sizeOf rest + 1

end

/-- **Reading what has been written** gives the value back, however it is indented. -/
theorem read_write (indent : Int) (value : JsonValue) : read (value.write indent) = some value := by
  have hchars : ofChars (writeAt indent 0 value) = some value.tokens := by
    have h := ofChars_writeAt indent 0 [] value
    rw [List.append_nil, ofChars, Option.map_some, List.append_nil] at h
    exact h
  have hvalue : readValue value.tokens = some (value, value.tokens.length) := by
    have h := readValue_tokens [] value
    rwa [List.append_nil] at h
  rw [read, write, String.toList_ofList, hchars]
  simp only [Option.bind_eq_bind, Option.bind_some, hvalue, if_true]

end JsonValue

/-! ### Units in a listing -/

/-- What a listing says of a unit, given how its source is shown and whether it is tested. -/
def SchemaUnit.entry (u : SchemaUnit) (source : Option String) (tested : Bool) : JsonValue :=
  .object
    [("name", .text u.name),
     ("revision", .ofText? u.revision),
     ("kind", .text u.kind),
     ("source", .ofText? source),
     ("tested", .bool tested),
     ("imports", .ofTexts u.imports),
     ("includes", .ofTexts u.includes),
     ("definitions", .ofTexts u.definitions)]

/-- A path as it is shown without a base: backslashes become slashes. -/
def Path.slashed (p : Path) : String :=
  p.text.map fun c => if c = '\\' then '/' else c

namespace SchemaModel

variable {m : SchemaModel} {t : FileTree} {tested : List String} {base : Option Path}

/-- A flag changes nothing else of what is listed. -/
theorem listed_flag (names : List String) (u : SchemaUnit) :
    (flag names u).listed t base =
      (u.source.mapM (t.listedSource base)).map fun source =>
        u.entry source (names.contains u.name || u.tested) := by
  rw [flag]
  cases names.contains u.name with
  | true =>
    rw [if_pos rfl, Bool.true_or]
    rfl
  | false =>
    rw [if_neg Bool.false_ne_true, Bool.false_or]
    rfl

/-- Without a base every source is shown as it is spelled. -/
theorem mapM_listedSource_none (source : Option Path) :
    source.mapM (t.listedSource none) = .ok (source.map Path.slashed) := by
  cases source with
  | none => rfl
  | some p => rfl

/-- **What a listing holds**, if there is one: all units in model order, and the tested names that have
units. -/
theorem exists_source_of_listing {value : JsonValue} (h : m.listing t tested base = .ok value) :
    ∃ source : SchemaUnit → Option String, value = .object
      [("units", .list (m.units.map fun u =>
        u.entry (source u) (tested.contains u.name || u.tested))),
       ("tested", .ofTexts ((sortedSet tested).filter m.contains))] := by
  refine ⟨fun u => ((u.source.mapM (t.listedSource base)).toOption).join, ?_⟩
  rw [listing, tagged, List.mapM_map, Function.comp_def] at h
  obtain ⟨units, hunits, hvalue⟩ := exists_of_bind_eq_ok h
  cases hvalue
  rw [eq_map_of_mapM_eq_ok _ hunits]
  intro u entry hentry
  rw [listed_flag] at hentry
  obtain ⟨source, hsource, hentry⟩ := exists_of_bind_eq_ok hentry
  cases hentry
  dsimp only
  rw [hsource]
  rfl

/-- **There is a listing** if every source can be shown. -/
theorem listing_eq_ok {source : SchemaUnit → Option String}
    (h : ∀ u ∈ m.units, u.source.mapM (t.listedSource base) = .ok (source u)) :
    m.listing t tested base = .ok (.object
      [("units", .list (m.units.map fun u =>
        u.entry (source u) (tested.contains u.name || u.tested))),
       ("tested", .ofTexts ((sortedSet tested).filter m.contains))]) := by
  have hunits : m.units.mapM (fun u => (flag tested u).listed t base) =
      .ok (m.units.map fun u => u.entry (source u) (tested.contains u.name || u.tested)) := by
    refine mapM_eq_ok_map fun u hu => ?_
    rw [listed_flag, h u hu]
    rfl
  rw [listing, tagged, List.mapM_map, Function.comp_def, hunits]
  rfl

/-- Without a base there always is one. -/
theorem listing_none (hm : ∀ u ∈ m.units, u.tested = false) :
    m.listing t tested none = .ok (.object
      [("units", .list (m.units.map fun u =>
        u.entry (u.source.map Path.slashed) (tested.contains u.name))),
       ("tested", .ofTexts ((sortedSet tested).filter m.contains))]) := by
  have hflags : (m.units.map fun u =>
      u.entry (u.source.map Path.slashed) (tested.contains u.name || u.tested)) =
      m.units.map fun u => u.entry (u.source.map Path.slashed) (tested.contains u.name) :=
    List.map_congr_left fun u hu => by rw [hm u hu, Bool.or_false]
  rw [listing_eq_ok fun u _ => mapM_listedSource_none u.source, hflags]

/-- **A listing reads as the model it was made from.** Units that an assembly makes are untested, and
their flags in the listing agree with its tested names: these are ascending, and they are the names
given that have units. -/
theorem read_listingReport (hm : ∀ u ∈ m.units, u.tested = false) (t : FileTree)
    (tested : List String) (indent : Int) :
    ∃ text names, m.listingReport t tested none indent = .ok text ∧
      JsonValue.read text = some (.object
        [("units", .list (m.units.map fun u => .object
          [("name", .text u.name),
           ("revision", .ofText? u.revision),
           ("kind", .text u.kind),
           ("source", .ofText? (u.source.map Path.slashed)),
           ("tested", .bool (names.contains u.name)),
           ("imports", .ofTexts u.imports),
           ("includes", .ofTexts u.includes),
           ("definitions", .ofTexts u.definitions)])),
         ("tested", .ofTexts names)]) ∧
      names.Pairwise (· < ·) ∧
      ∀ name, name ∈ names ↔ name ∈ tested ∧ ∃ u ∈ m.units, u.name = name := by
  let names := (sortedSet tested).filter m.contains
  have hnames : ∀ name, name ∈ names ↔ name ∈ tested ∧ ∃ u ∈ m.units, u.name = name := by
    intro name
    rw [List.mem_filter, mem_sortedSet, contains_iff]
  -- every unit has a name with a unit, so its flag says whether its name is listed as tested
  have hflags : ∀ u ∈ m.units, tested.contains u.name = names.contains u.name := by
    intro u hu
    rw [Bool.eq_iff_iff, List.contains_iff_mem, List.contains_iff_mem, hnames]
    exact ⟨fun h => ⟨h, u, hu, rfl⟩, fun h => h.1⟩
  have hunits : (m.units.map fun u =>
      u.entry (u.source.map Path.slashed) (tested.contains u.name)) =
      m.units.map fun u => u.entry (u.source.map Path.slashed) (names.contains u.name) :=
    List.map_congr_left fun u hu => by rw [hflags u hu]
  refine ⟨_, names, ?_, JsonValue.read_write indent _, (pairwise_lt_sortedSet tested).filter _, hnames⟩
  rw [listingReport, listing_none hm, hunits]
  rfl

/-- Two revisions of a unit and another one, with characters that are escaped in a listing. -/
def escapedUnits : SchemaModel where
  units :=
    [{ name := "a\"b", revision := some "2020-01-01", source := some ⟨.root, ["x", "a\\b.yang"]⟩ },
     { name := "a\"b", revision := some "2024-01-01", imports := ["c\n"], definitions := ["😀", "\x01"] },
     { name := "ä", kind := "submodule", includes := ["a\"b", "a\"b"] }]
  ordered := by decide

theorem read_listingReport_escapedUnits :
    (∀ u ∈ escapedUnits.units, u.tested = false) ∧
    ∃ text names,
      escapedUnits.listingReport ⟨[], []⟩ ["zz", "a\"b", "a\"b"] none (-1) = .ok text ∧
      JsonValue.read text = some (.object
        [("units", .list
          [.object
            [("name", .text "a\"b"), ("revision", .text "2020-01-01"), ("kind", .text "module"),
             ("source", .text "/x/a/b.yang"), ("tested", .bool (names.contains "a\"b")),
             ("imports", .list []), ("includes", .list []), ("definitions", .list [])],
           .object
            [("name", .text "a\"b"), ("revision", .text "2024-01-01"), ("kind", .text "module"),
             ("source", .null), ("tested", .bool (names.contains "a\"b")),
             ("imports", .list [.text "c\n"]), ("includes", .list []),
             ("definitions", .list [.text "😀", .text "\x01"])],
           .object
            [("name", .text "ä"), ("revision", .null), ("kind", .text "submodule"),
             ("source", .null), ("tested", .bool (names.contains "ä")),
             ("imports", .list []), ("includes", .list [.text "a\"b", .text "a\"b"]),
             ("definitions", .list [])]]),
         ("tested", .ofTexts names)]) ∧
      "a\"b" ∈ names ∧ "zz" ∉ names ∧ "ä" ∉ names := by
  have huntested : ∀ u ∈ escapedUnits.units, u.tested = false := by decide
  obtain ⟨text, names, htext, hread, -, hnames⟩ :=
    read_listingReport huntested ⟨[], []⟩ ["zz", "a\"b", "a\"b"] (-1)
  refine ⟨huntested, text, names, htext, ?_, ?_, ?_, ?_⟩
  · rw [hread]
    have hshown : Path.slashed ⟨.root, ["x", "a\\b.yang"]⟩ = "/x/a/b.yang" := by decide +kernel
    simp [escapedUnits, JsonValue.ofText?, JsonValue.ofTexts, hshown]
  · rw [hnames]
    decide
  · rw [hnames]
    decide
  · rw [hnames]
    decide

end SchemaModel

end SchemaAssembly
