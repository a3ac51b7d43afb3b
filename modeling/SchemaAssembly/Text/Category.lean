import SchemaAssembly.Text.Blank
import SchemaAssembly.Text.Digit
import SchemaAssembly.Text.LowerCase
import SchemaAssembly.Text.Printable
import SchemaAssembly.Text.Word

/-!
# Categories of characters

A character is a letter, a mark, a number, punctuation, a symbol, a separator or something else, and
the second letter of its category says of which kind. Among the first 256 characters all kinds are
told apart; beyond them letters with and without a case, digits, marks and blanks are, and what else
can be printed is a symbol.

- `category` is the category of a character.
- `blockOf?` is the row of characters that has a name.
-/

namespace SchemaAssembly.Text

/-- The last characters of the runs that the first 256 characters make up, with the category of each
run. -/
def firstCategories : List (Nat × String) :=
  [(31, "Cc"), (32, "Zs"), (35, "Po"), (36, "Sc"), (39, "Po"), (40, "Ps"), (41, "Pe"), (42, "Po"),
   (43, "Sm"), (44, "Po"), (45, "Pd"), (47, "Po"), (57, "Nd"), (59, "Po"), (62, "Sm"), (64, "Po"),
   (90, "Lu"), (91, "Ps"), (92, "Po"), (93, "Pe"), (94, "Sk"), (95, "Pc"), (96, "Sk"),
   (122, "Ll"), (123, "Ps"), (124, "Sm"), (125, "Pe"), (126, "Sm"), (159, "Cc"), (160, "Zs"),
   (161, "Po"), (165, "Sc"), (166, "So"), (167, "Po"), (168, "Sk"), (169, "So"), (170, "Lo"),
   (171, "Pi"), (172, "Sm"), (173, "Cf"), (174, "So"), (175, "Sk"), (176, "So"), (177, "Sm"),
   (179, "No"), (180, "Sk"), (181, "Ll"), (183, "Po"), (184, "Sk"), (185, "No"), (186, "Lo"),
   (187, "Pf"), (190, "No"), (191, "Po"), (214, "Lu"), (215, "Sm"), (222, "Lu"), (246, "Ll"),
   (247, "Sm"), (255, "Ll")]

/-- **The category of a character.** -/
def category (c : Char) : String :=
  let code := c.toNat
  match firstCategories.find? fun run => code ≤ run.1 with
  | some (_, category) => category
  | none =>
    if capitalRuns.any (·.covers code) then "Lu"
    else if casedIntervals.covers code then "Ll"
    else if isDecimal c then "Nd"
    else if isWord c then "Lo"
    else if ignorableIntervals.covers code then "Mn"
    else if isBlank c then "Zs"
    else if isPrintable c then "So"
    else "Cn"

/-- The kinds of characters that the first letter of a category stands for, each with the second
letters that it can have. -/
def categoryKinds : List (Char × String) :=
  [('L', "ultmo"), ('M', "nce"), ('N', "dlo"), ('P', "cdseifo"), ('Z', "slp"), ('S', "mcko"),
    ('C', "cfon")]

/-- Rows of characters that have names. -/
def blocks : List (String × Nat × Nat) :=
  [("BasicLatin", 0x0, 0x7F), ("Latin-1Supplement", 0x80, 0xFF),
   ("LatinExtended-A", 0x100, 0x17F), ("LatinExtended-B", 0x180, 0x24F),
   ("IPAExtensions", 0x250, 0x2AF), ("SpacingModifierLetters", 0x2B0, 0x2FF),
   ("CombiningDiacriticalMarks", 0x300, 0x36F), ("Greek", 0x370, 0x3FF),
   ("GreekandCoptic", 0x370, 0x3FF), ("Cyrillic", 0x400, 0x4FF), ("Armenian", 0x530, 0x58F),
   ("Hebrew", 0x590, 0x5FF), ("Arabic", 0x600, 0x6FF), ("Devanagari", 0x900, 0x97F),
   ("Thai", 0xE00, 0xE7F), ("Georgian", 0x10A0, 0x10FF), ("HangulJamo", 0x1100, 0x11FF),
   ("LatinExtendedAdditional", 0x1E00, 0x1EFF), ("GreekExtended", 0x1F00, 0x1FFF),
   ("GeneralPunctuation", 0x2000, 0x206F), ("SuperscriptsandSubscripts", 0x2070, 0x209F),
   ("CurrencySymbols", 0x20A0, 0x20CF), ("LetterlikeSymbols", 0x2100, 0x214F),
   ("NumberForms", 0x2150, 0x218F), ("Arrows", 0x2190, 0x21FF),
   ("MathematicalOperators", 0x2200, 0x22FF), ("MiscellaneousTechnical", 0x2300, 0x23FF),
   ("BoxDrawing", 0x2500, 0x257F), ("BlockElements", 0x2580, 0x259F),
   ("GeometricShapes", 0x25A0, 0x25FF), ("MiscellaneousSymbols", 0x2600, 0x26FF),
   ("Dingbats", 0x2700, 0x27BF), ("Hiragana", 0x3040, 0x309F), ("Katakana", 0x30A0, 0x30FF),
   ("CJKUnifiedIdeographs", 0x4E00, 0x9FFF), ("HangulSyllables", 0xAC00, 0xD7AF),
   ("PrivateUse", 0xE000, 0xF8FF)]

/-- The row of characters that a name stands for, if it is one of those known here. -/
def blockOf? (name : String) : Option (Char → Bool) :=
  (blocks.lookup name).map fun (first, last) c => first ≤ c.toNat && c.toNat ≤ last

/-- A decimal digit of ASCII has the category of decimal digits. -/
example : category '0' = "Nd" := by decide

end SchemaAssembly.Text
