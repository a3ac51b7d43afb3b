/-!
# Patterns

Regular patterns over characters. Whether a text matches is decided by what remains of a pattern
behind each character of the text.

- `Pattern.accepts` decides it;
- `accepts_either`: a choice is matched by what matches one of its parts.
-/

namespace SchemaAssembly.Text

/-- A regular pattern. -/
inductive Pattern where
  /-- no text -/
  | never
  /-- the empty text -/
  | empty
  /-- one character of a class -/
  | one (isIn : Char → Bool)
  /-- a text of the first pattern and then one of the second -/
  | followed (first second : Pattern)
  /-- a text of one of two patterns -/
  | either (first second : Pattern)
  /-- any number of texts of a pattern -/
  | many (inner : Pattern)

namespace Pattern

instance : Inhabited Pattern := ⟨never⟩

/-- Whether the empty text matches. -/
def acceptsEmpty : Pattern → Bool
  | never => false
  | empty => true
  | one _ => false
  | followed first second => first.acceptsEmpty && second.acceptsEmpty
  | either first second => first.acceptsEmpty || second.acceptsEmpty
  | many _ => true

/-- One pattern after another, without needless parts. -/
def sequence : Pattern → Pattern → Pattern
  | never, _ => never
  | empty, second => second
  | first, second => followed first second

/-- One pattern or another, without needless parts. -/
def choice : Pattern → Pattern → Pattern
  | never, second => second
  | first, never => first
  | first, second => either first second

/-- What must follow a character in a text that matches. -/
def after (c : Char) : Pattern → Pattern
  | never => never
  | empty => never
  | one isIn => if isIn c then empty else never
  | followed first second =>
    if first.acceptsEmpty then choice (sequence (first.after c) second) (second.after c)
    else sequence (first.after c) second
  | either first second => choice (first.after c) (second.after c)
  | many inner => sequence (inner.after c) (many inner)

/-- **Whether a text matches.** -/
def accepts (p : Pattern) : List Char → Bool
  | [] => p.acceptsEmpty
  | c :: rest => (p.after c).accepts rest

/-! ### Building patterns -/

/-- Exactly this text. -/
def text (s : String) : Pattern :=
  s.toList.foldr (fun c p => followed (one (· == c)) p) empty

/-- One of these characters. -/
def oneOf (s : String) : Pattern :=
  one fun c => s.toList.contains c

/-- A text of each pattern, in order. -/
def inOrder (parts : List Pattern) : Pattern :=
  parts.foldr followed empty

/-- A text of any of some patterns. -/
def anyOf (alternatives : List Pattern) : Pattern :=
  alternatives.foldr either never

/-- A text of a pattern, or nothing. -/
def optional (p : Pattern) : Pattern :=
  either p empty

/-- At least one text of a pattern. -/
def atLeastOne (p : Pattern) : Pattern :=
  followed p (many p)

/-- A number of texts of a pattern. -/
def times (p : Pattern) : Nat → Pattern
  | 0 => empty
  | n + 1 => followed p (p.times n)

/-- Between two numbers of texts of a pattern. -/
def between (p : Pattern) (least most : Nat) : Pattern :=
  followed (p.times least) ((p.optional).times (most - least))

/-- Any of some texts. -/
def words (texts : List String) : Pattern :=
  anyOf (texts.map text)

/-- A decimal digit. -/
def digit : Pattern :=
  one Char.isDigit

/-! ### What matches -/

/-- Leaving out needless parts of a choice does not matter. -/
@[simp] theorem accepts_choice (p q : Pattern) (cs : List Char) :
    (choice p q).accepts cs = (p.accepts cs || q.accepts cs) := by
  have accepts_never : ∀ cs : List Char, never.accepts cs = false := by
    intro cs
    induction cs with
    | nil => rfl
    | cons c rest ih => exact ih
  have accepts_either : ∀ (cs : List Char) (p q : Pattern),
      (either p q).accepts cs = (p.accepts cs || q.accepts cs) ∧
        (choice p q).accepts cs = (p.accepts cs || q.accepts cs) := by
    intro cs
    induction cs with
    | nil =>
      intro p q
      refine ⟨rfl, ?_⟩
      unfold choice
      split
      · simp [accepts, acceptsEmpty]
      · simp [accepts, acceptsEmpty]
      · rfl
    | cons c rest ih =>
      intro p q
      have here : (either p q).accepts (c :: rest) =
          (p.accepts (c :: rest) || q.accepts (c :: rest)) := (ih (p.after c) (q.after c)).2
      refine ⟨here, ?_⟩
      unfold choice
      split
      · rw [accepts_never, Bool.false_or]
      · rw [accepts_never, Bool.or_false]
      · exact here
  exact (accepts_either cs p q).2

/-- A choice is matched by what matches one of its parts. -/
@[simp] theorem accepts_either (p q : Pattern) (cs : List Char) :
    (either p q).accepts cs = (p.accepts cs || q.accepts cs) := by
  cases cs with
  | nil => rfl
  | cons c rest => exact accepts_choice (p.after c) (q.after c) rest

end Pattern

end SchemaAssembly.Text
