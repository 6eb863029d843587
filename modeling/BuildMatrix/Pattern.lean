import BuildMatrix.Text.Utf8

/-! Patterns for file names. What the program does with them goes for any `PatternLanguage`, which
says of a text whether it is a pattern, and which names the pattern matches.

The language at hand: `?` stands for one byte, `*` for any bytes, a class in brackets for one of its
bytes, and a group in braces for one of its alternatives; alternatives that are empty do not count.
A name is matched in UTF-8, byte by byte. -/

set_option autoImplicit false

namespace BuildMatrix

/-- A language of patterns. -/
class PatternLanguage where
  /-- The names that a pattern matches, or what is wrong with its text. -/
  compile (pattern : Text) : Except Text (Text → Bool)

namespace Pattern

open Text (Bytes)

inductive Token where
  | byte (b : UInt8)
  | any
  | many
  | oneOf (negated : Bool) (ranges : List (UInt8 × UInt8))
  | choice (alternatives : List (List Token))

/-- What is wrong with the text of a pattern. -/
inductive Error where
  | unclosedClass
  | invalidRange (first last : Char)
  | unopenedGroup
  | unclosedGroup
  deriving DecidableEq

def Error.reason : Error → Text
  | .unclosedClass => "unclosed character class; missing ']'"
  | .invalidRange a b => "invalid range; '" ++ a :: "' > '" ++ b :: "'"
  | .unopenedGroup =>
    "unopened alternate group; missing '\x7b' (maybe escape '\x7d' with '[\x7d]'?)"
  | .unclosedGroup =>
    "unclosed alternate group; missing '\x7d' (maybe escape '\x7b' with '[\x7b]'?)"

/-- A class being read: the ranges so far, last first, and whether a dash waits for its end. -/
structure OpenClass where
  /-- Neither the sign of a negation nor a character was read. -/
  fresh : Bool
  negated : Bool
  /-- No character was read, so that a closing bracket counts as one. -/
  first : Bool
  ranges : List (Char × Char)
  dashed : Bool

/-- A group being read: the tokens before it, last first, and its finished alternatives, last
first. -/
structure OpenGroup where
  before : List Token
  alternatives : List (List Token)

structure State where
  groups : List OpenGroup
  /-- The tokens of the current alternative, last first. -/
  tokens : List Token
  inClass : Option OpenClass

def State.push (s : State) (ts : List Token) : State := { s with tokens := ts.reverse ++ s.tokens }

/-- The bytes of a range of characters: the last byte of one up to the first byte of the other, and
all their other bytes. -/
def byteRanges (r : Char × Char) : List (UInt8 × UInt8) :=
  let low := String.utf8EncodeChar r.1
  let high := String.utf8EncodeChar r.2
  let single (bs : Bytes) := bs.map fun b => (b, b)
  if r.1 = r.2 then single low
  else single low.dropLast ++ [(low.getLastD 0, high.headD 0)] ++ single (high.drop 1)

def OpenClass.token (c : OpenClass) : Token :=
  let ranges := (if c.dashed then [('-', '-')] else []) ++ c.ranges
  .oneOf c.negated (ranges.reverse.flatMap byteRanges)

/-- Move the end of the last range. -/
def OpenClass.extend (c : OpenClass) (last : Char) : Except Error OpenClass :=
  match c.ranges with
  | [] => .ok c
  | (a, _) :: rest =>
    if last < a then .error (.invalidRange a last)
    else .ok { c with ranges := (a, last) :: rest, dashed := false }

/-- A character inside a class; nothing if it closes the class. -/
def OpenClass.step (c : OpenClass) (x : Char) : Except Error (Option OpenClass) :=
  if c.fresh ∧ (x = '!' ∨ x = '^') then .ok (some { c with fresh := false, negated := true })
  else
    let c := { c with fresh := false }
    if c.first then .ok (some { c with first := false, ranges := [(x, x)] })
    else if x = ']' then .ok none
    else if c.dashed then (c.extend x).map some
    else if x = '-' then .ok (some { c with dashed := true })
    else .ok (some { c with ranges := (x, x) :: c.ranges })

/-- The token of a group, if any of its alternatives counts. -/
def choiceOf (alternatives : List (List Token)) : List Token :=
  match alternatives.filter fun a => !a.isEmpty with
  | [] => []
  | as => [.choice as]

def State.step (s : State) (x : Char) : Except Error State :=
  match s.inClass with
  | some c => do
    match ← c.step x with
    | some c => .ok { s with inClass := some c }
    | none => .ok { (s.push [c.token]) with inClass := none }
  | none =>
    match x with
    | '?' => .ok (s.push [.any])
    | '*' => .ok (s.push [.many])
    | '[' => .ok { s with inClass := some ⟨true, false, true, [], false⟩ }
    | '{' => .ok { s with groups := ⟨s.tokens, []⟩ :: s.groups, tokens := [] }
    | '}' =>
      match s.groups with
      | [] => .error .unopenedGroup
      | g :: rest =>
        let alternatives := (s.tokens.reverse :: g.alternatives).reverse
        .ok (State.push { s with groups := rest, tokens := g.before } (choiceOf alternatives))
    | ',' =>
      match s.groups with
      | [] => .ok (s.push [.byte 0x2C])
      | g :: rest =>
        .ok { s with
          groups := { g with alternatives := s.tokens.reverse :: g.alternatives } :: rest
          tokens := [] }
    | x => .ok (s.push ((String.utf8EncodeChar x).map .byte))

def State.finish (s : State) : Except Error (List Token) :=
  if s.inClass.isSome then .error .unclosedClass
  else if s.groups ≠ [] then .error .unclosedGroup
  else .ok s.tokens.reverse

def ofText (t : Text) : Except Error (List Token) := do
  (← t.foldlM State.step ⟨[], [], none⟩).finish

def isOneOf (negated : Bool) (ranges : List (UInt8 × UInt8)) (b : UInt8) : Bool :=
  (ranges.any fun r => r.1 ≤ b && b ≤ r.2) != negated

/-- A byte that a wildcard stands for. -/
def isWild (b : UInt8) : Bool := b != 0x2F

/-! Matching goes through a pattern from its last token to its first. For each token it says of
every end of the name whether the pattern matches that end from the token on, so no end is asked
about twice and the time is the product of the two lengths. -/

/-- A verdict on each end of a name: on the whole name, on what follows its first byte, and so on
down to the empty end. -/
abbrev Verdicts := List Bool

namespace Verdicts

def of (p : Bytes → Bool) : Bytes → Verdicts
  | [] => [p []]
  | b :: r => p (b :: r) :: of p r

/-- The verdict on the whole name. -/
def first (v : Verdicts) : Bool := v.headD false

/-- The ends that are a byte with `q` before an end that passes. -/
def afterByte (q : UInt8 → Bool) : Bytes → Verdicts → Verdicts
  | [], _ => [false]
  | b :: r, v => (q b && first v.tail) :: afterByte q r v.tail

/-- The ends that are bytes a wildcard stands for, if any, before an end that passes. -/
def afterMany : Bytes → Verdicts → Verdicts
  | [], v => v
  | b :: r, v =>
    let rest := afterMany r v.tail
    (first v || (isWild b && first rest)) :: rest

@[simp]
theorem first_of (p : Bytes → Bool) (s : Bytes) : first (of p s) = p s := by
  cases s <;> rfl

end Verdicts

mutual

/-- The ends of a name that start with a match of the token such that the rest passes. -/
def Token.before : Token → Bytes → Verdicts → Verdicts
  | .byte c, s, v => v.afterByte (· == c) s
  | .any, s, v => v.afterByte isWild s
  | .many, s, v => v.afterMany s
  | .oneOf negated ranges, s, v => v.afterByte (isOneOf negated ranges) s
  | .choice alternatives, s, v => oneBefore alternatives s v

def allBefore : List Token → Bytes → Verdicts → Verdicts
  | [], _, v => v
  | t :: r, s, v => t.before s (allBefore r s v)

def oneBefore : List (List Token) → Bytes → Verdicts → Verdicts
  | [], s, _ => .of (fun _ => false) s
  | a :: r, s, v => List.zipWith (· || ·) (allBefore a s v) (oneBefore r s v)

end

end Pattern

/-- Whether a name is one of those that a pattern stands for. -/
def Pattern.matches (tokens : List Pattern.Token) (name : Text) : Bool :=
  let bytes := Text.toUtf8 name
  (Pattern.allBefore tokens bytes (.of List.isEmpty bytes)).first

instance : PatternLanguage where
  compile pattern :=
    match Pattern.ofText pattern with
    | .error e => .error e.reason
    | .ok tokens => .ok (Pattern.matches tokens)

end BuildMatrix
