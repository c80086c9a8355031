/-! Patterns for sequences of bytes, matched by their derivatives: the derivative of a pattern by a
byte matches what may follow the byte. -/

namespace CodeIndex.Files

/-- A set of bytes: those in the ranges, or those that are in none. -/
structure ByteSet where
  negated : Bool
  ranges : List (UInt8 × UInt8)
  deriving DecidableEq, Repr

def ByteSet.contains (s : ByteSet) (b : UInt8) : Bool :=
  s.ranges.any (fun r => r.1 ≤ b && b ≤ r.2) != s.negated

inductive Pattern where
  /-- Matches nothing. -/
  | never
  /-- Matches the empty sequence. -/
  | empty
  | byte (s : ByteSet)
  | seq (first second : Pattern)
  | either (first second : Pattern)
  /-- Matches any number of repetitions. -/
  | many (p : Pattern)
  deriving DecidableEq, Repr

namespace Pattern

/-- The pattern matches the empty sequence. -/
def nullable : Pattern → Bool
  | never => false
  | empty => true
  | byte _ => false
  | seq p q => p.nullable && q.nullable
  | either p q => p.nullable || q.nullable
  | many _ => true

/-- One pattern after the other, where neither is trivial. -/
def thenMatch (p q : Pattern) : Pattern :=
  match p with
  | never => never
  | empty => q
  | p => seq p q

/-- Either of two patterns, where they differ and both can match. -/
def orMatch (p q : Pattern) : Pattern :=
  if p = q then p
  else match p, q with
    | never, q => q
    | p, never => p
    | p, q => either p q

/-- What may follow a byte. -/
def derivative (b : UInt8) : Pattern → Pattern
  | never => never
  | empty => never
  | byte s => if s.contains b then empty else never
  | seq p q =>
    let first := (p.derivative b).thenMatch q
    if p.nullable then first.orMatch (q.derivative b) else first
  | either p q => (p.derivative b).orMatch (q.derivative b)
  | many p => (p.derivative b).thenMatch (many p)

def matches_ (p : Pattern) (bs : List UInt8) : Bool :=
  (bs.foldl (fun p b => p.derivative b) p).nullable

/-- One pattern after the other, for a whole list. -/
def sequence (ps : List Pattern) : Pattern := ps.foldr thenMatch empty

def choice (ps : List Pattern) : Pattern := ps.foldr orMatch never

def literal (b : UInt8) : Pattern := byte ⟨false, [(b, b)]⟩

def character (c : Char) : Pattern := sequence ((String.singleton c).toUTF8.toList.map literal)

def anyByte : Pattern := byte ⟨true, []⟩

end Pattern

end CodeIndex.Files
