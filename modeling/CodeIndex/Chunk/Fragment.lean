import CodeIndex.Fault

/-! Fragments: the pieces of a source that are indexed, with the lines that they come from. -/

namespace CodeIndex.Chunk

/-- What a fragment mainly holds. -/
inductive Kind where
  | function
  | class_
  | import_
  | export_
  | variable_
  | expression
  | code
  deriving DecidableEq, Repr

namespace Kind

def name : Kind → String
  | function => "function"
  | class_ => "class"
  | import_ => "import"
  | export_ => "export"
  | variable_ => "variable"
  | expression => "expression"
  | code => "code"

/-- A fragment is named for the first function or class in it. -/
def isAnchor : Kind → Bool
  | function => true
  | class_ => true
  | _ => false

end Kind

structure Fragment where
  id : Nat
  content : List Char
  startLine : Nat
  endLine : Nat
  kind : Kind
  structure_ : String
  deriving DecidableEq, Repr

/-- How large fragments may get, in characters, and how much of its predecessor a piece repeats. -/
structure Options where
  maxSize : Nat := 1000
  overlap : Nat := 200
  deriving DecidableEq, Repr

/-- Sizes are kept in 64 bits. -/
def sizeBound : Nat := 0x10000000000000000

/-- The product of two sizes, if it fits. -/
def sizeProduct (a b : Nat) : Except Fault Nat :=
  if a * b < sizeBound then .ok (a * b) else .error .overflow

namespace Options

/-- One line is repeated for every fifty characters of overlap, and at least one. -/
def overlapLines (o : Options) : Nat := max (o.overlap / 50) 1

/-- A small last piece is added to its predecessor while both together stay below one and a half
times the size. -/
def foldLimit (o : Options) : Except Fault Nat := return (← sizeProduct o.maxSize 3) / 2

/-- Small fragments are joined while they stay below six fifths of the size. -/
def mergeLimit (o : Options) : Except Fault Nat := return (← sizeProduct o.maxSize 6) / 5

end Options

end CodeIndex.Chunk
