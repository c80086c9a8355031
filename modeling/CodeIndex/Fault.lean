/-! Faults.  A fault breaks off all that is under way: nobody who waits for an answer goes on. -/

namespace CodeIndex

inductive Fault where
  /-- A product does not fit the width of its numbers. -/
  | overflow
  /-- The items of a list have no order by which they could be sorted. -/
  | disorder
  deriving DecidableEq, Repr

def Fault.message : Fault → String
  | overflow => "attempt to multiply with overflow"
  | disorder => "user-provided comparison function does not correctly implement a total order"

end CodeIndex
