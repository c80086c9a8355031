import CodeIndex.Sorting.Small

/-! Sorting by partition.  The items that precede a pivot are sorted on their own, and so are the
others; short lists are left to the sort for these. -/

namespace CodeIndex.Sorting

variable {α : Type} (before : α → α → Bool)

/-- Up to this length lists are short. -/
def smallLength : Nat := 32

/-- The item at one place precedes that at another. -/
def beforeAt (as : List α) (i j : Nat) : Bool :=
  match as[i]?, as[j]? with
  | some a, some b => before a b
  | _, _ => false

/-- Of three places the one whose item stands between the others. -/
def median (as : List α) (i j k : Nat) : Nat :=
  let low := beforeAt before as i j
  if low = beforeAt before as i k then if beforeAt before as j k = low then j else k else i

/-- A place near the middle of the items about three places.  Where there are items enough the places
are such places themselves. -/
def medianOfMedians (as : List α) (i j k count : Nat) : Nat :=
  if 8 ≤ count then
    let eighth := count / 8
    let near (i : Nat) : Nat := medianOfMedians as i (i + eighth * 4) (i + eighth * 7) eighth
    median before as (near i) (near j) (near k)
  else median before as i j k
termination_by count

/-- The place of the pivot. -/
def pivotPlace (as : List α) : Nat :=
  let eighth := as.length / 8
  if as.length < 64 then median before as 0 (eighth * 4) (eighth * 7)
  else medianOfMedians before as 0 (eighth * 4) (eighth * 7) eighth

/-- Sorts by partition, at most `limit` levels deep, what is not short then by another sort.  The
items do not precede `bound`, if there is one.  A pivot that does not come after it, or that no item
precedes, is put to the left with all that it does not precede. -/
def quickSort (fallback : List α → Except Fault (List α)) :
    Nat → Option α → List α → Except Fault (List α)
  | limit, bound, as =>
    if as.length ≤ smallLength then smallSort before as
    else match limit with
    | 0 => fallback as
    | limit + 1 =>
      let place := pivotPlace before as
      match as.drop place with
      | [] => .ok as
      | pivot :: rest => do
        let others := as.take place ++ rest
        let lower := others.filter (before · pivot)
        if bound.any (!before · pivot) || lower.isEmpty then
          let front := (as.take place).filter (!before pivot ·)
          let back := rest.filter (!before pivot ·)
          let upper ← quickSort fallback limit none (others.filter (before pivot ·))
          return front ++ pivot :: back ++ upper
        else
          let front := (as.take place).filter (!before · pivot)
          let back := rest.filter (!before · pivot)
          let upper ← quickSort fallback limit (some pivot) (front ++ pivot :: back)
          return (← quickSort fallback limit bound lower) ++ upper

end CodeIndex.Sorting
