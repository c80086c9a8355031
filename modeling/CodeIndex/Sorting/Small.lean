import CodeIndex.Fault

/-! Sorting short lists.  The shortest are sorted by insertion.  The two halves of a longer one are
sorted by insertion, and then they are merged from both ends at once.  Where preceding is no order,
both ways may take the same item or none of them takes it, and the sort breaks off. -/

namespace CodeIndex.Sorting

variable {α : Type}

/-! ### Insertion -/

/-- Puts an item into a list that is kept in reverse order, after all that it does not precede. -/
def insertLast (before : α → α → Bool) (a : α) : List α → List α
  | [] => [a]
  | b :: rest => if before a b then b :: insertLast before a rest else a :: b :: rest

/-- Puts items one after the other into a list that is kept in reverse order. -/
def insertAll (before : α → α → Bool) (done as : List α) : List α :=
  as.foldl (fun done a => insertLast before a done) done

/-- Sorts by inserting one item after the other from the end. -/
def insertionSort (before : α → α → Bool) (as : List α) : List α :=
  (insertAll before [] as).reverse

/-! ### Halves -/

variable (before : α → α → Bool)

/-- Four items sorted by five comparisons. -/
def sortFour (a b c d : α) : List α :=
  let (a, b) := if before b a then (b, a) else (a, b)
  let (c, d) := if before d c then (d, c) else (c, d)
  let firsts := before c a
  let lasts := before d b
  let least := if firsts then c else a
  let greatest := if lasts then b else d
  -- the other two, in the order in which they stood
  let left := if firsts then a else if lasts then c else b
  let right := if lasts then d else if firsts then b else c
  if before right left then [least, right, left, greatest] else [least, left, right, greatest]

/-- Sorts by insertion, after the first four items have been sorted. -/
def fourSort : List α → List α
  | a :: b :: c :: d :: rest => (insertAll before (sortFour before a b c d).reverse rest).reverse
  | as => insertionSort before as

/-- Items taken from the fronts of two lists, and what is left of these. -/
structure Taken (α : Type) where
  items : List α
  first : List α
  second : List α

/-- Takes so many items from the fronts of two lists, that of the second where it precedes that of the
first. -/
def take : Nat → List α → List α → Taken α
  | count + 1, a :: as, b :: bs =>
    if before b a then
      let more := take count (a :: as) bs
      { more with items := b :: more.items }
    else
      let more := take count as (b :: bs)
      { more with items := a :: more.items }
  | _, as, bs => ⟨[], as, bs⟩

/-- Merges two lists, the second as long as the first or by one item longer.  As many items as the
first list has are taken from the fronts, and as many from the ends. -/
def mergeEnds (as bs : List α) : Except Fault (List α) :=
  let front := take before as.length as bs
  let back := take (fun b a => before a b) as.length bs.reverse as.reverse
  -- neither way may have gone past the place that the other one has reached
  if as.length ≤ front.first.length + back.second.length
      ∧ bs.length ≤ front.second.length + back.first.length then
    let left := front.first.take (front.first.length + back.second.length - as.length)
    let right := front.second.take (front.second.length + back.first.length - bs.length)
    .ok (front.items ++ left ++ right ++ back.items.reverse)
  else .error .disorder

/-- Sorts a short list. -/
def smallSort (as : List α) : Except Fault (List α) :=
  if as.length < 2 then .ok as
  else
    let sortHalf := if as.length < 8 then insertionSort before else fourSort before
    mergeEnds before (sortHalf (as.take (as.length / 2))) (sortHalf (as.drop (as.length / 2)))

end CodeIndex.Sorting
