import CodeIndex.Numeric.Power
import CodeIndex.Sorting.Quick

/-! Sorting by runs.  A list is cut into runs, and neighbouring runs are joined in the order of a
balanced tree.  A run that is not sorted grows as long as its neighbours are not, and is sorted
before it is merged with one that is. -/

namespace CodeIndex.Sorting

variable {α : Type} (before : α → α → Bool)

structure Run (α : Type) where
  items : List α
  sorted : Bool

/-- How many items in a row follow an item as they should. -/
def followers (follows : α → α → Bool) : α → List α → Nat
  | _, [] => 0
  | a, b :: rest => if follows a b then followers follows b rest + 1 else 0

/-- The run that a list begins with, in its order, and what comes after it. -/
def firstRun : List α → List α × List α
  | a :: b :: rest =>
    if before b a then
      let count := followers (fun a b => before b a) a (b :: rest)
      ((a :: (b :: rest).take count).reverse, (b :: rest).drop count)
    else
      let count := followers (fun a b => !before b a) a (b :: rest)
      (a :: (b :: rest).take count, (b :: rest).drop count)
  | as => (as, [])

/-- Cuts the first run off.  A run that the list begins with is taken if it is long enough.  Otherwise
some items are made a run, which is sorted at once or left as it is. -/
def cutRun (enough : Nat) (atOnce : Bool) (as : List α) : Except Fault (Run α × List α) := do
  let (run, rest) := firstRun before as
  if enough ≤ run.length then return (⟨run, true⟩, rest)
  if atOnce then return (⟨← smallSort before (as.take smallLength), true⟩, as.drop smallLength)
  return (⟨as.take enough, false⟩, as.drop enough)

/-- The runs of a list, at most `count`. -/
def cutRuns (enough : Nat) (atOnce : Bool) : Nat → List α → Except Fault (List (Run α))
  | 0, _ => .ok []
  | _, [] => .ok []
  | count + 1, as => do
    let (run, rest) ← cutRun before enough atOnce as
    return run :: (← cutRuns enough atOnce count rest)

/-- The items of two lists, that of the second one first where it precedes. -/
def merged (as bs : List α) : List α := as.merge bs fun a b => !before b a

/-- Merges two lists, from the front or, where the second is the shorter, from the end. -/
def mergeRuns (as bs : List α) : List α :=
  if as.length ≤ bs.length then merged before as bs
  else (merged (fun b a => before a b) bs.reverse as.reverse).reverse

/-- The items of a run in their order. -/
def Run.inOrder (sortRun : List α → Except Fault (List α)) (run : Run α) :
    Except Fault (List α) :=
  if run.sorted then .ok run.items else sortRun run.items

/-- Joins two runs.  If neither is sorted and both together fit the room there is, they are not
merged. -/
def joinRuns (room : Nat) (sortRun : List α → Except Fault (List α)) (a b : Run α) :
    Except Fault (Run α) := do
  if a.items.length + b.items.length ≤ room ∧ ¬a.sorted ∧ ¬b.sorted then
    return ⟨a.items ++ b.items, false⟩
  return ⟨mergeRuns before (← a.inOrder sortRun) (← b.inOrder sortRun), true⟩

/-- How deep in the tree two neighbouring runs meet: the number of leading binary digits that the
middles of the two runs have in common, as parts of the whole list. -/
def meetingDepth (scale start middle stop : Nat) : Nat :=
  63 - ((scale * (start + middle)) ^^^ (scale * (middle + stop))).log2

/-- A run that waits for its right neighbour, and how deep in the tree they meet. -/
structure Waiting (α : Type) where
  run : Run α
  depth : Nat

/-- Joins a run with those on its left, the nearest first, that do not meet it higher up than at this
depth. -/
def collapse (join : Run α → Run α → Except Fault (Run α)) (depth : Nat) :
    List (Waiting α) → Run α → Except Fault (List (Waiting α) × Run α)
  | [], run => .ok ([], run)
  | left :: others, run => do
    if depth ≤ left.depth then collapse join depth others (← join left.run run)
    else return (left :: others, run)

/-- Joins all runs: those that wait, the one that begins at `start`, and those after it. -/
def joinAll (join : Run α → Run α → Except Fault (Run α)) (scale : Nat) :
    Nat → List (Waiting α) → Run α → List (Run α) → Except Fault (Run α)
  | _, waiting, run, [] => do return (← collapse join 0 waiting run).2
  | start, waiting, run, next :: rest => do
    let middle := start + run.items.length
    let depth := meetingDepth scale start middle (middle + next.items.length)
    let (waiting, run) ← collapse join depth waiting run
    joinAll join scale middle (⟨run, depth⟩ :: waiting) next rest

/-- How long a run must be to be taken as it is. -/
def enoughFor (length : Nat) : Nat :=
  if length ≤ 4096 then min (length - length / 2) 64
  else
    let shift := (1 + length.log2) / 2
    (Numeric.twoTo shift + length / Numeric.twoTo shift) / 2

/-- Sorts by runs. -/
def runSort (room : Nat) (atOnce : Bool) (sortRun : List α → Except Fault (List α)) (as : List α) :
    Except Fault (List α) := do
  match ← cutRuns before (enoughFor as.length) atOnce as.length as with
  | [] => return []
  | first :: rest =>
    let scale := (Numeric.twoTo 62 + as.length - 1) / as.length
    (← joinAll (joinRuns before room sortRun) scale 0 [] first rest).inOrder sortRun

/-- The room for the items of a list: enough for all of a short list, and for half of a long one. -/
def roomFor (length : Nat) : Nat :=
  let needed := max (max (length - length / 2) (min length 333333)) 48
  if needed ≤ 170 then 170 else needed

/-- Sorts a run that was left as it is.  Runs that are sorted at once leave nothing to sort. -/
def sortLeft (room : Nat) (as : List α) : Except Fault (List α) :=
  quickSort before (runSort before room true .ok) (2 * as.length.log2) none as

/-- Sorts a list, if preceding orders its items. -/
def sort (as : List α) : Except Fault (List α) :=
  if as.length ≤ 20 then .ok (insertionSort before as)
  else
    let room := roomFor as.length
    runSort before room (as.length ≤ 2 * smallLength) (sortLeft before room) as

end CodeIndex.Sorting
