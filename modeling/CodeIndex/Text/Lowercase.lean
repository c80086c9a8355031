import CodeIndex.Text.CaseTable
import CodeIndex.Text.Ranges

/-! Lower-casing a text.  Each character is mapped on its own except capital sigma, which becomes a
final sigma at the end of a word. -/

namespace CodeIndex.Text

def isCased (c : Char) : Bool := inRanges casedRanges c

def isCaseIgnorable (c : Char) : Bool := inRanges caseIgnorableRanges c

/-- The run that may hold the code point: binary search among the entries `lo ≤ i < hi`. -/
def findCaseRun (table : Array CaseRun) (c : Nat) : Nat → Nat → Nat → Option CaseRun
  | 0, _, _ => none
  | depth + 1, lo, hi =>
    if lo < hi then
      let mid := (lo + hi) / 2
      match table[mid]? with
      | none => none
      | some run =>
        if c < run.first then findCaseRun table c depth lo mid
        else if run.last < c then findCaseRun table c depth (mid + 1) hi
        else some run
    else none

/-- The lower case of one character outside any context. -/
def lowerChar (c : Char) : List Char :=
  if c.toNat < 128 then [c.toLower]
  else if c = 'İ' then ['i', '\u0307']
  else match findCaseRun lowerRuns c.toNat (lowerRuns.size + 1) 0 lowerRuns.size with
    | some run =>
      if (c.toNat - run.first) % run.step = 0 then [Char.ofNat (c.toNat + run.shift).toNat] else [c]
    | none => [c]

/-- Whether the nearest character that is not ignorable is cased, after one more character. -/
def casedAfter (cased : Bool) (c : Char) : Bool :=
  if isCaseIgnorable c then cased else isCased c

/-- Whether the first character that is not ignorable is cased. -/
def startsCased (cs : List Char) : Bool :=
  match cs.dropWhile isCaseIgnorable with
  | [] => false
  | c :: _ => isCased c

/-- Lower-cases the rest of a text onto the reversed result so far; `cased` tells whether a cased
letter stands just before it. -/
def lowerOnto (cased : Bool) (done : List Char) : List Char → List Char
  | [] => done.reverse
  | c :: rest =>
    let lowered :=
      if c = 'Σ' then [if cased && !startsCased rest then 'ς' else 'σ'] else lowerChar c
    lowerOnto (casedAfter cased c) (lowered.reverse ++ done) rest

def lowercase (cs : List Char) : List Char := lowerOnto false [] cs

end CodeIndex.Text
