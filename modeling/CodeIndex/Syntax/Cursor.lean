import CodeIndex.Numeric.Power
import CodeIndex.Syntax.Tree

/-! Walks over a tree.  A cursor stands at a node and goes to its first child, to its next sibling
or up to its parent.  A walk goes on in this way from each node to the next one below it or after
it. -/

namespace CodeIndex.Syntax.Tree

/-- A node above another: its label, its children before the other node, the last one first, and
those after it. -/
structure Ancestor where
  label : Label
  before : List Tree
  after : List Tree

/-- A node of a tree, with the nodes above it, the lowest first. -/
structure Cursor where
  node : Tree
  above : List Ancestor

namespace Cursor

/-- The cursor at the top of a tree, above which it does not go. -/
def root (tree : Tree) : Cursor := ⟨tree, []⟩

def label (c : Cursor) : Label := c.node.label

def firstChild? (c : Cursor) : Option Cursor :=
  match c.node with
  | .node _ [] => none
  | .node l (child :: rest) => some ⟨child, ⟨l, [], rest⟩ :: c.above⟩

def nextSibling? (c : Cursor) : Option Cursor :=
  match c.above with
  | ⟨l, before, next :: after⟩ :: above => some ⟨next, ⟨l, c.node :: before, after⟩ :: above⟩
  | _ => none

def parent? (c : Cursor) : Option Cursor :=
  match c.above with
  | [] => none
  | p :: above => some ⟨.node p.label (p.before.reverse ++ c.node :: p.after), above⟩

theorem length_above_parent {c d : Cursor} (h : c.parent? = some d) :
    d.above.length < c.above.length := by
  obtain ⟨node, above⟩ := c
  cases above with
  | nil => cases h
  | cons p above => cases h; exact Nat.lt_succ_self _

/-- The next node outside the tree of this one: its next sibling, or else that of the lowest node
above that has one. -/
def past? (c : Cursor) : Option Cursor :=
  match c.nextSibling? with
  | some next => some next
  | none =>
    match _ : c.parent? with
    | some parent => parent.past?
    | none => none
termination_by c.above.length
decreasing_by exact length_above_parent ‹_›

/-- The next node of a walk, which goes below this one only if it is told to enter. -/
def advance? (enter : Bool) (c : Cursor) : Option Cursor :=
  match if enter then c.firstChild? else none with
  | some child => some child
  | none => c.past?

/-! ### How much is left of a walk -/

/-- The number of nodes after the tree of this one. -/
def outside (c : Cursor) : Nat := Numeric.total (sizeAll ·.after) c.above

/-- The number of nodes from this one on. -/
def remaining (c : Cursor) : Nat := c.node.size + c.outside

theorem outside_lt_remaining (c : Cursor) : c.outside < c.remaining := by
  obtain ⟨⟨l, children⟩, above⟩ := c
  rw [remaining, size]
  omega

theorem remaining_firstChild {c d : Cursor} (h : c.firstChild? = some d) :
    d.remaining < c.remaining := by
  obtain ⟨⟨l, _ | ⟨child, rest⟩⟩, above⟩ := c
  · cases h
  · cases h
    simp only [remaining, outside, Numeric.total_cons, size, sizeAll]
    omega

theorem remaining_nextSibling {c d : Cursor} (h : c.nextSibling? = some d) :
    d.remaining = c.outside := by
  obtain ⟨node, _ | ⟨⟨l, before, _ | ⟨next, after⟩⟩, above⟩⟩ := c
  · cases h
  · cases h
  · cases h
    simp only [remaining, outside, Numeric.total_cons, sizeAll, Nat.add_assoc]

theorem outside_parent {c d : Cursor} (hlast : c.nextSibling? = none) (h : c.parent? = some d) :
    d.outside = c.outside := by
  obtain ⟨node, _ | ⟨⟨l, before, _ | ⟨next, after⟩⟩, above⟩⟩ := c
  · cases h
  · cases h
    simp only [outside, Numeric.total_cons, sizeAll, Nat.zero_add]
  · cases hlast

theorem remaining_past {c d : Cursor} (h : c.past? = some d) : d.remaining = c.outside := by
  induction c using past?.induct with
  | case1 c next hnext =>
    rw [past?, hnext] at h
    cases h
    exact remaining_nextSibling hnext
  | case2 c hlast parent hparent ih =>
    rw [past?, hlast, hparent] at h
    rw [ih h, outside_parent hlast hparent]
  | case3 c hlast htop =>
    rw [past?, hlast, htop] at h
    cases h

theorem remaining_advance {enter : Bool} {c d : Cursor} (h : c.advance? enter = some d) :
    d.remaining < c.remaining := by
  have hpast : c.past? = some d → d.remaining < c.remaining := fun h =>
    remaining_past h ▸ outside_lt_remaining c
  cases enter with
  | false => exact hpast h
  | true =>
    rw [advance?, if_pos rfl] at h
    cases hchild : c.firstChild? with
    | none =>
      rw [hchild] at h
      exact hpast h
    | some child =>
      rw [hchild] at h
      cases h
      exact remaining_firstChild hchild

/-! ### Walks -/

/-- Visits all nodes from this one on. -/
def visit {α : Type} (f : α → Cursor → α) (acc : α) (c : Cursor) : α :=
  match _ : c.advance? true with
  | some next => next.visit f (f acc c)
  | none => f acc c
termination_by c.remaining
decreasing_by exact remaining_advance ‹_›

/-- The first flawed node from this one on.  Only nodes that say that there is a flaw below are
entered. -/
def firstFlaw? (c : Cursor) : Option Cursor :=
  if c.label.flaw ≠ .sound then some c
  else
    match _ : c.advance? c.label.flawed with
    | some next => next.firstFlaw?
    | none => none
termination_by c.remaining
decreasing_by exact remaining_advance ‹_›

end Cursor

end CodeIndex.Syntax.Tree
