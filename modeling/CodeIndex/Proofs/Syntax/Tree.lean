import CodeIndex.Syntax.Tree

/-! The nodes of a tree and their addresses.  The order of addresses as words, in which a word comes
before those that go on from it, is the order of a walk that visits each node before those below it.
A tree whose nodes say truly where flaws are is made of such trees. -/

namespace CodeIndex.Syntax.Tree

variable {l : Label} {cs : List Tree} {t s : Tree} {p q : List Nat}

/-! ### Addresses -/

/-- The node at an address, which says of each node on the way down which child it is. -/
def at? : Tree → List Nat → Option Tree
  | t, [] => some t
  | node _ cs, i :: p => cs[i]?.bind (at? · p)

theorem at?_nil (t : Tree) : t.at? [] = some t := by
  cases t
  rfl

theorem at?_cons (l : Label) (cs : List Tree) (i : Nat) (p : List Nat) :
    (node l cs).at? (i :: p) = cs[i]?.bind (·.at? p) := rfl

theorem at?_append (t : Tree) (p q : List Nat) : t.at? (p ++ q) = (t.at? p).bind (·.at? q) := by
  induction p generalizing t with
  | nil => rw [List.nil_append, at?_nil, Option.bind_some]
  | cons i p ih =>
    obtain ⟨l, cs⟩ := t
    rw [List.cons_append, at?_cons, at?_cons, Option.bind_assoc]
    exact congrArg (cs[i]?.bind ·) (funext ih)

/-! ### Flaws -/

/-- There is a flaw at some node of the tree. -/
def HasFlaw (t : Tree) : Prop := ∃ p s, t.at? p = some s ∧ s.label.flaw ≠ .sound

theorem hasFlaw_node : (node l cs).HasFlaw ↔ l.flaw ≠ .sound ∨ ∃ t ∈ cs, t.HasFlaw := by
  constructor
  · rintro ⟨_ | ⟨i, p⟩, s, hs, hflaw⟩
    · cases hs
      exact .inl hflaw
    · obtain ⟨t, ht, hs⟩ := Option.bind_eq_some_iff.1 hs
      exact .inr ⟨t, List.mem_of_getElem? ht, p, s, hs, hflaw⟩
  · rintro (hflaw | ⟨t, ht, p, s, hs, hflaw⟩)
    · exact ⟨[], _, rfl, hflaw⟩
    · obtain ⟨i, hi⟩ := List.mem_iff_getElem?.1 ht
      exact ⟨i :: p, s, by rw [at?_cons, hi, Option.bind_some, hs], hflaw⟩

/-- Each node says whether there is a flaw at it or below it. -/
def Flagged (t : Tree) : Prop := ∀ p s, t.at? p = some s → (s.label.flawed = true ↔ s.HasFlaw)

theorem Flagged.flawed_iff (h : t.Flagged) : t.label.flawed = true ↔ t.HasFlaw :=
  h [] t (at?_nil t)

theorem Flagged.at (h : t.Flagged) (hs : t.at? p = some s) : s.Flagged := fun q r hr =>
  h (p ++ q) r (by rw [at?_append, hs, Option.bind_some, hr])

theorem Flagged.child (h : (node l cs).Flagged) (ht : t ∈ cs) : t.Flagged := by
  obtain ⟨i, hi⟩ := List.mem_iff_getElem?.1 ht
  exact h.at (p := [i]) (by rw [at?_cons, hi, Option.bind_some, at?_nil])

theorem flagged_node : (node l cs).Flagged ↔
    (l.flawed = true ↔ l.flaw ≠ .sound ∨ ∃ t ∈ cs, t.label.flawed = true) ∧
      ∀ t ∈ cs, t.Flagged := by
  have hbelow (hchildren : ∀ t ∈ cs, t.Flagged) :
      (∃ t ∈ cs, t.label.flawed = true) ↔ ∃ t ∈ cs, t.HasFlaw :=
    exists_congr fun t => and_congr_right fun ht => (hchildren t ht).flawed_iff
  constructor
  · intro h
    have hchildren : ∀ t ∈ cs, t.Flagged := fun t => h.child
    refine ⟨?_, hchildren⟩
    rw [hbelow hchildren, ← hasFlaw_node]
    exact h.flawed_iff
  · rintro ⟨hl, hchildren⟩ (_ | ⟨i, p⟩) s hs
    · cases hs
      rw [hbelow hchildren, ← hasFlaw_node] at hl
      exact hl
    · obtain ⟨t, ht, hs⟩ := Option.bind_eq_some_iff.1 hs
      exact hchildren t (List.mem_of_getElem? ht) p s hs

theorem flagged_branch (kind : String) (start stop : Nat) :
    (branch kind start stop cs).Flagged ↔ ∀ t ∈ cs, t.Flagged := by
  simp [branch, flagged_node]

end CodeIndex.Syntax.Tree
