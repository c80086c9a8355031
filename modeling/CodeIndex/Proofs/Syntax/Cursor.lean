import CodeIndex.Syntax.Cursor
import CodeIndex.Proofs.Syntax.Tree
import Mathlib.Logic.Function.Iterate

/-! The nodes that a walk comes to.  From a node on these are the nodes of its tree and then those
outside it, and each move of a cursor goes to the next of them. -/

namespace CodeIndex.Syntax.Tree

variable {l : Label} {t : Tree} {above : List Ancestor}

namespace Cursor

mutual

/-- The nodes of a tree under others, each before those below it. -/
def places (above : List Ancestor) : Tree → List Cursor
  | .node l cs => ⟨.node l cs, above⟩ :: siblings above l [] cs

/-- The nodes of trees side by side, after those before them. -/
def siblings (above : List Ancestor) (l : Label) (before : List Tree) : List Tree → List Cursor
  | [] => []
  | t :: after => places (⟨l, before, after⟩ :: above) t ++ siblings above l (t :: before) after

end

/-- The nodes after the tree of a node. -/
def beyond (node : Tree) : List Ancestor → List Cursor
  | [] => []
  | ⟨l, before, after⟩ :: above =>
    siblings above l (node :: before) after
      ++ beyond (.node l (before.reverse ++ node :: after)) above

/-- The nodes from this one on. -/
def onward (c : Cursor) : List Cursor := places c.above c.node ++ beyond c.node c.above

variable {c d : Cursor}

/-! ### Moves -/

theorem onward_firstChild (h : c.firstChild? = some d) : c.onward = c :: d.onward := by
  obtain ⟨⟨l, _ | ⟨child, rest⟩⟩, above⟩ := c
  · cases h
  · cases h
    simp only [onward, places, siblings, beyond, List.reverse_nil, List.nil_append,
      List.cons_append, List.append_assoc]

theorem places_of_leaf (h : c.firstChild? = none) : places c.above c.node = [c] := by
  obtain ⟨⟨l, _ | ⟨child, rest⟩⟩, above⟩ := c
  · rfl
  · cases h

theorem beyond_nextSibling (h : c.nextSibling? = some d) : beyond c.node c.above = d.onward := by
  obtain ⟨node, _ | ⟨⟨l, before, _ | ⟨next, after⟩⟩, above⟩⟩ := c
  · cases h
  · cases h
  · cases h
    simp only [beyond, siblings, onward, List.reverse_cons, List.append_assoc, List.cons_append,
      List.nil_append]

theorem beyond_parent (hlast : c.nextSibling? = none) (h : c.parent? = some d) :
    beyond c.node c.above = beyond d.node d.above := by
  obtain ⟨node, _ | ⟨⟨l, before, _ | ⟨next, after⟩⟩, above⟩⟩ := c
  · cases h
  · cases h
    rfl
  · cases hlast

theorem beyond_root (h : c.parent? = none) : beyond c.node c.above = [] := by
  obtain ⟨node, _ | ⟨p, above⟩⟩ := c
  · rfl
  · cases h

/-- The way up and on leads to the first node that has not been visited. -/
theorem beyond_eq (c : Cursor) : beyond c.node c.above = c.past?.elim [] onward := by
  induction c using past?.induct with
  | case1 c next hnext =>
    rw [past?, hnext]
    exact beyond_nextSibling hnext
  | case2 c hlast parent hparent ih =>
    rw [past?, hlast, hparent]
    exact (beyond_parent hlast hparent).trans ih
  | case3 c hlast htop =>
    rw [past?, hlast, htop]
    exact beyond_root htop

theorem onward_enter (c : Cursor) : c.onward = c :: (c.advance? true).elim [] onward := by
  rw [advance?, if_pos rfl]
  cases h : c.firstChild? with
  | some child => exact onward_firstChild h
  | none =>
    rw [onward, places_of_leaf h, beyond_eq]
    rfl

theorem onward_skip (c : Cursor) :
    c.onward = places c.above c.node ++ (c.advance? false).elim [] onward := by
  rw [onward, beyond_eq]
  rfl

theorem places_ne_nil (above : List Ancestor) (t : Tree) : places above t ≠ [] := by
  cases t
  exact List.cons_ne_nil _ _

/-- A move goes over some nodes, and the others are still to come. -/
theorem onward_advance {enter : Bool} (h : c.advance? enter = some d) :
    ∃ passed ≠ [], c.onward = passed ++ d.onward := by
  cases enter with
  | true =>
    refine ⟨[c], List.cons_ne_nil _ _, ?_⟩
    rw [onward_enter, h]
    rfl
  | false =>
    refine ⟨_, places_ne_nil c.above c.node, ?_⟩
    rw [onward_skip, h]
    rfl

/-! ### Walks -/

theorem visit_eq_foldl {α : Type} (f : α → Cursor → α) (acc : α) (c : Cursor) :
    c.visit f acc = c.onward.foldl f acc := by
  induction acc, c using visit.induct f with
  | case1 acc c next h ih =>
    rw [visit, h, onward_enter, h]
    exact ih
  | case2 acc c h =>
    rw [visit, h, onward_enter, h]
    rfl

/-- Every node from this one on that has a flaw at it or below it says so. -/
def Tells (c : Cursor) : Prop :=
  ∀ d ∈ c.onward, d.label.flawed = false → ∀ e ∈ places d.above d.node, e.label.flaw = .sound

theorem Tells.advance {enter : Bool} (h : c.Tells) (hnext : c.advance? enter = some d) :
    d.Tells := by
  obtain ⟨passed, -, honward⟩ := onward_advance hnext
  exact fun e he => h e (honward ▸ List.mem_append_right passed he)

/-- Whether a search enters a sound node or not, the next flaw is the same. -/
theorem Tells.find_onward (h : c.Tells) (hsound : c.label.flaw = .sound) :
    c.onward.find? (·.label.flaw != .sound) =
      ((c.advance? c.label.flawed).elim [] onward).find? (·.label.flaw != .sound) := by
  cases hflawed : c.label.flawed with
  | true => rw [onward_enter, List.find?_cons_of_neg (by simp [hsound])]
  | false =>
    have hhere : c ∈ c.onward := onward_enter c ▸ List.mem_cons_self
    have hnone : (places c.above c.node).find? (·.label.flaw != .sound) = none :=
      List.find?_eq_none.2 fun e he => by simp [h c hhere hflawed e he]
    rw [onward_skip, List.find?_append, hnone, Option.none_or]

theorem firstFlaw_eq_find (h : c.Tells) :
    c.firstFlaw? = c.onward.find? (·.label.flaw != .sound) := by
  induction c using firstFlaw?.induct with
  | case1 c hflaw =>
    rw [firstFlaw?, if_pos hflaw, onward_enter, List.find?_cons_of_pos (by simpa using hflaw)]
  | case2 c hsound next hnext ih =>
    rw [firstFlaw?, if_neg hsound, h.find_onward (not_not.1 hsound), hnext]
    exact ih (h.advance hnext)
  | case3 c hsound hnext =>
    rw [firstFlaw?, if_neg hsound, h.find_onward (not_not.1 hsound), hnext]
    rfl

/-- However it is decided which nodes are entered, a walk is over after no more moves than there are
nodes before it. -/
theorem exists_iterate_eq_none (enter : Cursor → Bool) (c : Cursor) :
    ∃ n ≤ c.onward.length, (·.bind fun d => d.advance? (enter d))^[n] (some c) = none := by
  induction hlength : c.onward.length using Nat.strongRecOn generalizing c with
  | ind n ih =>
    cases hnext : c.advance? (enter c) with
    | none =>
      have hpos : 1 ≤ n := by
        rw [← hlength, onward_enter, List.length_cons]
        exact Nat.le_add_left 1 _
      exact ⟨1, hpos, hnext⟩
    | some next =>
      obtain ⟨passed, hpassed, honward⟩ := onward_advance hnext
      have hlt : next.onward.length < n := by
        have hpos := List.length_pos_iff.2 hpassed
        rw [← hlength, honward, List.length_append]
        omega
      obtain ⟨m, hm, hnone⟩ := ih _ hlt next rfl
      refine ⟨m + 1, by omega, ?_⟩
      rw [Function.iterate_succ_apply, Option.bind_some, hnext]
      exact hnone

/-! ### Addresses -/

/-- The address of a node under others. -/
def addressUnder (above : List Ancestor) : List Nat := (above.map (·.before.length)).reverse

/-- The address of the node in the tree that the cursor started from. -/
def address (c : Cursor) : List Nat := addressUnder c.above

theorem addressUnder_cons (l : Label) (before after : List Tree) (above : List Ancestor) :
    addressUnder (⟨l, before, after⟩ :: above) = addressUnder above ++ [before.length] := by
  rw [addressUnder, List.map_cons, List.reverse_cons]
  rfl

mutual

theorem at?_of_mem_places (above : List Ancestor) :
    (t : Tree) → d ∈ places above t →
    ∃ p, d.address = addressUnder above ++ p ∧ t.at? p = some d.node
  | .node l cs, h => by
    rcases List.mem_cons.1 h with rfl | h
    · exact ⟨[], (List.append_nil _).symm, rfl⟩
    · obtain ⟨i, t, p, ht, haddress, hp⟩ := at?_of_mem_siblings above l [] cs h
      refine ⟨i :: p, ?_, ?_⟩
      · rw [haddress, List.length_nil, Nat.zero_add]
      · rw [at?_cons, ht, Option.bind_some, hp]

theorem at?_of_mem_siblings (above : List Ancestor) (l : Label) (before : List Tree) :
    (ts : List Tree) → d ∈ siblings above l before ts → ∃ i t p, ts[i]? = some t ∧
      d.address = addressUnder above ++ (before.length + i) :: p ∧ t.at? p = some d.node
  | [], h => by cases h
  | t :: after, h => by
    rcases List.mem_append.1 h with h | h
    · obtain ⟨p, haddress, hp⟩ := at?_of_mem_places _ t h
      refine ⟨0, t, p, rfl, ?_, hp⟩
      rw [haddress, addressUnder_cons, List.append_assoc]
      rfl
    · obtain ⟨i, s, p, hs, haddress, hp⟩ := at?_of_mem_siblings above l (t :: before) after h
      refine ⟨i + 1, s, p, hs, ?_, hp⟩
      rw [haddress, List.length_cons, Nat.add_right_comm, Nat.add_assoc]

end

theorem places_subset_siblings (above : List Ancestor) (l : Label) (before ts after : List Tree)
    (t : Tree) : places (⟨l, ts.reverse ++ before, after⟩ :: above) t ⊆
      siblings above l before (ts ++ t :: after) := by
  induction ts generalizing before with
  | nil => exact List.subset_append_left _ _
  | cons s ts ih =>
    have hrest := ih (s :: before)
    rw [List.reverse_cons, List.append_assoc]
    exact List.Subset.trans hrest (List.subset_append_right _ _)

theorem exists_place {p : List Nat} {s : Tree} (above : List Ancestor) (h : t.at? p = some s) :
    ∃ d ∈ places above t, d.address = addressUnder above ++ p ∧ d.node = s := by
  induction p generalizing t above with
  | nil =>
    obtain ⟨l, cs⟩ := t
    cases h
    exact ⟨_, List.mem_cons_self, (List.append_nil _).symm, rfl⟩
  | cons i p ih =>
    obtain ⟨l, cs⟩ := t
    obtain ⟨t, ht, hs⟩ := Option.bind_eq_some_iff.1 h
    obtain ⟨hi, ht⟩ := List.getElem?_eq_some_iff.1 ht
    obtain ⟨ts, after, rfl, rfl⟩ : ∃ ts after, cs = ts ++ t :: after ∧ ts.length = i :=
      ⟨cs.take i, cs.drop (i + 1), by rw [← ht, List.getElem_cons_drop, List.take_append_drop],
        List.length_take_of_le (Nat.le_of_lt hi)⟩
    obtain ⟨d, hd, haddress, hnode⟩ := ih (⟨l, ts.reverse ++ [], after⟩ :: above) hs
    refine ⟨d, List.mem_cons_of_mem _ (places_subset_siblings above l [] ts after t hd), ?_, hnode⟩
    rw [haddress, addressUnder_cons, List.append_assoc, List.append_nil, List.length_reverse]
    rfl

theorem lt_append_cons (p : List Nat) (i : Nat) (q : List Nat) : p < p ++ i :: q := by
  have hlt : p ++ [] < p ++ i :: q := List.append_left_lt (List.nil_lt_cons i q)
  rwa [List.append_nil] at hlt

mutual

/-- The order of the nodes is that of their addresses. -/
theorem ascending_places (above : List Ancestor) :
    (t : Tree) → (places above t).Pairwise (·.address < ·.address)
  | .node l cs => by
    refine List.pairwise_cons.2 ⟨fun d hd => ?_, ascending_siblings above l [] cs⟩
    obtain ⟨i, t, p, -, haddress, -⟩ := at?_of_mem_siblings above l [] cs hd
    rw [haddress, address]
    exact lt_append_cons _ _ _

theorem ascending_siblings (above : List Ancestor) (l : Label) (before : List Tree) :
    (ts : List Tree) → (siblings above l before ts).Pairwise (·.address < ·.address)
  | [] => List.Pairwise.nil
  | t :: after => by
    refine List.pairwise_append.2
      ⟨ascending_places _ t, ascending_siblings above l (t :: before) after, fun d hd e he => ?_⟩
    obtain ⟨p, hd, -⟩ := at?_of_mem_places _ t hd
    obtain ⟨i, s, q, -, he, -⟩ := at?_of_mem_siblings above l (t :: before) after he
    rw [hd, he, addressUnder_cons, List.append_assoc]
    exact List.append_left_lt (List.cons_lt_cons_iff.2 (.inl (by simp; omega)))

end

mutual

theorem map_label_places (above : List Ancestor) :
    (t : Tree) → (places above t).map label = t.preorder
  | .node l cs => by
    rw [places, List.map_cons, map_label_siblings, preorder]
    rfl

theorem map_label_siblings (above : List Ancestor) (l : Label) (before : List Tree) :
    (ts : List Tree) → (siblings above l before ts).map label = preorderAll ts
  | [] => rfl
  | t :: after => by
    rw [siblings, List.map_append, map_label_places, map_label_siblings, preorderAll]

end

/-! ### From the top of a tree -/

theorem onward_root (t : Tree) : (root t).onward = places [] t := List.append_nil _

/-- The nodes that a walk over a tree comes to, one after another. -/
def visited (t : Tree) : List Cursor := (root t).visit (fun seen c => seen ++ [c]) []

theorem visited_eq (t : Tree) : visited t = places [] t := by
  rw [visited, visit_eq_foldl, onward_root, List.foldl_append_eq_append, List.nil_append,
    ← List.flatMap_def, List.flatMap_singleton']

theorem at?_iff_of_places (t : Tree) (p : List Nat) (s : Tree) :
    t.at? p = some s ↔ ∃ d ∈ places [] t, d.address = p ∧ d.node = s := by
  constructor
  · intro h
    obtain ⟨d, hd, haddress, hnode⟩ := exists_place [] h
    exact ⟨d, hd, haddress, hnode⟩
  · rintro ⟨d, hd, rfl, rfl⟩
    obtain ⟨p, haddress, hp⟩ := at?_of_mem_places [] t hd
    rw [haddress]
    exact hp

theorem tells_root (h : t.Flagged) : (root t).Tells := by
  intro d hd hflawed e he
  rw [onward_root] at hd
  have hnode := (at?_iff_of_places t d.address d.node).2 ⟨d, hd, rfl, rfl⟩
  have hnone : ¬d.node.HasFlaw := by
    rw [← (h.at hnode).flawed_iff]
    exact Bool.eq_false_iff.1 hflawed
  obtain ⟨p, -, hp⟩ := at?_of_mem_places d.above d.node he
  exact not_not.1 fun hflaw => hnone ⟨p, e.node, hp, hflaw⟩

end Cursor

end CodeIndex.Syntax.Tree
