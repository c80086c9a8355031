import CodeIndex.Proofs.Chunk.Placement

/-! The fragments of the structure.  A function, class, import or export starts a group, and what
follows it closely enough goes on with it; so the first node of a group names its fragment. -/

namespace CodeIndex.Chunk

variable {source : List Char} {m : Match} {ms before after : List Match} {g : Group}

/-! ### What goes on with a group -/

/-- A node goes on with those before it if it is one that starts no group and begins no more than two
lines below the last of theirs. -/
def Continues (before : List Match) (m : Match) : Prop :=
  m.cls.major = false ∧
    ∃ last, (before.map (·.endLine)).max? = some last ∧ m.startLine ≤ last + 2

theorem Group.max?_nodes (g : Group) (f : Match → Nat) :
    (g.nodes.map f).max? = some (g.rest.foldl (fun n m => max n (f m)) (f g.first)) := by
  rw [Group.nodes, List.map_cons, List.max?_cons', List.foldl_map]

theorem Group.Grown.max_endLine (h : g.Grown) :
    (g.nodes.map (·.endLine)).max? = some g.endLine := by
  rw [Group.max?_nodes]
  induction h with
  | single m => rfl
  | @add g m _ _ ih =>
    unfold Group.add
    rw [List.foldl_concat, Option.some.inj ih]

theorem Group.Grown.takes_iff (h : g.Grown) : g.takes m = true ↔ Continues g.nodes m := by
  rw [Group.takes, Bool.and_eq_true, Bool.not_eq_true', decide_eq_true_eq, Continues, h.max_endLine]
  refine and_congr_right fun _ => ⟨fun hline => ⟨g.endLine, rfl, hline⟩, ?_⟩
  rintro ⟨last, hlast, hline⟩
  obtain rfl := Option.some.inj hlast
  exact hline

/-- The nodes of a group went on with those before them, one after another. -/
theorem Group.Grown.continues (h : g.Grown) (hnodes : g.nodes = before ++ m :: after)
    (hne : before ≠ []) : Continues before m := by
  induction h generalizing after with
  | single first =>
    obtain ⟨head, rest, rfl⟩ := List.exists_cons_of_ne_nil hne
    have hlength := congrArg List.length hnodes
    simp [Group.single, Group.nodes] at hlength
  | @add g next h htakes ih =>
    rw [Group.nodes_add] at hnodes
    rcases List.eq_nil_or_concat' after with rfl | ⟨init, last, rfl⟩
    · obtain ⟨rfl, hlast⟩ := List.append_inj' hnodes rfl
      obtain rfl := List.cons.inj hlast |>.1
      exact h.takes_iff.1 htakes
    -- the node is not the last one, so it was there before the last one was taken in
    · rw [← List.cons_append, ← List.append_assoc] at hnodes
      exact ih (List.append_inj' hnodes rfl).1

theorem Group.Grown.minor (h : g.Grown) (hm : m ∈ g.rest) : m.cls.major = false := by
  obtain ⟨before, after, hrest⟩ := List.append_of_mem hm
  have hnodes : g.nodes = (g.first :: before) ++ m :: after := congrArg (g.first :: ·) hrest
  exact (h.continues hnodes (List.cons_ne_nil _ _)).1

/-! ### The fragment of a group -/

/-- Only functions and classes name a fragment from further down, and they always start a group. -/
theorem major_of_isAnchor {kind : String} {cls : Class} (h : classify kind = some cls) :
    cls.kind.isAnchor = true → cls.major = true := by
  unfold classify at h
  split_ifs at h <;> cases h <;> decide

theorem Group.anchor_eq (hclass : ∀ m ∈ g.rest, classify m.kind = some m.cls)
    (hminor : ∀ m ∈ g.rest, m.cls.major = false) : g.anchor = g.first := by
  have hlater : g.rest.find? (·.cls.kind.isAnchor) = none := by
    rw [List.find?_eq_none]
    intro m hm hanchor
    have hmajor := major_of_isAnchor (hclass m hm) hanchor
    rw [hminor m hm] at hmajor
    cases hmajor
  unfold Group.anchor Group.nodes
  rw [List.find?_cons, hlater]
  cases g.first.cls.kind.isAnchor <;> rfl

theorem Group.max_stop (g : Group) : (g.nodes.map (·.stop)).max? = some g.stop :=
  g.max?_nodes (·.stop)

theorem Group.fragment_eq (hg : g.Lined source) (hstart : g.start = g.first.start)
    (hanchor : g.anchor = g.first) :
    g.fragment source =
      if (Text.trim (slice source g.first.start g.stop)).length < minSize then none
      else some ⟨0, slice source g.first.start g.stop, g.first.startLine, g.endLine,
        g.first.cls.kind, g.first.kind⟩ := by
  have hline : g.startLine = g.first.startLine := by
    rw [hg.startLine_eq, hstart]
    exact (hg.nodes g.first List.mem_cons_self).1.symm
  rw [Group.fragment, hstart, hline, hanchor]

/-- Nodes are put in order and divided into groups.  A group goes on exactly while the next node
continues it, so none but its first node can start one.  Its fragment reaches from there to where the
last of its nodes ends, has the name of the first node, and is left out if it has too little text. -/
theorem structural_groups (h : ∀ m ∈ ms, m.Read source) :
    ∃ sorted, Ordered ms sorted ∧ ∃ gs : List Group, gs.flatMap Group.nodes = sorted ∧
      (gs.IsChain fun a b => ¬Continues a.nodes b.first) ∧
      structural source ms = gs.filterMap (·.fragment source) ∧
      ∀ g ∈ gs, (∀ m ∈ g.rest, m.cls.major = false) ∧
        (∀ before m after, g.nodes = before ++ m :: after → before ≠ [] → Continues before m) ∧
        g.anchor = g.first ∧
        ∃ stop endLine, (g.nodes.map (·.stop)).max? = some stop ∧
          (g.nodes.map (·.endLine)).max? = some endLine ∧
          g.fragment source =
            if (Text.trim (slice source g.first.start stop)).length < 50 then none
            else some ⟨0, slice source g.first.start stop, g.first.startLine, endLine,
              g.first.cls.kind, g.first.kind⟩ := by
  have hordered := ordered_mergeSort ms
  obtain ⟨hnodes, hgrown, hparted⟩ := groups_wellFormed (ms.mergeSort Match.before)
  refine ⟨_, hordered, _, hnodes, ?_, rfl, fun g hg => ?_⟩
  · refine hparted.imp_of_mem_imp fun a b ha _ hab => ?_
    rw [← (hgrown a ha).takes_iff]
    exact Bool.eq_false_iff.1 hab
  · have hread : ∀ m ∈ g.nodes, m.Read source := fun m hm =>
      h m (List.mem_mergeSort.1 (mem_of_mem_groups hg hm))
    have hminor : ∀ m ∈ g.rest, m.cls.major = false := fun m hm => (hgrown g hg).minor hm
    have hanchor : g.anchor = g.first :=
      Group.anchor_eq (fun m hm => (hread m (List.mem_cons_of_mem _ hm)).class_eq) hminor
    -- the nodes of a group are in order too, so none of them lies before the first
    have hstart : g.start = g.first.start := by
      have hascending := hordered.ascending
      rw [← hnodes, List.pairwise_flatMap] at hascending
      exact Group.start_eq (List.pairwise_cons.1 (hascending.1 g hg)).1
    have hlined : g.Lined source := (hgrown g hg).lined fun m hm => (hread m hm).lined
    exact ⟨hminor, fun _ _ _ => (hgrown g hg).continues, hanchor, g.stop, g.endLine, g.max_stop,
      (hgrown g hg).max_endLine, Group.fragment_eq hlined hstart hanchor⟩

/-- A function with statements in it, a statement two lines below, and a short one further down. -/
def totalSource : List Char :=
  Text.joinLines ["function total(items) \x7b".toList, "  let sum = 0;".toList,
    "  for (const item of items) \x7b sum += item.price; \x7d".toList, "  return sum;".toList,
    "\x7d".toList, [], "report(total(readCart()));".toList, [], [], [], "const limit = 9;".toList, []]

def totalTree : Syntax.Tree :=
  .branch "program" 0 154 [
    .branch "function_declaration" 0 105 [.branch "statement_block" 22 105 [
      .branch "lexical_declaration" 26 38 [],
      .branch "for_in_statement" 41 89 [.branch "statement_block" 67 89 [
        .branch "expression_statement" 69 87 []]],
      .branch "return_statement" 92 103 []]],
    .branch "expression_statement" 107 133 [],
    .branch "lexical_declaration" 137 153 []]

/-- The statement below the function goes on with it, although the node before it ended further up. -/
theorem structural_groups_total :
    (∀ m ∈ matches_ totalSource totalTree, m.Read totalSource) ∧
    structural totalSource (matches_ totalSource totalTree) =
      [⟨0, slice totalSource 0 133, 1, 7, .function, "function_declaration"⟩] ∧
    ∃ gs : List Group, (gs.flatMap Group.nodes).Perm (matches_ totalSource totalTree) ∧
      gs.filterMap (·.fragment totalSource) =
        [⟨0, slice totalSource 0 133, 1, 7, .function, "function_declaration"⟩] ∧
      ∀ g ∈ gs, g.anchor = g.first := by
  have hread : ∀ m ∈ matches_ totalSource totalTree, m.Read totalSource := fun m hm =>
    read_of_mem_matches hm
  have hfragments : structural totalSource (matches_ totalSource totalTree) =
      [⟨0, slice totalSource 0 133, 1, 7, .function, "function_declaration"⟩] := by
    have hmatches : matches_ totalSource totalTree =
        [⟨0, 105, 1, 5, ⟨true, .function⟩, "function_declaration"⟩,
          ⟨26, 38, 2, 2, ⟨false, .variable_⟩, "lexical_declaration"⟩,
          ⟨41, 89, 3, 3, ⟨false, .expression⟩, "for_in_statement"⟩,
          ⟨69, 87, 3, 3, ⟨false, .expression⟩, "expression_statement"⟩,
          ⟨107, 133, 7, 7, ⟨false, .expression⟩, "expression_statement"⟩,
          ⟨137, 153, 11, 11, ⟨false, .variable_⟩, "lexical_declaration"⟩] := by
      rw [matches_eq_filterMap]
      decide +kernel
    rw [hmatches, structural, List.mergeSort_of_pairwise (by decide)]
    decide +kernel
  obtain ⟨sorted, hordered, gs, hnodes, -, hstructural, hgroups⟩ := structural_groups hread
  refine ⟨hread, hfragments, gs, ?_, ?_, fun g hg => (hgroups g hg).2.2.1⟩
  · rw [hnodes]
    exact hordered.perm
  · rw [← hstructural, hfragments]

end CodeIndex.Chunk
