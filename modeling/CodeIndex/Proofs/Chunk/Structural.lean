import CodeIndex.Chunk.Basic
import CodeIndex.Proofs.Chunk.Grouping
import CodeIndex.Proofs.Syntax.Cursor
import CodeIndex.Proofs.Text.Lines
import Mathlib.Data.List.TakeWhile

/-! Structural fragments and the text that they hold.  Every classified node lies in a group, the
group spans the node's text, and a group with enough text has a fragment. -/

namespace CodeIndex

namespace Text

variable {cs ds : List Char}

theorem trim_eq_nil (h : ∀ c ∈ cs, isBlank c = true) : trim cs = [] := by
  have hstart : trimStart cs = [] := List.dropWhile_eq_nil_iff.2 h
  rw [trim, hstart]
  rfl

theorem trimStart_append (cs ds : List Char) :
    trimStart (cs ++ ds) = trimStart ds ∧ trimStart cs = [] ∨
      trimStart (cs ++ ds) = trimStart cs ++ ds := by
  unfold trimStart
  rw [List.dropWhile_append]
  cases h : cs.dropWhile isBlank with
  | nil => left; exact ⟨rfl, rfl⟩
  | cons c rest => right; rfl

theorem isInfix_trimStart (h : cs <:+: ds) : trimStart cs <:+: trimStart ds := by
  obtain ⟨before, after, rfl⟩ := h
  have hprefix : trimStart cs <:+: trimStart (cs ++ after) := by
    rcases trimStart_append cs after with ⟨-, hnil⟩ | hboth
    · rw [hnil]
      exact List.nil_infix
    · rw [hboth]
      exact (List.prefix_append _ _).isInfix
  have hsuffix : trimStart (cs ++ after) <:+: trimStart (before ++ (cs ++ after)) := by
    rcases trimStart_append before (cs ++ after) with ⟨hrest, -⟩ | hboth
    · simp only [hrest, List.infix_rfl]
    · rw [hboth]
      exact ((List.dropWhile_suffix _).trans (List.suffix_append _ _)).isInfix
  rw [List.append_assoc]
  exact hprefix.trans hsuffix

theorem isInfix_trimEnd (h : cs <:+: ds) : trimEnd cs <:+: trimEnd ds := by
  have hreverse := isInfix_trimStart (List.reverse_infix.2 h)
  exact List.reverse_infix.2 hreverse

theorem isInfix_trim (h : cs <:+: ds) : trim cs <:+: trim ds :=
  isInfix_trimEnd (isInfix_trimStart h)

end Text

namespace Chunk

variable {source : List Char} {m : Match} {ms : List Match} {g : Group}

theorem isInfix_slice (source : List Char) (start stop : Nat) : slice source start stop <:+: source :=
  (List.take_prefix _ _).isInfix.trans (List.drop_suffix _ _).isInfix

theorem isInfix_slice_slice {start stop start' stop' : Nat} (hstart : start' ≤ start)
    (hstop : stop ≤ stop') : slice source start stop <:+: slice source start' stop' := by
  by_cases hempty : stop ≤ start
  · have hlength : stop - start = 0 := by omega
    rw [slice, hlength, List.take_zero]
    exact List.nil_infix
  have hdrop : source.drop start = (source.drop start').drop (start - start') := by
    rw [List.drop_drop]
    congr 1
    omega
  have hsum : start - start' + (stop - start) = stop - start' := by omega
  have hinner : slice source start stop =
      ((source.drop start').take (stop - start')).drop (start - start') := by
    rw [slice, hdrop, List.take_drop, hsum]
  rw [hinner]
  have hlonger : (source.drop start').take (stop - start') <+: slice source start' stop' :=
    List.take_prefix_take_left (by omega)
  exact (List.drop_suffix _ _).isInfix.trans hlonger.isInfix

/-! ### The classified nodes -/

theorem foldl_ofLabel (source : List Char) (ls : List Syntax.Label) (found : List Match) :
    ls.foldl (fun found l =>
      match Match.ofLabel source l with
      | some m => m :: found
      | none => found) found = (ls.filterMap (Match.ofLabel source)).reverse ++ found := by
  induction ls generalizing found with
  | nil => rfl
  | cons l ls ih =>
    rw [List.foldl_cons, ih]
    cases h : Match.ofLabel source l with
    | none => rw [List.filterMap_cons_none h]
    | some m => rw [List.filterMap_cons_some h, List.reverse_cons, List.append_assoc]; rfl

theorem matches_eq_filterMap (source : List Char) (tree : Syntax.Tree) :
    matches_ source tree = tree.preorder.filterMap (Match.ofLabel source) := by
  have hfold := foldl_ofLabel source tree.preorder []
  rw [List.append_nil, ← Syntax.Tree.Cursor.map_label_places [], List.foldl_map] at hfold
  rw [matches_, Syntax.Tree.Cursor.visit_eq_foldl, Syntax.Tree.Cursor.onward_root,
    ← Syntax.Tree.Cursor.map_label_places []]
  exact (congrArg List.reverse hfold).trans (List.reverse_reverse _)

theorem Match.exists_ofLabel {l : Syntax.Label} (hnamed : l.named = true)
    (hclass : (classify l.kind).isSome = true) :
    ∃ m, Match.ofLabel source l = some m ∧ m.start = l.start ∧ m.stop = l.stop := by
  obtain ⟨cls, hcls⟩ := Option.isSome_iff_exists.1 hclass
  rw [Match.ofLabel, if_pos hnamed, hcls]
  exact ⟨_, rfl, rfl, rfl⟩

theorem exists_match {tree : Syntax.Tree} {l : Syntax.Label} (hl : l ∈ tree.preorder)
    (hnamed : l.named = true) (hclass : (classify l.kind).isSome = true) :
    ∃ m ∈ matches_ source tree, m.start = l.start ∧ m.stop = l.stop := by
  obtain ⟨m, hm, hspan⟩ := Match.exists_ofLabel hnamed hclass
  refine ⟨m, ?_, hspan⟩
  rw [matches_eq_filterMap]
  exact List.mem_filterMap.2 ⟨l, hl, hm⟩

/-! ### Groups -/

/-- A fold that takes in one number after another, such as the least or the greatest so far, is
related to the number at its start and to all that it takes in. -/
theorem foldl_related {r : Nat → Nat → Prop} {op : Nat → Nat → Nat} (hrefl : ∀ a, r a a)
    (htrans : ∀ a b c, r a b → r b c → r a c) (hop : ∀ a b, r (op a b) a ∧ r (op a b) b)
    (f : Match → Nat) (a : Nat) (ms : List Match) :
    r (ms.foldl (fun b m => op b (f m)) a) a ∧
      ∀ m ∈ ms, r (ms.foldl (fun b m => op b (f m)) a) (f m) := by
  induction ms generalizing a with
  | nil => exact ⟨hrefl a, fun m hm => absurd hm List.not_mem_nil⟩
  | cons first rest ih =>
    obtain ⟨hbound, hrest⟩ := ih (op a (f first))
    obtain ⟨hleft, hright⟩ := hop a (f first)
    rw [List.foldl_cons]
    refine ⟨htrans _ _ _ hbound hleft, fun m hm => ?_⟩
    rcases List.mem_cons.1 hm with rfl | hm
    · exact htrans _ _ _ hbound hright
    · exact hrest m hm

theorem Group.start_le (h : m ∈ g.nodes) : g.start ≤ m.start := by
  obtain ⟨hfirst, hrest⟩ := foldl_related (r := (· ≤ ·)) Nat.le_refl (fun _ _ _ => Nat.le_trans)
    (fun a b => ⟨Nat.min_le_left a b, Nat.min_le_right a b⟩) (·.start) g.first.start g.rest
  rcases List.mem_cons.1 h with rfl | h
  · exact hfirst
  · exact hrest m h

theorem Group.le_stop (h : m ∈ g.nodes) : m.stop ≤ g.stop := by
  obtain ⟨hfirst, hrest⟩ := foldl_related (r := (· ≥ ·)) Nat.le_refl
    (fun _ _ _ hab hbc => Nat.le_trans hbc hab)
    (fun a b => ⟨Nat.le_max_left a b, Nat.le_max_right a b⟩) (·.stop) g.first.stop g.rest
  rcases List.mem_cons.1 h with rfl | h
  · exact hfirst
  · exact hrest m h

/-! ### Fragments of groups -/

theorem Group.isInfix_slice (source : List Char) (h : m ∈ g.nodes) :
    slice source m.start m.stop <:+: slice source g.start g.stop :=
  isInfix_slice_slice (Group.start_le h) (Group.le_stop h)

/-- A group with a node that has enough text has a fragment, with all the text of the group. -/
theorem Group.exists_fragment (h : m ∈ g.nodes)
    (hsize : minSize ≤ (Text.trim (slice source m.start m.stop)).length) :
    ∃ f, g.fragment source = some f ∧ f.content = slice source g.start g.stop := by
  have hlarge : ¬(Text.trim (slice source g.start g.stop)).length < minSize := by
    have hle := (Text.isInfix_trim (Group.isInfix_slice source h)).length_le
    omega
  rw [Group.fragment, if_neg hlarge]
  exact ⟨_, rfl, rfl⟩

/-- A node with enough text has its text in a structural fragment. -/
theorem exists_structural (h : m ∈ ms)
    (hsize : minSize ≤ (Text.trim (slice source m.start m.stop)).length) :
    ∃ f ∈ structural source ms, slice source m.start m.stop <:+: f.content := by
  obtain ⟨g, hg, hm⟩ := exists_group_of_mem (List.mem_mergeSort.2 h)
  obtain ⟨f, hf, hcontent⟩ := Group.exists_fragment hm hsize
  refine ⟨f, List.mem_filterMap.2 ⟨g, hg, hf⟩, ?_⟩
  rw [hcontent]
  exact Group.isInfix_slice source hm

theorem fragment_eq_none_of_blank (h : Text.isAllBlank source = true) (g : Group) :
    g.fragment source = none := by
  have hslice : ∀ c ∈ slice source g.start g.stop, Text.isBlank c = true := fun c hc =>
    List.all_eq_true.1 h c ((isInfix_slice source _ _).subset hc)
  rw [Group.fragment, Text.trim_eq_nil hslice]
  rfl

/-- A blank text has no fragments, whatever its tree. -/
theorem fragments_eq_nil_of_blank (h : Text.isAllBlank source = true) (tree : Syntax.Tree) :
    fragments source tree = [] := by
  have hstructural : structural source (matches_ source tree) = [] := by
    rw [structural, List.filterMap_eq_nil_iff]
    exact fun g _ => fragment_eq_none_of_blank h g
  rw [fragments, hstructural, h]
  rfl

end Chunk

end CodeIndex
