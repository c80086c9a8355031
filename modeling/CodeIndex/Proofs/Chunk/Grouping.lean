import CodeIndex.Chunk.Grouping
import Mathlib.Data.List.Chain

/-! How nodes are put in order and divided into groups.  A group takes in the nodes that stand one after
another as far as it can, and no node is lost. -/

namespace CodeIndex.Chunk

variable {a b m : Match} {ms : List Match} {g : Group}

/-! ### The order of nodes -/

theorem Match.before_iff :
    a.before b = true ↔ a.start < b.start ∨ a.start = b.start ∧ b.stop ≤ a.stop := by
  simp only [Match.before, Bool.or_eq_true, Bool.and_eq_true, decide_eq_true_eq, beq_iff_eq]

theorem Match.before_trans (a b c : Match) (hab : a.before b = true) (hbc : b.before c = true) :
    a.before c = true := by
  rw [before_iff] at hab hbc ⊢
  omega

theorem Match.before_total (a b : Match) : (a.before b || b.before a) = true := by
  rw [Bool.or_eq_true, before_iff, before_iff]
  omega

/-- A list of nodes put in order: by their start, of two at one place the longer first, and those of
one span as they stood. -/
structure Ordered (ms sorted : List Match) : Prop where
  perm : sorted.Perm ms
  before : sorted.Pairwise fun a b => a.start < b.start ∨ a.start = b.start ∧ b.stop ≤ a.stop
  stable : ∀ start stop, sorted.filter (fun m => m.start = start ∧ m.stop = stop) =
    ms.filter fun m => m.start = start ∧ m.stop = stop

theorem Ordered.ascending {sorted : List Match} (h : Ordered ms sorted) :
    sorted.Pairwise fun a b => a.start ≤ b.start :=
  h.before.imp fun hab => by omega

theorem ordered_mergeSort (ms : List Match) : Ordered ms (ms.mergeSort Match.before) where
  perm := ms.mergeSort_perm _
  before := (List.pairwise_mergeSort Match.before_trans Match.before_total ms).imp Match.before_iff.1
  stable start stop := by
    have hspan : (ms.filter fun m => m.start = start ∧ m.stop = stop).Pairwise
        fun a b => a.before b = true := by
      refine List.pairwise_of_forall_mem_list fun a ha b hb => ?_
      obtain ⟨-, ha⟩ := List.mem_filter.1 ha
      obtain ⟨-, hb⟩ := List.mem_filter.1 hb
      obtain ⟨rfl, rfl⟩ := of_decide_eq_true ha
      obtain ⟨hstart, hstop⟩ := of_decide_eq_true hb
      exact Match.before_iff.2 (.inr ⟨hstart.symm, Nat.le_of_eq hstop⟩)
    -- sorting keeps what is in order, and has no other nodes of this span
    have hkept := (List.sublist_mergeSort Match.before_trans Match.before_total hspan
      List.filter_sublist).filter fun m => m.start = start ∧ m.stop = stop
    rw [List.filter_filter] at hkept
    simp only [Bool.and_self] at hkept
    exact (hkept.eq_of_length ((ms.mergeSort_perm _).symm.filter _).length_eq).symm

/-! ### Division -/

theorem Group.nodes_add (g : Group) (m : Match) : (g.add m).nodes = g.nodes ++ [m] := rfl

/-- Each node after the first was taken in by the group of those before it. -/
inductive Group.Grown : Group → Prop
  | single (m : Match) : Grown (.single m)
  | add {g : Group} {m : Match} (h : Grown g) (htakes : g.takes m = true) : Grown (g.add m)

/-- One group after another: the first does not take in the node that the next begins with. -/
def Group.Parted (a b : Group) : Prop := a.takes b.first = false

theorem groupsFrom_eq_cons (h : g.Grown) (ms : List Match) :
    ∃ g' more, groupsFrom g ms = g' :: more ∧ g'.first = g.first ∧
      (g' :: more).flatMap Group.nodes = g.nodes ++ ms ∧ (∀ a ∈ g' :: more, a.Grown) ∧
      (g' :: more).IsChain Group.Parted := by
  induction ms generalizing g with
  | nil =>
    refine ⟨g, [], rfl, rfl, rfl, fun a ha => ?_, List.isChain_singleton g⟩
    exact List.mem_singleton.1 ha ▸ h
  | cons next rest ih =>
    unfold groupsFrom
    split
    next htakes =>
      obtain ⟨g', more, hgroups, hfirst, hnodes, hgrown⟩ := ih (h.add htakes)
      rw [Group.nodes_add, List.append_assoc] at hnodes
      exact ⟨g', more, hgroups, hfirst, hnodes, hgrown⟩
    next htakes =>
      obtain ⟨g', more, hgroups, hfirst, hnodes, hgrown, hchain⟩ := ih (.single next)
      refine ⟨g, g' :: more, congrArg (g :: ·) hgroups, rfl, ?_, ?_, ?_⟩
      · rw [List.flatMap_cons, hnodes]
        rfl
      · intro a ha
        rcases List.mem_cons.1 ha with rfl | ha
        · exact h
        · exact hgrown a ha
      -- what parts this group from the next is the test that ended it
      · refine List.isChain_cons_cons.2 ⟨?_, hchain⟩
        rw [Group.Parted, hfirst]
        exact Bool.not_eq_true _ ▸ htakes

theorem groups_wellFormed (ms : List Match) :
    (groups ms).flatMap Group.nodes = ms ∧ (∀ g ∈ groups ms, g.Grown) ∧
      (groups ms).IsChain Group.Parted := by
  cases ms with
  | nil => exact ⟨rfl, fun g hg => absurd hg List.not_mem_nil, List.IsChain.nil⟩
  | cons first rest =>
    obtain ⟨g, more, hgroups, -, hnodes, hgrown⟩ := groupsFrom_eq_cons (.single first) rest
    rw [groups, hgroups]
    exact ⟨hnodes, hgrown⟩

/-- Dividing nodes into groups loses none of them. -/
theorem nodes_groups (ms : List Match) : (groups ms).flatMap Group.nodes = ms :=
  (groups_wellFormed ms).1

theorem grown_of_mem_groups (h : g ∈ groups ms) : g.Grown := (groups_wellFormed ms).2.1 g h

theorem exists_group_of_mem (h : m ∈ ms) : ∃ g ∈ groups ms, m ∈ g.nodes := by
  rw [← nodes_groups ms] at h
  exact List.mem_flatMap.1 h

theorem mem_of_mem_groups (hg : g ∈ groups ms) (hm : m ∈ g.nodes) : m ∈ ms := by
  rw [← nodes_groups ms]
  exact List.mem_flatMap.2 ⟨g, hg, hm⟩

end CodeIndex.Chunk
