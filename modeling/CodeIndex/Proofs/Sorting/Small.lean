import CodeIndex.Proofs.Sorting.Merging

/-! Sorting short lists.  What two halves in their order are merged to from both ends is what they
are merged to from the front: the items taken from the ends stand behind those taken from the fronts,
so none is taken twice. -/

namespace CodeIndex.Sorting

variable {α β : Type} {before : α → α → Bool}

/-! ### Computations that may break off -/

/-- A computation gives only what has a property, and breaks off only for want of an order, which is
not wanting under a condition. -/
def Gives (ordered : Prop) (m : Except Fault α) (P : α → Prop) : Prop :=
  match m with
  | .ok a => P a
  | .error f => f = .disorder ∧ ¬ ordered

section

variable {ordered : Prop} {m : Except Fault α} {P Q : α → Prop} {a : α}

theorem gives_ok (h : P a) : Gives ordered (.ok a) P := h

theorem Gives.of_eq (h : Gives ordered m P) (hm : m = .ok a) : P a := by
  rw [hm] at h
  exact h

theorem Gives.imp (h : Gives ordered m P) (hPQ : ∀ a, P a → Q a) : Gives ordered m Q := by
  cases m with
  | ok a => exact hPQ a h
  | error f => exact h

theorem Gives.exists_ok (h : Gives ordered m P) (hordered : ordered) : ∃ a, m = .ok a ∧ P a := by
  cases m with
  | ok a => exact ⟨a, rfl, h⟩
  | error f => exact absurd hordered h.2

theorem Gives.bind {f : α → Except Fault β} {R : β → Prop} (h : Gives ordered m P)
    (hf : ∀ a, P a → Gives ordered (f a) R) : Gives ordered (m >>= f) R := by
  cases m with
  | ok a => exact hf a h
  | error f => exact h

end

/-- The items of a list, in their order if they have one. -/
structure SortOf (before : α → α → Bool) (ordered : Prop) (as bs : List α) : Prop where
  perm : bs.Perm as
  ascends : ordered → Ascends before bs

variable {ordered : Prop} {as bs : List α}

/-! ### Sorting the halves -/

theorem sortFour_perm (a b c d : α) : (sortFour before a b c d).Perm [a, b, c, d] := by
  classical
  refine List.perm_iff_count.2 fun x => ?_
  unfold sortFour
  split_ifs <;> grind

theorem Orders.sortFour_ascends {a b c d : α} (h : Orders before [a, b, c, d]) :
    Ascends before (sortFour before a b c d) := by
  have hgoes := h.goesOn
  have hlinked := h.linked
  have hnodup := h.nodup
  simp only [List.pairwise_cons, GoesOn, Linked] at hgoes hlinked hnodup
  unfold sortFour Ascends
  split_ifs <;> grind

theorem append_reverse_sortFour_perm (a b c d : α) (rest : List α) :
    (rest ++ (sortFour before a b c d).reverse).Perm ([a, b, c, d] ++ rest) := by
  refine List.perm_append_comm.trans (List.Perm.append_right rest ?_)
  exact (List.reverse_perm _).trans (sortFour_perm a b c d)

theorem fourSort_perm (as : List α) : (fourSort before as).Perm as := by
  unfold fourSort
  split
  · next a b c d rest =>
    refine (List.reverse_perm _).trans ((insertAll_perm _ _).trans ?_)
    exact append_reverse_sortFour_perm a b c d rest
  · exact insertionSort_perm _

theorem Orders.fourSort_ascends (h : Orders before as) : Ascends before (fourSort before as) := by
  unfold fourSort
  split
  · next a b c d rest =>
    have hfour : Orders before [a, b, c, d] :=
      h.sublist (List.sublist_append_left [a, b, c, d] rest)
    refine Orders.insertAll_ascends (h.of_perm (append_reverse_sortFour_perm a b c d rest)) ?_
    rw [List.reverse_reverse]
    exact hfour.sortFour_ascends
  · exact h.insertionSort_ascends

/-! ### Merging from both ends -/

/-- A front and an end of a list that do not overlap leave a middle between them. -/
theorem eq_front_middle_end {front firsts back lasts : List α} {count : ℕ}
    (hfront : as = front ++ firsts) (hback : as.reverse = back ++ lasts)
    (hfit : as.length + count = firsts.length + lasts.length) :
    as = front ++ (firsts.take count ++ back.reverse) := by
  have hturned : as = lasts.reverse ++ back.reverse := by
    rw [← List.reverse_append, ← hback, List.reverse_reverse]
  have hlength : as.length = front.length + firsts.length := by rw [hfront, List.length_append]
  have hplace : front.length + count = lasts.length := by omega
  have hrest : firsts.drop count = back.reverse := by
    have hfirsts : firsts = as.drop front.length := by rw [hfront, List.drop_left]
    have hlasts : back.reverse = as.drop lasts.length := by
      conv_rhs => rw [hturned, ← List.length_reverse, List.drop_left]
    rw [hlasts, ← hplace, hfirsts, List.drop_drop]
  rw [← hrest, List.take_append_drop, ← hfront]

/-- If neither way goes past the other, all items are taken and none of them twice. -/
theorem mergeEnds_perm {bs cs : List α} (h : mergeEnds before as bs = .ok cs) :
    cs.Perm (as ++ bs) := by
  have hfront := takenFrom_take before as.length as bs
  have hback := takenFrom_take (fun b a => before a b) as.length bs.reverse as.reverse
  unfold mergeEnds at h
  generalize take before as.length as bs = front at h hfront
  generalize take (fun b a => before a b) as.length bs.reverse as.reverse = back at h hback
  obtain ⟨front₁, front₂, has, hbs, hfrontPerm⟩ := hfront.fronts
  obtain ⟨back₂, back₁, hbs', has', hbackPerm⟩ := hback.fronts
  dsimp only at h
  split at h
  · next hfit =>
    cases h
    have hone := eq_front_middle_end has has' (Nat.add_sub_cancel' hfit.1)
    have hother := eq_front_middle_end hbs hbs' (Nat.add_sub_cancel' hfit.2)
    classical
    refine List.perm_iff_count.2 fun x => ?_
    have hcount := congrArg (List.count x) hone
    have hcount' := congrArg (List.count x) hother
    have htaken := hfrontPerm.count_eq x
    have htaken' := hbackPerm.count_eq x
    simp only [List.count_append, List.count_reverse] at hcount hcount' htaken htaken' ⊢
    omega
  · cases h

/-- A front and an end of a list without an item in common do not overlap. -/
theorem length_le_of_disjoint {front firsts back lasts : List α} (hnodup : as.Nodup)
    (hfront : as = front ++ firsts) (hback : as.reverse = back ++ lasts)
    (hdisjoint : front.Disjoint back) : as.length ≤ firsts.length + lasts.length := by
  have hends : (front ++ back).Nodup := by
    refine List.nodup_append'.2 ⟨?_, ?_, hdisjoint⟩
    · rw [hfront] at hnodup
      exact hnodup.of_append_left
    · rw [← List.nodup_reverse, hback] at hnodup
      exact hnodup.of_append_left
  have hsubset : front ++ back ⊆ as := by
    intro x hx
    rcases List.mem_append.1 hx with hx | hx
    · rw [hfront]
      exact List.mem_append_left _ hx
    · rw [← List.mem_reverse, hback]
      exact List.mem_append_left _ hx
  have hfit := (hends.subperm hsubset).length_le
  have hlength := congrArg List.length hfront
  have hlength' := congrArg List.length hback
  simp only [List.length_append, List.length_reverse] at hfit hlength hlength'
  omega

section

variable (h : Orders before (as ++ bs)) (has : Ascends before as) (hbs : Ascends before bs)
include h has hbs

/-- The items taken from the fronts stand before those taken from the ends. -/
theorem Orders.merged_eq_front_middle_end (hlength : as.length ≤ bs.length) :
    ∃ middle, middle.length = bs.length - as.length ∧
      merged before as bs = (take before as.length as bs).items ++ (middle ++
        (take (fun b a => before a b) as.length bs.reverse as.reverse).items.reverse) := by
  have hfront := takenFrom_take before as.length as bs
  have hback := takenFrom_take (fun b a => before a b) as.length bs.reverse as.reverse
  have hone := hfront.length_items le_rfl hlength
  have hother := hback.length_items (by simpa using hlength) (by simp)
  have hturned := congrArg List.reverse (h.merged_reverse has hbs)
  rw [List.reverse_reverse, hback.merged_eq] at hturned
  have hall : (merged before as bs).length = as.length + bs.length := by
    rw [(merged_perm before as bs).length_eq, List.length_append]
  have hrest := congrArg List.length hfront.merged_eq
  have hrest' := congrArg List.length hturned
  rw [List.length_append] at hrest hrest'
  rw [List.length_reverse] at hrest'
  refine ⟨_, ?_, eq_front_middle_end hfront.merged_eq hturned.symm
    (show (merged before as bs).length + (bs.length - as.length) = _ from ?_)⟩
  · rw [List.length_take]
    omega
  · omega

theorem Orders.mergeEnds_eq (hlength : as.length ≤ bs.length) (hodd : bs.length ≤ as.length + 1) :
    mergeEnds before as bs = .ok (merged before as bs) := by
  obtain ⟨middle, hmiddle, hmerged⟩ := h.merged_eq_front_middle_end has hbs hlength
  have hdisjoint : ∀ x ∈ (take before as.length as bs).items,
      x ∉ (take (fun b a => before a b) as.length bs.reverse as.reverse).items := by
    have hnodup := (h.of_perm (merged_perm before as bs)).nodup
    rw [hmerged, ← List.append_assoc, List.nodup_append'] at hnodup
    intro x hx hx'
    exact hnodup.2.2 (List.mem_append_left _ hx) (List.mem_reverse.2 hx')
  obtain ⟨front₁, front₂, hfront₁, hfront₂, hfront⟩ :=
    (takenFrom_take before as.length as bs).fronts
  obtain ⟨back₂, back₁, hback₂, hback₁, hback⟩ :=
    (takenFrom_take (fun b a => before a b) as.length bs.reverse as.reverse).fronts
  have hfit := And.intro
    (length_le_of_disjoint h.nodup.of_append_left hfront₁ hback₁ fun x hx hx' =>
      hdisjoint x (hfront.mem_iff.2 (by simp [hx])) (hback.mem_iff.2 (by simp [hx'])))
    (length_le_of_disjoint h.nodup.of_append_right hfront₂ hback₂ fun x hx hx' =>
      hdisjoint x (hfront.mem_iff.2 (by simp [hx])) (hback.mem_iff.2 (by simp [hx'])))
  have htaken : mergeEnds before as bs = .ok _ := if_pos hfit
  have hperm := (mergeEnds_perm htaken).trans (merged_perm before as bs).symm
  rw [hmerged, List.append_assoc, List.append_assoc, List.perm_append_left_iff, ← List.append_assoc,
    List.perm_append_right_iff] at hperm
  rw [htaken, hmerged, List.append_assoc, List.append_assoc,
    ← List.append_assoc _ _ (List.reverse _)]
  -- there is at most one item in the middle
  match middle, hmiddle with
  | [], _ => rw [List.perm_nil.1 hperm]
  | [x], _ => rw [List.perm_singleton.1 hperm]
  | _ :: _ :: _, hmiddle => simp only [List.length_cons] at hmiddle; omega

end

/-! ### The whole sort -/

theorem mergeEnds_gives (h : ordered → Orders before (as ++ bs)) (has : ordered → Ascends before as)
    (hbs : ordered → Ascends before bs) (hlength : as.length ≤ bs.length)
    (hodd : bs.length ≤ as.length + 1) :
    Gives ordered (mergeEnds before as bs) (SortOf before ordered (as ++ bs)) := by
  by_cases hordered : ordered
  · rw [(h hordered).mergeEnds_eq (has hordered) (hbs hordered) hlength hodd]
    exact gives_ok ⟨merged_perm before as bs,
      fun _ => (h hordered).merged_ascends (has hordered) (hbs hordered)⟩
  · cases hmerge : mergeEnds before as bs with
    | ok cs => exact ⟨mergeEnds_perm hmerge, fun h => absurd h hordered⟩
    | error f =>
      unfold mergeEnds at hmerge
      dsimp only at hmerge
      split at hmerge <;> cases hmerge
      exact ⟨rfl, hordered⟩

/-- What a half of a short list is sorted by. -/
theorem sortHalf_sortOf (h : ordered → Orders before as) (short : Prop) [Decidable short] :
    SortOf before ordered as ((if short then insertionSort before else fourSort before) as) := by
  split
  · exact ⟨insertionSort_perm as, fun hordered => (h hordered).insertionSort_ascends⟩
  · exact ⟨fourSort_perm as, fun hordered => (h hordered).fourSort_ascends⟩

theorem smallSort_gives (h : ordered → Orders before as) :
    Gives ordered (smallSort before as) (SortOf before ordered as) := by
  unfold smallSort
  split
  · next hshort =>
    refine gives_ok ⟨List.Perm.refl _, fun _ => ?_⟩
    match as, hshort with
    | [], _ => exact List.Pairwise.nil
    | [a], _ => exact List.pairwise_singleton _ _
    | _ :: _ :: _, hshort => simp only [List.length_cons] at hshort; omega
  · have hfirst := sortHalf_sortOf
      (fun hordered => (h hordered).sublist (List.take_sublist (as.length / 2) as)) (as.length < 8)
    have hsecond := sortHalf_sortOf
      (fun hordered => (h hordered).sublist (List.drop_sublist (as.length / 2) as)) (as.length < 8)
    have hperm := hfirst.perm.append hsecond.perm
    rw [List.take_append_drop] at hperm
    have hlengths := And.intro hfirst.perm.length_eq hsecond.perm.length_eq
    rw [List.length_take, List.length_drop] at hlengths
    refine (mergeEnds_gives (fun hordered => (h hordered).of_perm hperm) hfirst.ascends
      hsecond.ascends ?_ ?_).imp fun cs hcs => ⟨hcs.perm.trans hperm, hcs.ascends⟩
    · omega
    · omega

end CodeIndex.Sorting
