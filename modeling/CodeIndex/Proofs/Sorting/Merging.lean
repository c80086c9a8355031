import CodeIndex.Proofs.Sorting.Insertion
import CodeIndex.Sorting.Runs

/-! Merging.  Two lists in their order are merged to one, from the front and from the end alike.
Items taken from the fronts of the two lists are a front of what they are merged to. -/

namespace CodeIndex.Sorting

variable {α : Type} {before : α → α → Bool} {as bs : List α}

theorem merged_perm (before : α → α → Bool) (as bs : List α) :
    (merged before as bs).Perm (as ++ bs) := List.merge_perm_append _

theorem Orders.merged_ascends (h : Orders before (as ++ bs)) (has : Ascends before as)
    (hbs : Ascends before bs) : Ascends before (merged before as bs) := by
  unfold merged
  fun_induction List.merge as bs fun a b => !before b a with
  | case1 bs => exact hbs
  | case2 as => exact has
  | case3 a as b bs hnot ih =>
    obtain ⟨hafter, hrest⟩ := List.pairwise_cons.1 has
    have hab : before a b = true := by
      refine h.before_of_not (by simp) (by simp) ?_ (by simpa using hnot)
      rintro rfl
      exact (List.nodup_cons.1 h.nodup).1 (by simp)
    refine List.pairwise_cons.2
      ⟨fun x hx => ?_, ih (h.sublist (List.sublist_cons_self _ _)) hrest hbs⟩
    rcases List.mem_merge.1 hx with hx | hx
    · exact hafter x hx
    · rcases List.mem_cons.1 hx with rfl | hx
      · exact hab
      · exact h.goesOn a b x (by simp) (by simp) (by simp [hx]) hab
          ((List.pairwise_cons.1 hbs).1 x hx)
  | case4 a as b bs hnot ih =>
    obtain ⟨hafter, hrest⟩ := List.pairwise_cons.1 hbs
    have hba : before b a = true := by simpa using hnot
    refine List.pairwise_cons.2 ⟨fun x hx => ?_, ih (h.sublist ?_) has hrest⟩
    · rcases List.mem_merge.1 hx with hx | hx
      · rcases List.mem_cons.1 hx with rfl | hx
        · exact hba
        · exact h.goesOn b a x (by simp) (by simp) (by simp [hx]) hba
            ((List.pairwise_cons.1 has).1 x hx)
      · exact hafter x hx
    · exact (List.sublist_cons_self b bs).append_left _

/-- From the end, the same lists are merged to the same. -/
theorem Orders.merged_reverse (h : Orders before (as ++ bs)) (has : Ascends before as)
    (hbs : Ascends before bs) :
    (merged (fun b a => before a b) bs.reverse as.reverse).reverse = merged before as bs := by
  have hperm : (bs.reverse ++ as.reverse).Perm (as ++ bs) :=
    List.reverse_append ▸ List.reverse_perm _
  refine h.eq_of_ascends (((List.reverse_perm _).trans (merged_perm _ _ _)).trans hperm)
    (merged_perm _ _ _) ?_
    (h.merged_ascends has hbs)
  refine ascends_reverse.2 ((h.of_perm hperm).turned.merged_ascends ?_ ?_)
  · exact List.pairwise_reverse.2 hbs
  · exact List.pairwise_reverse.2 has

theorem mergeRuns_perm : (mergeRuns before as bs).Perm (as ++ bs) := by
  unfold mergeRuns
  split
  · exact merged_perm before as bs
  · refine ((List.reverse_perm _).trans (merged_perm _ _ _)).trans ?_
    exact List.reverse_append ▸ List.reverse_perm _

theorem Orders.mergeRuns_ascends (h : Orders before (as ++ bs)) (has : Ascends before as)
    (hbs : Ascends before bs) : Ascends before (mergeRuns before as bs) := by
  unfold mergeRuns
  split
  · exact h.merged_ascends has hbs
  · rw [h.merged_reverse has hbs]
    exact h.merged_ascends has hbs

/-! ### Taking from the fronts -/

/-- What is taken of two lists and what is left of them. -/
structure TakenFrom (before : α → α → Bool) (count : ℕ) (as bs : List α) (t : Taken α) : Prop where
  /-- There is a front of each list. -/
  fronts : ∃ firsts seconds, as = firsts ++ t.first ∧ bs = seconds ++ t.second ∧
    t.items.Perm (firsts ++ seconds)
  merged_eq : merged before as bs = t.items ++ merged before t.first t.second
  length_items : count ≤ as.length → count ≤ bs.length → t.items.length = count

theorem takenFrom_take (before : α → α → Bool) (count : ℕ) (as bs : List α) :
    TakenFrom before count as bs (take before count as bs) := by
  fun_induction take before count as bs with
  | case1 count a as b bs hbefore more ih =>
    obtain ⟨⟨firsts, seconds, hfirst, hsecond, hperm⟩, hmerged, hlength⟩ := ih
    refine ⟨⟨firsts, b :: seconds, hfirst, congrArg (b :: ·) hsecond, ?_⟩, ?_, fun has hbs => ?_⟩
    · exact (hperm.cons b).trans List.perm_middle.symm
    · rw [merged, List.cons_merge_cons_neg _ _ _ (by simpa using hbefore)]
      exact congrArg (b :: ·) hmerged
    · exact congrArg (· + 1) (hlength (Nat.le_of_succ_le has) (Nat.le_of_succ_le_succ hbs))
  | case2 count a as b bs hnot more ih =>
    obtain ⟨⟨firsts, seconds, hfirst, hsecond, hperm⟩, hmerged, hlength⟩ := ih
    refine ⟨⟨a :: firsts, seconds, congrArg (a :: ·) hfirst, hsecond, hperm.cons a⟩, ?_,
      fun has hbs => ?_⟩
    · rw [merged, List.cons_merge_cons_pos _ _ _ (by simpa using hnot)]
      exact congrArg (a :: ·) hmerged
    · exact congrArg (· + 1) (hlength (Nat.le_of_succ_le_succ has) (Nat.le_of_succ_le hbs))
  | case3 count as bs hnone =>
    refine ⟨⟨[], [], rfl, rfl, List.Perm.refl _⟩, rfl, fun has hbs => ?_⟩
    cases count with
    | zero => rfl
    | succ count =>
      cases as with
      | nil => cases has
      | cons a as =>
        cases bs with
        | nil => cases hbs
        | cons b bs => exact absurd rfl (hnone count a as b bs rfl rfl)

end CodeIndex.Sorting
