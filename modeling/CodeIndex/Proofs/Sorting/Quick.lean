import CodeIndex.Proofs.Sorting.Small
import CodeIndex.Sorting.Quick

/-! Sorting by partition.  Whatever its pivot, a partition keeps the items of a list.  Where preceding
orders them, a pivot that does not come after the bound is the bound itself, so no other item goes to
the left with it. -/

namespace CodeIndex.Sorting

variable {α : Type} {before : α → α → Bool} {as bs : List α}

/-! ### Pivots -/

theorem median_cases (before : α → α → Bool) (as : List α) (i j k : ℕ) :
    median before as i j k = i ∨ median before as i j k = j ∨ median before as i j k = k := by
  unfold median
  dsimp only
  split_ifs <;> simp

theorem median_lt {i j k bound : ℕ} (hi : i < bound) (hj : j < bound) (hk : k < bound) :
    median before as i j k < bound := by
  rcases median_cases before as i j k with h | h | h <;> rwa [h]

theorem medianOfMedians_lt {i j k count bound : ℕ} (hcount : 0 < count) (hi : i + count ≤ bound)
    (hj : j + count ≤ bound) (hk : k + count ≤ bound) :
    medianOfMedians before as i j k count < bound := by
  induction count using Nat.strongRecOn generalizing i j k bound with
  | _ count ih =>
    rw [medianOfMedians]
    split
    · have hnear : ∀ i, i + count ≤ bound →
          medianOfMedians before as i (i + count / 8 * 4) (i + count / 8 * 7) (count / 8) <
            bound := by
        intro i hi
        apply ih <;> omega
      exact median_lt (hnear i hi) (hnear j hj) (hnear k hk)
    · exact median_lt (by omega) (by omega) (by omega)

theorem pivotPlace_lt (hlength : 8 ≤ as.length) : pivotPlace before as < as.length := by
  unfold pivotPlace
  dsimp only
  split
  · exact median_lt (by omega) (by omega) (by omega)
  · exact medianOfMedians_lt (by omega) (by omega) (by omega) (by omega)

/-! ### Partitions -/

section

variable {pivot : α} {firsts rest : List α} {bound : Option α}

theorem partition_perm (keep : α → Bool) :
    (firsts.filter (!keep ·) ++ pivot :: rest.filter (!keep ·) ++ (firsts ++ rest).filter keep).Perm
      (firsts ++ pivot :: rest) := by
  refine (List.perm_middle.append_right _).trans (List.Perm.trans ?_ List.perm_middle.symm)
  rw [List.cons_append, ← List.filter_append]
  exact (List.perm_append_comm.trans (List.filter_append_perm keep _)).cons pivot

/-- The bound, if there is one, is an item that no item precedes. -/
def Bounds (before : α → α → Bool) (bound : Option α) (as : List α) : Prop :=
  ∀ a ∈ bound, a ∈ as ∧ ∀ b ∈ as, before b a = false

/-- A pivot that no item precedes precedes all others. -/
theorem Orders.before_of_least (h : Orders before (pivot :: as))
    (hleast : ∀ b ∈ as, before b pivot = false) : ∀ b ∈ as, before pivot b = true := by
  intro b hb
  refine h.before_of_not (.head _) (.tail _ hb) ?_ (hleast b hb)
  rintro rfl
  exact (List.nodup_cons.1 h.nodup).1 hb

/-- No item precedes a pivot that does not come after the bound, for it is the bound. -/
theorem Orders.not_before_of_bound (h : Orders before (firsts ++ pivot :: rest))
    (hbound : Bounds before bound (firsts ++ pivot :: rest))
    (hpivot : bound.any (!before · pivot) = true) :
    ∀ b ∈ firsts ++ rest, before b pivot = false := by
  obtain ⟨a, rfl, hnot⟩ := (Option.any_eq_true _ _).1 hpivot
  obtain ⟨ha, hleast⟩ := hbound a rfl
  have hsame : a = pivot := by
    by_contra hne
    have hbefore := h.before_of_not (by simp) ha (Ne.symm hne) (by simpa using hnot)
    exact ne_true_of_eq_false (hleast pivot (by simp)) hbefore
  exact fun b hb => hsame ▸ hleast b (List.perm_middle.mem_iff.2 (.tail _ hb))

variable {ordered : Prop} {lower upper : List α}

/-- The pivot is put before the items that come after it, if no item precedes it. -/
theorem SortOf.of_least (h : ordered → Orders before (firsts ++ pivot :: rest))
    (hleast : ordered → ∀ b ∈ firsts ++ rest, before b pivot = false)
    (hupper : SortOf before ordered ((firsts ++ rest).filter (before pivot ·)) upper) :
    SortOf before ordered (firsts ++ pivot :: rest)
      (firsts.filter (!before pivot ·) ++ pivot :: rest.filter (!before pivot ·) ++ upper) where
  perm := (hupper.perm.append_left _).trans (partition_perm _)
  ascends hordered := by
    have hafter := ((h hordered).of_perm List.perm_middle.symm).before_of_least (hleast hordered)
    have hnone : ∀ bs : List α, (∀ b ∈ bs, b ∈ firsts ++ rest) → bs.filter (!before pivot ·) = [] :=
      fun bs hbs => List.filter_eq_nil_iff.2 fun b hb => by simp [hafter b (hbs b hb)]
    rw [hnone firsts fun b hb => List.mem_append_left _ hb,
      hnone rest fun b hb => List.mem_append_right _ hb]
    refine List.pairwise_cons.2 ⟨fun b hb => ?_, hupper.ascends hordered⟩
    exact (List.mem_filter.1 (hupper.perm.mem_iff.1 hb)).2

/-- The items that precede the pivot are put before the pivot and the others. -/
theorem SortOf.of_parts (h : ordered → Orders before (firsts ++ pivot :: rest))
    (hlower : SortOf before ordered ((firsts ++ rest).filter (before · pivot)) lower)
    (hupper : SortOf before ordered
      (firsts.filter (!before · pivot) ++ pivot :: rest.filter (!before · pivot)) upper) :
    SortOf before ordered (firsts ++ pivot :: rest) (lower ++ upper) where
  perm := by
    refine (hlower.perm.append hupper.perm).trans (List.perm_append_comm.trans ?_)
    exact partition_perm (before · pivot)
  ascends hordered := by
    refine List.pairwise_append.2 ⟨hlower.ascends hordered, hupper.ascends hordered, ?_⟩
    intro a ha b hb
    obtain ⟨hamem, hbefore⟩ := List.mem_filter.1 (hlower.perm.mem_iff.1 ha)
    have hall := (h hordered).of_perm List.perm_middle.symm
    by_cases hsame : b = pivot
    · exact hsame ▸ hbefore
    · have hother : b ∈ (firsts ++ rest).filter (!before · pivot) := by
        have hmem := hupper.perm.mem_iff.1 hb
        rw [List.filter_append]
        exact (List.mem_cons.1 (List.perm_middle.mem_iff.1 hmem)).resolve_left hsame
      obtain ⟨hbmem, hnot⟩ := List.mem_filter.1 hother
      have hpivot : before pivot b = true :=
        hall.before_of_not (.head _) (.tail _ hbmem) (Ne.symm hsame) (by simpa using hnot)
      exact hall.goesOn a pivot b (.tail _ hamem) (.head _) (.tail _ hbmem) hbefore hpivot

/-- The pivot bounds itself and the items that do not precede it. -/
theorem Orders.bounds_pivot (h : Orders before (firsts ++ pivot :: rest)) :
    Bounds before (some pivot)
      (firsts.filter (!before · pivot) ++ pivot :: rest.filter (!before · pivot)) := by
  rintro _ ⟨⟩
  refine ⟨by simp, fun b hb => ?_⟩
  rcases List.mem_cons.1 (List.perm_middle.mem_iff.1 hb) with rfl | hb
  · exact h.irrefl (by simp)
  · rw [← List.filter_append] at hb
    simpa using (List.mem_filter.1 hb).2

/-- The bound of all items bounds those that precede a pivot, if this comes after the bound. -/
theorem Orders.bounds_lower (h : Orders before (firsts ++ pivot :: rest))
    (hbound : Bounds before bound (firsts ++ pivot :: rest))
    (hpivot : bound.any (!before · pivot) = false) :
    Bounds before bound ((firsts ++ rest).filter (before · pivot)) := by
  intro a ha
  obtain ⟨hamem, hleast⟩ := hbound a ha
  have hbefore : before a pivot = true := by simpa using (Option.any_eq_false _ _).1 hpivot a ha
  have hne : a ≠ pivot := by
    rintro rfl
    exact ne_true_of_eq_false (h.irrefl hamem) hbefore
  refine ⟨List.mem_filter.2 ⟨?_, hbefore⟩, fun b hb => hleast b ?_⟩
  · exact (List.mem_cons.1 (List.perm_middle.mem_iff.1 hamem)).resolve_left hne
  · exact List.perm_middle.mem_iff.2 (.tail _ (List.mem_filter.1 hb).1)

end

/-! ### The whole sort -/

/-- A sort of all lists. -/
def Sorter (before : α → α → Bool) (ordered : Prop) (sort : List α → Except Fault (List α)) :
    Prop :=
  ∀ as, (ordered → Orders before as) → Gives ordered (sort as) (SortOf before ordered as)

section

variable {ordered : Prop} {fallback : List α → Except Fault (List α)}

theorem quickSort_gives (hfallback : Sorter before ordered fallback) (limit : ℕ) (bound : Option α)
    (h : ordered → Orders before as) (hbound : ordered → Bounds before bound as) :
    Gives ordered (quickSort before fallback limit bound as) (SortOf before ordered as) := by
  induction limit generalizing bound as with
  | zero =>
    unfold quickSort
    split
    · exact smallSort_gives h
    · exact hfallback as h
  | succ limit ih =>
    unfold quickSort
    split
    · exact smallSort_gives h
    · next hlong =>
      have hplace : pivotPlace before as < as.length :=
        pivotPlace_lt (Nat.le_of_lt (Nat.lt_trans (by decide) (Nat.lt_of_not_le hlong)))
      dsimp only
      split
      · next hnone => exact absurd (List.drop_eq_nil_iff.1 hnone) (Nat.not_le.2 hplace)
      · next pivot rest hdrop =>
        have hsplit : as.take (pivotPlace before as) ++ pivot :: rest = as :=
          hdrop ▸ List.take_append_drop _ _
        generalize as.take (pivotPlace before as) = firsts at hsplit ⊢
        subst hsplit
        have hothers : (firsts ++ rest).Sublist (firsts ++ pivot :: rest) :=
          (List.sublist_cons_self _ _).append_left _
        split
        · next hleft =>
          refine (ih none (fun hordered => (h hordered).sublist ?_) fun _ a ha => nomatch ha).bind
            fun upper hupper => gives_ok (.of_least h (fun hordered => ?_) hupper)
          · exact List.filter_sublist.trans hothers
          rcases Bool.or_eq_true_iff.1 hleft with hpivot | hnone
          · exact (h hordered).not_before_of_bound (hbound hordered) hpivot
          · simpa [or_imp, forall_and] using hnone
        · next hright =>
          obtain ⟨hpivot, -⟩ := Bool.or_eq_false_iff.1 (Bool.eq_false_of_not_eq_true hright)
          refine (ih (some pivot) (fun hordered => (h hordered).sublist ?_)
            fun hordered => (h hordered).bounds_pivot).bind fun upper hupper => ?_
          · exact List.filter_sublist.append (List.filter_sublist.cons_cons pivot)
          refine (ih bound (fun hordered => (h hordered).sublist ?_) fun hordered =>
            (h hordered).bounds_lower (hbound hordered) hpivot).bind fun lower hlower => ?_
          · exact List.filter_sublist.trans hothers
          · exact gives_ok (.of_parts h hlower hupper)

end

end CodeIndex.Sorting
