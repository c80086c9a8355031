import CodeIndex.Proofs.Sorting.Quick
import CodeIndex.Sorting.Runs

/-! Sorting by runs, and the whole sort.  Runs are cut off until nothing is left, and joined until one is
left, which has all items.  A sorted run stays in its order, and a run that is not sorted is sorted
before it is merged.  So a sort gives the items of its list in their order, if they have one; it may
break off only if they have none, and only a list that is not short. -/

namespace CodeIndex.Sorting

variable {α : Type} {before : α → α → Bool} {as bs : List α} {ordered : Prop}

/-! ### The first run -/

theorem Orders.not_before_eq {a b : α} (h : Orders before as) (ha : a ∈ as) (hb : b ∈ as)
    (hne : a ≠ b) : (!before b a) = before a b := by
  cases hba : before b a with
  | true => exact (h.asymm b hb a ha hba).symm
  | false => exact (h.before_of_not ha hb hne hba).symm

/-- Where preceding orders the items, those that do not go back go on. -/
theorem Orders.followers_eq {a : α} (h : Orders before (a :: as)) :
    followers (fun a b => !before b a) a as = followers before a as := by
  induction as generalizing a with
  | nil => rfl
  | cons b rest ih =>
    have hne : a ≠ b := fun hsame => (List.nodup_cons.1 h.nodup).1 (hsame ▸ .head _)
    rw [followers, followers, ih (h.sublist (List.sublist_cons_self _ _)),
      h.not_before_eq (.head _) (.tail _ (.head _)) hne]

/-- Where following goes on, an item is followed by all that are found to follow in a row. -/
theorem followers_pairwise {follows : α → α → Bool} {a : α}
    (hgoes : GoesOn follows (· ∈ a :: as)) :
    Ascends follows (a :: as.take (followers follows a as)) := by
  induction as generalizing a with
  | nil => exact List.pairwise_singleton _ _
  | cons b rest ih =>
    rw [followers]
    split
    · next hab =>
      have hrest := ih fun x y z hx hy hz =>
        hgoes x y z (.tail _ hx) (.tail _ hy) (.tail _ hz)
      refine List.pairwise_cons.2 ⟨fun x hx => ?_, hrest⟩
      rcases List.mem_cons.1 hx with rfl | hx
      · exact hab
      · exact hgoes a b x (.head _) (.tail _ (.head _))
          (.tail _ (.tail _ (List.mem_of_mem_take hx))) hab ((List.pairwise_cons.1 hrest).1 x hx)
    · exact List.pairwise_singleton _ _

theorem firstRun_perm (as : List α) : ((firstRun before as).1 ++ (firstRun before as).2).Perm as := by
  unfold firstRun
  split
  · split
    · refine ((List.reverse_perm _).append_right _).trans ?_
      rw [List.cons_append, List.take_append_drop]
    · rw [List.cons_append, List.take_append_drop]
  · rw [List.append_nil]

theorem firstRun_ne_nil (hne : as ≠ []) : (firstRun before as).1 ≠ [] := by
  unfold firstRun
  split
  · split <;> simp
  · exact hne

theorem Orders.firstRun_ascends (h : Orders before as) : Ascends before (firstRun before as).1 := by
  unfold firstRun
  split
  · next a b rest =>
    split
    · exact ascends_reverse.2 (followers_pairwise h.turned.goesOn)
    · rw [h.followers_eq]
      exact followers_pairwise h.goesOn
  · next hshort =>
    match as, hshort with
    | [], _ => exact List.Pairwise.nil
    | [a], _ => exact List.pairwise_singleton _ _
    | a :: b :: rest, hshort => exact absurd rfl (hshort a b rest)

/-! ### Runs -/

/-- A run that is marked as sorted is, if its items have an order; another one can be sorted. -/
structure Run.Ready (before : α → α → Bool) (ordered : Prop)
    (sortRun : List α → Except Fault (List α)) (run : Run α) : Prop where
  ascends : run.sorted = true → ordered → Ascends before run.items
  sorter : run.sorted = false → Sorter before ordered sortRun

section

variable {sortRun : List α → Except Fault (List α)} {a b run : Run α} {enough room : ℕ}
  {atOnce : Bool}

theorem Run.Ready.inOrder_gives (h : run.Ready before ordered sortRun)
    (hitems : ordered → Orders before run.items) :
    Gives ordered (run.inOrder sortRun) (SortOf before ordered run.items) := by
  unfold Run.inOrder
  split
  · next hsorted => exact gives_ok ⟨List.Perm.refl _, h.ascends hsorted⟩
  · next hnot => exact h.sorter (Bool.eq_false_of_not_eq_true hnot) _ hitems

/-- A list without its first run. -/
structure CutOf (before : α → α → Bool) (ordered : Prop)
    (sortRun : List α → Except Fault (List α)) (as : List α) (cut : Run α × List α) : Prop where
  perm : (cut.1.items ++ cut.2).Perm as
  ne_nil : cut.1.items ≠ []
  ready : cut.1.Ready before ordered sortRun

theorem cutRun_gives (h : ordered → Orders before as) (hne : as ≠ []) (henough : 0 < enough)
    (hsorter : atOnce = false → Sorter before ordered sortRun) :
    Gives ordered (cutRun before enough atOnce as) (CutOf before ordered sortRun as) := by
  have hlength := List.length_pos_iff.2 hne
  unfold cutRun
  dsimp only
  split
  · exact gives_ok ⟨firstRun_perm as, firstRun_ne_nil hne,
      fun _ hordered => (h hordered).firstRun_ascends, nofun⟩
  split
  · refine (smallSort_gives fun hordered =>
      (h hordered).sublist (List.take_sublist smallLength as)).bind fun cs hcs => gives_ok ?_
    refine ⟨?_, ?_, ⟨fun _ => hcs.ascends, nofun⟩⟩
    · exact (hcs.perm.append_right _).trans (List.take_append_drop _ _ ▸ List.Perm.refl _)
    · rw [← List.length_pos_iff, hcs.perm.length_eq, List.length_take]
      exact Nat.lt_min.2 ⟨by decide, hlength⟩
  · next hlater =>
    refine gives_ok ⟨List.take_append_drop _ _ ▸ List.Perm.refl _, ?_,
      ⟨nofun, fun _ => hsorter (Bool.eq_false_of_not_eq_true hlater)⟩⟩
    rw [← List.length_pos_iff, List.length_take]
    exact Nat.lt_min.2 ⟨henough, hlength⟩

/-- Runs of all items of a list. -/
structure RunsOf (before : α → α → Bool) (ordered : Prop)
    (sortRun : List α → Except Fault (List α)) (as : List α) (runs : List (Run α)) : Prop where
  perm : (runs.flatMap Run.items).Perm as
  ready : ∀ run ∈ runs, run.Ready before ordered sortRun

theorem cutRuns_gives {count : ℕ} (h : ordered → Orders before as) (hcount : as.length ≤ count)
    (henough : 0 < enough) (hsorter : atOnce = false → Sorter before ordered sortRun) :
    Gives ordered (cutRuns before enough atOnce count as) (RunsOf before ordered sortRun as) := by
  induction count generalizing as with
  | zero =>
    rw [List.eq_nil_of_length_eq_zero (Nat.le_zero.1 hcount)]
    exact gives_ok ⟨List.Perm.refl _, nofun⟩
  | succ count ih =>
    cases as with
    | nil => exact gives_ok ⟨List.Perm.refl _, nofun⟩
    | cons a rest =>
      unfold cutRuns
      refine (cutRun_gives h (List.cons_ne_nil a rest) henough hsorter).bind fun cut hcut => ?_
      have hlength := hcut.perm.length_eq
      rw [List.length_append] at hlength
      have hpos := List.length_pos_iff.2 hcut.ne_nil
      refine (ih (fun hordered => ((h hordered).of_perm hcut.perm).sublist
        (List.sublist_append_right _ _)) (by omega)).bind fun runs hruns => gives_ok ⟨?_, ?_⟩
      · exact (hruns.perm.append_left _).trans hcut.perm
      · exact List.forall_mem_cons.2 ⟨hcut.ready, hruns.ready⟩

/-- A run of all items of a list. -/
structure RunOf (before : α → α → Bool) (ordered : Prop)
    (sortRun : List α → Except Fault (List α)) (as : List α) (run : Run α) : Prop where
  perm : run.items.Perm as
  ready : run.Ready before ordered sortRun

theorem joinRuns_gives (ha : a.Ready before ordered sortRun) (hb : b.Ready before ordered sortRun)
    (h : ordered → Orders before (a.items ++ b.items)) :
    Gives ordered (joinRuns before room sortRun a b)
      (RunOf before ordered sortRun (a.items ++ b.items)) := by
  unfold joinRuns
  split
  · next hboth =>
    exact gives_ok ⟨List.Perm.refl _,
      ⟨nofun, fun _ => ha.sorter (Bool.eq_false_of_not_eq_true hboth.2.1)⟩⟩
  · refine (ha.inOrder_gives fun hordered => (h hordered).sublist (List.sublist_append_left _ _)).bind
      fun as has => ?_
    refine (hb.inOrder_gives fun hordered => (h hordered).sublist (List.sublist_append_right _ _)).bind
      fun bs hbs => gives_ok ⟨?_, ⟨fun _ hordered => ?_, nofun⟩⟩
    · exact mergeRuns_perm.trans (has.perm.append hbs.perm)
    · exact ((h hordered).of_perm (has.perm.append hbs.perm)).mergeRuns_ascends
        (has.ascends hordered) (hbs.ascends hordered)

/-! ### Joining the runs -/

/-- The items of the runs that wait. -/
def waitingItems (waiting : List (Waiting α)) : List α := waiting.flatMap (·.run.items)

/-- Runs that wait, and the run on their right. -/
structure Collapsed (before : α → α → Bool) (ordered : Prop)
    (sortRun : List α → Except Fault (List α)) (as : List α) (state : List (Waiting α) × Run α) :
    Prop where
  perm : (waitingItems state.1 ++ state.2.items).Perm as
  waiting_ready : ∀ left ∈ state.1, left.run.Ready before ordered sortRun
  ready : state.2.Ready before ordered sortRun

variable {waiting : List (Waiting α)}

theorem collapse_gives {depth : ℕ} (h : ordered → Orders before as)
    (hstate : Collapsed before ordered sortRun as (waiting, run)) :
    Gives ordered (collapse (joinRuns before room sortRun) depth waiting run) fun state =>
      Collapsed before ordered sortRun as state ∧ (depth = 0 → state.1 = []) := by
  induction waiting generalizing run with
  | nil => exact gives_ok ⟨hstate, fun _ => rfl⟩
  | cons left others ih =>
    obtain ⟨hleft, hothers⟩ := List.forall_mem_cons.1 hstate.waiting_ready
    have hperm : (waitingItems others ++ (left.run.items ++ run.items)).Perm as := by
      refine List.Perm.trans ?_ hstate.perm
      rw [← List.append_assoc]
      exact List.perm_append_comm.append_right _
    unfold collapse
    split
    · have hpair := (List.sublist_append_right (waitingItems others) _).subperm.trans hperm.subperm
      refine (joinRuns_gives hleft hstate.ready fun hordered => (h hordered).of_subperm hpair).bind
        fun joined hjoined => ih ⟨?_, hothers, hjoined.ready⟩
      exact (hjoined.perm.append_left _).trans hperm
    · next hdeep => exact gives_ok ⟨hstate, fun hzero => absurd (hzero ▸ Nat.zero_le _) hdeep⟩

theorem joinAll_gives {scale start : ℕ} {rest : List (Run α)} (h : ordered → Orders before as)
    (hstate : Collapsed before ordered sortRun bs (waiting, run))
    (hrest : ∀ run ∈ rest, run.Ready before ordered sortRun)
    (hall : (bs ++ rest.flatMap Run.items).Perm as) :
    Gives ordered (joinAll (joinRuns before room sortRun) scale start waiting run rest)
      (RunOf before ordered sortRun as) := by
  have hbs : ordered → Orders before bs := fun hordered =>
    (h hordered).of_subperm ((List.sublist_append_left _ _).subperm.trans hall.subperm)
  induction rest generalizing start waiting run bs with
  | nil =>
    unfold joinAll
    refine (collapse_gives hbs hstate).bind fun state hcollapsed => gives_ok ⟨?_, ?_⟩
    · have hperm := hcollapsed.1.perm
      rw [hcollapsed.2 rfl] at hperm
      exact hperm.trans (List.append_nil bs ▸ hall)
    · exact hcollapsed.1.ready
  | cons next rest ih =>
    obtain ⟨hnext, hrest⟩ := List.forall_mem_cons.1 hrest
    unfold joinAll
    refine (collapse_gives hbs hstate).bind fun state hcollapsed => ?_
    rw [List.flatMap_cons, ← List.append_assoc] at hall
    refine ih ⟨?_, ?_, hnext⟩ hrest hall fun hordered =>
      (h hordered).of_subperm ((List.sublist_append_left _ _).subperm.trans hall.subperm)
    · exact (List.perm_append_comm.trans hcollapsed.1.perm).append_right _
    · exact List.forall_mem_cons.2 ⟨hcollapsed.1.ready, hcollapsed.1.waiting_ready⟩

theorem enoughFor_pos {length : ℕ} (h : 0 < length) : 0 < enoughFor length := by
  unfold enoughFor
  split
  · omega
  · next hlong =>
    have hlog : 1 ≤ (1 + length.log2) / 2 := by
      have := (Nat.le_log2 (Nat.pos_iff_ne_zero.1 h)).2 (show 2 ^ 1 ≤ length by omega)
      omega
    have hpower : Numeric.twoTo 1 ≤ Numeric.twoTo ((1 + length.log2) / 2) :=
      Nat.pow_le_pow_right (by decide) hlog
    exact Nat.div_pos (hpower.trans (Nat.le_add_right _ _)) (by decide)

theorem runSort_gives (h : ordered → Orders before as)
    (hsorter : atOnce = false → Sorter before ordered sortRun) :
    Gives ordered (runSort before room atOnce sortRun as) (SortOf before ordered as) := by
  cases as with
  | nil => exact gives_ok ⟨List.Perm.refl _, fun _ => List.Pairwise.nil⟩
  | cons a others =>
    unfold runSort
    refine (cutRuns_gives h le_rfl (enoughFor_pos (Nat.succ_pos _)) hsorter).bind fun runs hruns => ?_
    cases runs with
    | nil => exact absurd hruns.perm (List.not_perm_nil_cons a others)
    | cons first rest =>
      obtain ⟨hfirst, hrest⟩ := List.forall_mem_cons.1 hruns.ready
      have hstate : Collapsed before ordered sortRun first.items ([], first) :=
        ⟨List.Perm.refl _, nofun, hfirst⟩
      refine (joinAll_gives h hstate hrest hruns.perm).bind fun run hrun => ?_
      refine (hrun.ready.inOrder_gives fun hordered => (h hordered).of_perm hrun.perm).imp
        fun cs hcs => ⟨hcs.perm.trans hrun.perm, hcs.ascends⟩

end

/-! ### The whole sort -/

theorem sorter_sortLeft (before : α → α → Bool) (ordered : Prop) (room : ℕ) :
    Sorter before ordered (sortLeft before room) := by
  intro as h
  have hfallback : Sorter before ordered (runSort before room true .ok) := fun bs hbs =>
    runSort_gives hbs fun hlater => nomatch hlater
  exact quickSort_gives hfallback _ none h fun _ _ hnone => nomatch hnone

theorem sort_gives (h : ordered → Orders before as) :
    Gives ordered (sort before as) (SortOf before ordered as) := by
  unfold sort
  split
  · exact gives_ok ⟨insertionSort_perm as, fun hordered => (h hordered).insertionSort_ascends⟩
  · exact runSort_gives h fun _ => sorter_sortLeft before ordered _

theorem sort_of_length_le (h : as.length ≤ 20) : sort before as = .ok (insertionSort before as) :=
  if_pos h

theorem Orders.sort_eq_ok (h : Orders before as) :
    ∃ bs, sort before as = .ok bs ∧ bs.Perm as ∧ Ascends before bs := by
  obtain ⟨bs, hsort, hbs⟩ := (sort_gives fun _ : True => h).exists_ok trivial
  exact ⟨bs, hsort, hbs.perm, hbs.ascends trivial⟩

/-- A sort breaks off for want of an order only, and never on a short list. -/
theorem eq_disorder_of_sort_eq_error {f : Fault} (h : sort before as = .error f) :
    f = .disorder ∧ ¬ Orders before as ∧ 20 < as.length := by
  have hgives := sort_gives fun h : Orders before as => h
  rw [h] at hgives
  refine ⟨hgives.1, hgives.2, Nat.lt_of_not_le fun hshort => ?_⟩
  rw [sort_of_length_le hshort] at h
  cases h

end CodeIndex.Sorting
