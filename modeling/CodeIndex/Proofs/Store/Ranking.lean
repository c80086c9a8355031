import CodeIndex.Proofs.Sorting.Runs
import CodeIndex.Store.Ranking

/-! Rankings.  Sorting by scores puts each item before those that it precedes, if the scores compare,
and still if no score that does not compare stands between two that do.  Fusing two rankings gives each
identifier of either once, with the shares of its places added up, those of the first ranking first. -/

namespace CodeIndex.Store

open Sorting (Ascends Gives GoesOn Linked Orders SortOf)

/-! ### Scores -/

section

variable {α : Type} {less : α → α → Bool} {p : α → Prop}

/-- Among the scores with a property, being lower goes one way only, and not being lower goes on over
a third score. -/
structure WeaklyOrdered (less : α → α → Bool) (p : α → Prop) : Prop where
  asymm : ∀ a b, p a → p b → less a b = true → less b a = false
  not_trans : ∀ a b c, p a → p b → p c → less a b = false → less b c = false → less a c = false

theorem before_eq_true_iff {a b : Scored α} :
    Scored.before less a b = true ↔ less b.2 a.2 = true ∨ (less a.2 b.2 = false ∧ a.1 < b.1) := by
  simp [Scored.before]

/-- Where being lower goes one way only, so does preceding. -/
theorem before_asymm {a b : Scored α} (hless : less b.2 a.2 = true → less a.2 b.2 = false)
    (h : Scored.before less a b = true) : Scored.before less b a = false := by
  refine Bool.eq_false_iff.2 fun hba => ?_
  rw [before_eq_true_iff] at h hba
  rcases h with h | ⟨hscore, hid⟩
  · rcases hba with hba | ⟨hba, -⟩
    · exact ne_true_of_eq_false (hless h) hba
    · exact ne_true_of_eq_false hba h
  · rcases hba with hba | ⟨-, hid'⟩
    · exact ne_true_of_eq_false hscore hba
    · exact String.lt_irrefl _ (String.lt_trans hid hid')

theorem linked_of_ne {a b : Scored α} (hne : a.1 ≠ b.1) : Linked (Scored.before less) a b := by
  rw [Linked, before_eq_true_iff, before_eq_true_iff]
  cases hba : less b.2 a.2 with
  | true => exact .inl (.inl rfl)
  | false =>
    cases hab : less a.2 b.2 with
    | true => exact .inr (.inl rfl)
    | false =>
      by_cases hlt : a.1 < b.1
      · exact .inl (.inr ⟨rfl, hlt⟩)
      · refine .inr (.inr ⟨rfl, String.not_le.1 fun hle => hne ?_⟩)
        exact String.le_antisymm hle (String.not_lt.1 hlt)

theorem pairwise_linked {as : List (Scored α)} (hids : (as.map Prod.fst).Nodup) :
    as.Pairwise (Linked (Scored.before less)) := by
  rw [List.nodup_iff_pairwise_ne, List.pairwise_map] at hids
  exact hids.imp linked_of_ne

variable (hless : WeaklyOrdered less p)
include hless

/-- What is lower than another score is lower than a third one, or this is lower than the other. -/
theorem WeaklyOrdered.split {a b : α} (c : α) (ha : p a) (hb : p b) (hc : p c)
    (h : less a b = true) : less a c = true ∨ less c b = true := by
  cases hac : less a c with
  | true => exact .inl rfl
  | false =>
    cases hcb : less c b with
    | true => exact .inr rfl
    | false => rw [hless.not_trans a c b ha hc hb hac hcb] at h; cases h

theorem WeaklyOrdered.goesOn : GoesOn (Scored.before less) fun a => p a.2 := by
  intro a b c ha hb hc hab hbc
  rw [before_eq_true_iff] at hab hbc ⊢
  rcases hab with hab | ⟨hab, hid⟩
  · refine .inl ?_
    rcases hbc with hbc | ⟨hbc, -⟩
    · refine (hless.split a.2 hc hb ha hbc).resolve_right fun h => ?_
      rw [hless.asymm a.2 b.2 ha hb h] at hab
      cases hab
    · refine (hless.split c.2 hb ha hc hab).resolve_left fun h => ?_
      rw [h] at hbc
      cases hbc
  · rcases hbc with hbc | ⟨hbc, hid'⟩
    · refine .inl ((hless.split a.2 hc hb ha hbc).resolve_right fun h => ?_)
      rw [h] at hab
      cases hab
    · exact .inr ⟨hless.not_trans _ _ _ ha hb hc hab hbc, String.lt_trans hid hid'⟩

theorem WeaklyOrdered.orders {as : List (Scored α)} (hp : ∀ a ∈ as, p a.2)
    (hids : (as.map Prod.fst).Nodup) : Orders (Scored.before less) as where
  asymm a ha b hb := before_asymm (hless.asymm _ _ (hp b hb) (hp a ha))
  goesOn a b c ha hb hc := hless.goesOn a b c (hp a ha) (hp b hb) (hp c hc)
  linked := pairwise_linked hids

end

/-! ### Scores that do not compare -/

section

variable {α : Type} {less : α → α → Bool} {p : α → Prop} {a b : Scored α} {scored : List (Scored α)}

/-- A weak order of the scores with a property, where no other score compares with any. -/
structure PartlyOrdered (less : α → α → Bool) (p : α → Prop) : Prop extends
    WeaklyOrdered less p where
  of_less : ∀ a b, less a b = true → p a ∧ p b

/-- By its identifier, an item whose score does not compare stands between one with a lower score and
one with a higher score. -/
def Disturbed (less : α → α → Bool) (p : α → Prop) (scored : List (Scored α)) : Prop :=
  ∃ low ∈ scored, ∃ mid ∈ scored, ∃ high ∈ scored, ¬ p mid.2 ∧ low.1 < mid.1 ∧ mid.1 < high.1 ∧
    less low.2 high.2 = true

variable (hless : PartlyOrdered less p)
include hless

theorem PartlyOrdered.less_asymm {x y : α} (h : less x y = true) : less y x = false := by
  obtain ⟨hx, hy⟩ := hless.of_less x y h
  exact hless.asymm x y hx hy h

/-- What does not compare precedes and follows by the identifiers only. -/
theorem PartlyOrdered.before_iff_of_not (h : ¬ p a.2 ∨ ¬ p b.2) :
    Scored.before less a b = true ↔ a.1 < b.1 := by
  have hnone : ∀ x y, ¬ p x ∨ ¬ p y → less x y = false := fun x y hnot =>
    Bool.eq_false_iff.2 fun hxy => not_and_or.2 hnot (hless.of_less x y hxy)
  rw [before_eq_true_iff, hnone _ _ h, hnone _ _ h.symm]
  simp

theorem PartlyOrdered.before_asymm (h : Scored.before less a b = true) :
    Scored.before less b a = false :=
  Store.before_asymm hless.less_asymm h

/-- An item that does not compare and stands in a circle of three disturbs the other two. -/
theorem PartlyOrdered.disturbed_of_circle {c : Scored α} (hmem : ∀ x ∈ [a, b, c], x ∈ scored)
    (ha : ¬ p a.2) (hab : Scored.before less a b = true) (hbc : Scored.before less b c = true)
    (hca : Scored.before less c a = true) : Disturbed less p scored := by
  simp only [List.forall_mem_cons] at hmem
  obtain ⟨hamem, hbmem, hcmem, -⟩ := hmem
  have hidab := (hless.before_iff_of_not (.inl ha)).1 hab
  have hidca := (hless.before_iff_of_not (.inr ha)).1 hca
  refine ⟨c, hcmem, a, hamem, b, hbmem, ha, hidca, hidab, ?_⟩
  refine (before_eq_true_iff.1 hbc).resolve_right fun h => ?_
  exact String.lt_irrefl _ (String.lt_trans h.2 (String.lt_trans hidca hidab))

/-- Items in a circle of three cannot all compare. -/
theorem PartlyOrdered.disturbed_of_not_before {c : Scored α} (hids : (scored.map Prod.fst).Nodup)
    (ha : a ∈ scored) (hb : b ∈ scored) (hc : c ∈ scored) (hab : Scored.before less a b = true)
    (hbc : Scored.before less b c = true) (hac : Scored.before less a c ≠ true) :
    Disturbed less p scored := by
  have hne : a.1 ≠ c.1 := by
    intro hid
    have hsame : a = c := List.inj_on_of_nodup_map hids ha hc hid
    rw [hsame, hless.before_asymm hbc] at hab
    cases hab
  have hca : Scored.before less c a = true := (linked_of_ne hne).resolve_left hac
  by_cases hpa : p a.2
  · by_cases hpb : p b.2
    · by_cases hpc : p c.2
      · exact absurd (hless.goesOn a b c hpa hpb hpc hab hbc) hac
      · exact hless.disturbed_of_circle (by simp [ha, hb, hc]) hpc hca hab hbc
    · exact hless.disturbed_of_circle (by simp [ha, hb, hc]) hpb hbc hca hab
  · exact hless.disturbed_of_circle (by simp [ha, hb, hc]) hpa hab hbc hca

/-- Of items with distinct identifiers, preceding goes on over a third one exactly if none of them
disturbs two others. -/
theorem PartlyOrdered.goesOn_iff (hids : (scored.map Prod.fst).Nodup) :
    GoesOn (Scored.before less) (· ∈ scored) ↔ ¬ Disturbed less p scored := by
  constructor
  · rintro hgoes ⟨low, hlow, mid, hmid, high, hhigh, hnot, hlowmid, hmidhigh, hlower⟩
    have hafter : Scored.before less high low = true := before_eq_true_iff.2 (.inl hlower)
    have hbefore := hgoes low mid high hlow hmid hhigh
      ((hless.before_iff_of_not (.inr hnot)).2 hlowmid)
      ((hless.before_iff_of_not (.inl hnot)).2 hmidhigh)
    rw [hless.before_asymm hafter] at hbefore
    cases hbefore
  · intro hnot a b c ha hb hc hab hbc
    by_contra hac
    exact hnot (hless.disturbed_of_not_before hids ha hb hc hab hbc hac)

/-- Of items with distinct identifiers, those that are not disturbed have an order, and no others. -/
theorem PartlyOrdered.orders_iff (hids : (scored.map Prod.fst).Nodup) :
    Orders (Scored.before less) scored ↔ ¬ Disturbed less p scored := by
  rw [← hless.goesOn_iff hids]
  exact ⟨Orders.goesOn, fun hgoes =>
    ⟨fun _ _ _ _ => hless.before_asymm, hgoes, pairwise_linked hids⟩⟩

end

/-! ### The best -/

section

variable {α : Type} {less : α → α → Bool} {p : α → Prop} {scored : List (Scored α)}
  {ids : List String} {limit : Nat}

/-- Of two members of a sorted list, the one that does not come after the other stands first. -/
theorem sublist_of_not_after {α : Type} {after : α → α → Prop} {as : List α} {a b : α}
    (has : as.Pairwise fun a b => after b a) (ha : a ∈ as) (hb : b ∈ as) (hne : a ≠ b)
    (hnot : ¬ after a b) : [a, b].Sublist as := by
  obtain ⟨before, rest, rfl⟩ := List.append_of_mem ha
  obtain ⟨-, -, hacross⟩ := List.pairwise_append.1 has
  have hbefore : b ∉ before := fun hb => hnot (hacross b hb a List.mem_cons_self)
  have hrest : b ∈ rest := by
    have := (List.mem_append.1 hb).resolve_left hbefore
    exact (List.mem_cons.1 this).resolve_left hne.symm
  exact List.sublist_append_of_sublist_right ((List.singleton_sublist.2 hrest).cons_cons a)

/-- The identifiers of the best of scored items, in their order. -/
def Best (less : α → α → Bool) (limit : Nat) (scored : List (Scored α)) (ids : List String) :
    Prop :=
  ∃ ranking : List (Scored α), ranking.Perm scored ∧
    ranking.Pairwise (fun a b => Scored.before less a b = true) ∧
    ids = (ranking.take limit).map Prod.fst

/-- The first of scored items that were sorted, by their identifiers. -/
structure Listed (less : α → α → Bool) (ordered : Prop) (limit : Nat) (scored : List (Scored α))
    (ids : List String) : Prop where
  ranking : ∃ ranking, SortOf (Scored.before less) ordered scored ranking ∧
    ids = (ranking.take limit).map Prod.fst

theorem ranked_gives {ordered : Prop} (h : ordered → Orders (Scored.before less) scored)
    (limit : Nat) :
    Gives ordered (ranked less limit scored) (Listed less ordered limit scored) :=
  (Sorting.sort_gives h).bind fun ranking hranking => Sorting.gives_ok ⟨ranking, hranking, rfl⟩

theorem of_ranked_eq_error {f : Fault} (h : ranked less limit scored = .error f) :
    f = .disorder ∧ ¬ Orders (Scored.before less) scored ∧ 20 < scored.length := by
  unfold ranked at h
  cases hsort : Sorting.sort (Scored.before less) scored with
  | ok ranking =>
    rw [hsort] at h
    cases h
  | error fault =>
    rw [hsort] at h
    cases h
    exact Sorting.eq_disorder_of_sort_eq_error hsort

namespace Listed

variable {ordered : Prop} (h : Listed less ordered limit scored ids)
include h

theorem best (hordered : ordered) : Best less limit scored ids := by
  obtain ⟨ranking, hranking, hids⟩ := h.ranking
  exact ⟨ranking, hranking.perm, hranking.ascends hordered, hids⟩

theorem mem_ids {id : String} (hid : id ∈ ids) : id ∈ scored.map Prod.fst := by
  obtain ⟨ranking, hranking, rfl⟩ := h.ranking
  exact (hranking.perm.map Prod.fst).mem_iff.1 (((List.take_sublist _ _).map _).subset hid)

theorem nodup (hids : (scored.map Prod.fst).Nodup) : ids.Nodup := by
  obtain ⟨ranking, hranking, rfl⟩ := h.ranking
  exact ((hranking.perm.map Prod.fst).nodup_iff.2 hids).sublist ((List.take_sublist _ _).map _)

theorem length_eq : ids.length = min limit scored.length := by
  obtain ⟨ranking, hranking, rfl⟩ := h.ranking
  rw [List.length_map, List.length_take, hranking.perm.length_eq]

end Listed

/-- An item stands before all ranked items that it precedes, if there is an order. -/
theorem Best.sublist {a b : Scored α} (h : Best less limit scored ids)
    (horders : Orders (Scored.before less) scored) (hids : (scored.map Prod.fst).Nodup)
    (ha : a ∈ scored) (hb : b ∈ scored) (hab : Scored.before less a b = true) (hmem : b.1 ∈ ids) :
    [a.1, b.1].Sublist ids := by
  obtain ⟨ranking, hperm, hsorted, rfl⟩ := h
  have hnotba : Scored.before less b a ≠ true := ne_true_of_eq_false (horders.asymm a ha b hb hab)
  have hbtaken : b ∈ ranking.take limit := by
    obtain ⟨other, hother, hid⟩ := List.mem_map.1 hmem
    have hmem : other ∈ scored := hperm.mem_iff.1 (List.mem_of_mem_take hother)
    rwa [← List.inj_on_of_nodup_map hids hmem hb hid]
  have hataken : a ∈ ranking.take limit := by
    have hamem : a ∈ ranking := hperm.mem_iff.2 ha
    rw [← List.take_append_drop limit ranking] at hamem hsorted
    refine (List.mem_append.1 hamem).resolve_right fun hdrop => hnotba ?_
    exact (List.pairwise_append.1 hsorted).2.2 b hbtaken a hdrop
  have hne : a ≠ b := by
    rintro rfl
    exact hnotba hab
  have hpair : [a, b].Sublist (ranking.take limit) :=
    sublist_of_not_after (hsorted.sublist (List.take_sublist _ _)) hataken hbtaken hne hnotba
  exact hpair.map Prod.fst

/-- A bound that is not reached makes no difference. -/
theorem Best.of_min {bound : Nat} (h : Best less (min limit bound) scored ids)
    (hbound : scored.length ≤ bound) : Best less limit scored ids := by
  obtain ⟨ranking, hperm, hsorted, rfl⟩ := h
  refine ⟨ranking, hperm, hsorted, congrArg (List.map Prod.fst) ?_⟩
  have hlength : ranking.length ≤ bound := hperm.length_eq ▸ hbound
  rcases Nat.le_total limit bound with hle | hle
  · rw [Nat.min_eq_left hle]
  · rw [Nat.min_eq_right hle, List.take_of_length_le hlength,
      List.take_of_length_le (Nat.le_trans hlength hle)]

/-- What is kept of a sorted list but not among the first comes after all of these. -/
theorem length_take_of_not_mem {α : Type} {before : α → α → Bool} {as : List α} {keep : α → Bool}
    {limit : Nat} {a : α} (has : as.Pairwise fun a b => before a b = true) (ha : a ∈ as)
    (hkeep : keep a = true) (hout : a ∉ (as.filter keep).take limit) :
    ((as.filter keep).take limit).length = limit ∧
      ∀ b ∈ (as.filter keep).take limit, before b a = true := by
  have hkept : a ∈ as.filter keep := List.mem_filter.2 ⟨ha, hkeep⟩
  have hsorted := has.filter keep
  rw [← List.take_append_drop limit (as.filter keep)] at hkept hsorted
  have hdrop := (List.mem_append.1 hkept).resolve_left hout
  refine ⟨?_, fun b hb => (List.pairwise_append.1 hsorted).2.2 b hb a hdrop⟩
  have hlength := List.length_pos_of_mem hdrop
  rw [List.length_drop] at hlength
  rw [List.length_take]
  omega

end

/-! ### Fusing -/

section

variable {α : Type} {s : RankScale α} {sums : List (Scored α)} {ids first second : List String}
  {id other : String}

theorem mem_ids_addScore {score : α} :
    other ∈ (addScore s id score sums).map Prod.fst ↔ other = id ∨ other ∈ sums.map Prod.fst := by
  induction sums with
  | nil => simp [addScore]
  | cons head rest ih =>
    obtain ⟨name, sum⟩ := head
    rw [addScore]
    split
    · next hname => simp [hname]
    · rw [List.map_cons, List.mem_cons, ih, List.map_cons, List.mem_cons, or_left_comm]

theorem nodup_addScore {score : α} (h : (sums.map Prod.fst).Nodup) :
    ((addScore s id score sums).map Prod.fst).Nodup := by
  induction sums with
  | nil => simp [addScore]
  | cons head rest ih =>
    obtain ⟨name, sum⟩ := head
    obtain ⟨hname, hrest⟩ := List.nodup_cons.1 h
    rw [addScore]
    split
    · exact h
    · next hne =>
      refine List.nodup_cons.2 ⟨fun hmem => ?_, ih hrest⟩
      exact (mem_ids_addScore.1 hmem).elim hne hname

theorem lookup_cons_eq_ite {sum : α} :
    List.lookup other ((id, sum) :: sums) =
      if other = id then some sum else List.lookup other sums := by
  rw [List.lookup_cons]
  by_cases hother : other = id
  · simp [hother]
  · rw [beq_false_of_ne hother, if_neg hother]

theorem lookup_addScore {score : α} :
    (addScore s id score sums).lookup other =
      if other = id then some (s.add ((sums.lookup id).getD s.zero) score)
      else sums.lookup other := by
  induction sums with
  | nil => exact lookup_cons_eq_ite
  | cons head rest ih =>
    obtain ⟨name, sum⟩ := head
    rw [addScore]
    split
    · next hname =>
      subst hname
      by_cases hother : other = name <;> simp [lookup_cons_eq_ite, hother]
    · next hne =>
      rw [lookup_cons_eq_ite, lookup_cons_eq_ite, lookup_cons_eq_ite, ih, if_neg (Ne.symm hne)]
      by_cases hother : other = name
      · rw [if_pos hother, if_pos hother, if_neg (hother ▸ hne)]
      · rw [if_neg hother, if_neg hother]

/-- The score of an identifier with that of its place in a ranking, if it has one. -/
def RankScale.share (s : RankScale α) (ids : List String) (id : String) (sum : α) : α :=
  match ids.idxOf? id with
  | some place => s.add sum (s.weight (place + 1))
  | none => sum

/-- The score of an identifier in two rankings. -/
def RankScale.score (s : RankScale α) (first second : List String) (id : String) : α :=
  s.share second id (s.share first id s.zero)

theorem mem_ids_foldl_addScore (places : List (String × Nat)) :
    other ∈ (places.foldl (fun sums p => addScore s p.1 (s.weight (p.2 + 1)) sums) sums).map
        Prod.fst ↔
      other ∈ sums.map Prod.fst ∨ other ∈ places.map Prod.fst := by
  induction places generalizing sums with
  | nil => simp
  | cons p rest ih =>
    rw [List.foldl_cons, ih, mem_ids_addScore, List.map_cons, List.mem_cons, or_assoc, or_left_comm]

theorem mem_ids_addRanking :
    other ∈ (addRanking s sums ids).map Prod.fst ↔ other ∈ sums.map Prod.fst ∨ other ∈ ids := by
  refine (mem_ids_foldl_addScore ids.zipIdx).trans ?_
  rw [List.zipIdx_map_fst]

theorem nodup_addRanking (h : (sums.map Prod.fst).Nodup) :
    ((addRanking s sums ids).map Prod.fst).Nodup :=
  List.foldlRecOn (motive := fun sums : List (Scored α) => (sums.map Prod.fst).Nodup) _ _ h
    fun _ h _ _ => nodup_addScore h

/-- The ranking may go on from a later place. -/
theorem lookup_foldl_addScore (hids : ids.Nodup) (start : Nat) :
    ((ids.zipIdx start).foldl (fun sums p => addScore s p.1 (s.weight (p.2 + 1)) sums)
        sums).lookup id =
      match ids.idxOf? id with
      | some place =>
        some (s.add ((sums.lookup id).getD s.zero) (s.weight (start + place + 1)))
      | none => sums.lookup id := by
  induction ids generalizing start sums with
  | nil => rfl
  | cons head rest ih =>
    obtain ⟨hhead, hrest⟩ := List.nodup_cons.1 hids
    rw [List.zipIdx_cons, List.foldl_cons, ih hrest, lookup_addScore, List.idxOf?_cons]
    by_cases hid : id = head
    · subst hid
      rw [List.idxOf?_eq_none_iff.2 hhead]
      simp
    · rw [if_neg hid, beq_false_of_ne (Ne.symm hid)]
      cases rest.idxOf? id with
      | none => rfl
      | some place => simp [Nat.add_assoc, Nat.add_comm 1]

theorem lookup_addRanking (hids : ids.Nodup) :
    (addRanking s sums ids).lookup id =
      match ids.idxOf? id with
      | some place => some (s.add ((sums.lookup id).getD s.zero) (s.weight (place + 1)))
      | none => sums.lookup id := by
  refine (lookup_foldl_addScore hids 0).trans ?_
  simp only [Nat.zero_add]

theorem getD_lookup_addRanking (hids : ids.Nodup) :
    ((addRanking s sums ids).lookup id).getD s.zero =
      s.share ids id ((sums.lookup id).getD s.zero) := by
  rw [lookup_addRanking hids, RankScale.share]
  cases ids.idxOf? id <;> rfl

theorem lookup_of_mem {x : α} (hsums : (sums.map Prod.fst).Nodup) (h : (id, x) ∈ sums) :
    sums.lookup id = some x := by
  induction sums with
  | nil => exact absurd h List.not_mem_nil
  | cons head rest ih =>
    obtain ⟨name, sum⟩ := head
    obtain ⟨hname, hrest⟩ := List.nodup_cons.1 hsums
    rw [lookup_cons_eq_ite]
    rcases List.mem_cons.1 h with h | h
    · cases h
      exact if_pos rfl
    · have hid : id ∈ rest.map Prod.fst := List.mem_map_of_mem h
      rw [if_neg fun hsame : id = name => hname (hsame ▸ hid), ih hrest h]

theorem nodup_ids_added :
    ((addRanking s (addRanking s [] first) second).map Prod.fst).Nodup :=
  nodup_addRanking (nodup_addRanking List.nodup_nil)

/-- The identifiers of two rankings with the scores of their places, best first. -/
structure Fused (s : RankScale α) (first second : List String) (fused : List (Scored α)) :
    Prop where
  ids_nodup : (fused.map Prod.fst).Nodup
  mem_iff : ∀ a, a ∈ fused ↔
    (a.1 ∈ first ∨ a.1 ∈ second) ∧ a.2 = s.score first second a.1
  sorted : fused.Pairwise fun a b => Scored.before s.less a b = true

theorem mem_ids_added :
    id ∈ (addRanking s (addRanking s [] first) second).map Prod.fst ↔ id ∈ first ∨ id ∈ second := by
  rw [mem_ids_addRanking, mem_ids_addRanking]
  simp

section

variable (hfirst : first.Nodup) (hsecond : second.Nodup)
include hfirst hsecond

/-- Each identifier has the score of its places. -/
theorem score_of_mem_added {x : α}
    (h : (id, x) ∈ addRanking s (addRanking s [] first) second) : x = s.score first second id := by
  have hlookup := lookup_of_mem nodup_ids_added h
  have hscore : ((addRanking s (addRanking s [] first) second).lookup id).getD s.zero =
      s.score first second id := by
    rw [getD_lookup_addRanking hsecond, getD_lookup_addRanking hfirst, RankScale.score]
    rfl
  rw [hlookup, Option.getD_some] at hscore
  exact hscore

theorem mem_added_iff {a : Scored α} :
    a ∈ addRanking s (addRanking s [] first) second ↔
      (a.1 ∈ first ∨ a.1 ∈ second) ∧ a.2 = s.score first second a.1 := by
  constructor
  · intro ha
    exact ⟨mem_ids_added.1 (List.mem_map_of_mem ha), score_of_mem_added hfirst hsecond ha⟩
  · rintro ⟨hid, hscore⟩
    obtain ⟨b, hb, hba⟩ := List.mem_map.1 (mem_ids_added (s := s).2 hid)
    have hb' : b.2 = s.score first second b.1 := score_of_mem_added hfirst hsecond hb
    rwa [← show b = a from Prod.ext hba (by rw [hb', hscore, hba])]

/-- Fusing does not break off if the scores of the places compare. -/
theorem WeaklyOrdered.exists_fuse {p : α → Prop} (hless : WeaklyOrdered s.less p)
    (hp : ∀ id, p (s.score first second id)) :
    ∃ fused, fuse s first second = .ok fused ∧ Fused s first second fused := by
  have horders : Orders (Scored.before s.less) (addRanking s (addRanking s [] first) second) :=
    hless.orders (fun a ha => score_of_mem_added hfirst hsecond ha ▸ hp a.1) nodup_ids_added
  obtain ⟨fused, hfused, hperm, hsorted⟩ := horders.sort_eq_ok
  exact ⟨fused, hfused, (hperm.map Prod.fst).nodup_iff.2 nodup_ids_added,
    fun a => hperm.mem_iff.trans (mem_added_iff hfirst hsecond), hsorted⟩

end

variable {fused : List (Scored α)}

theorem Fused.mem_ids_iff (h : Fused s first second fused) :
    id ∈ fused.map Prod.fst ↔ id ∈ first ∨ id ∈ second := by
  constructor
  · intro hid
    obtain ⟨a, ha, rfl⟩ := List.mem_map.1 hid
    exact ((h.mem_iff a).1 ha).1
  · intro hid
    exact List.mem_map.2 ⟨(id, s.score first second id), (h.mem_iff _).2 ⟨hid, rfl⟩, rfl⟩

end

end CodeIndex.Store
