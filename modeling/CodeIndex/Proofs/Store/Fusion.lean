import CodeIndex.Proofs.Store.Ranking
import Mathlib.Algebra.Order.Field.Rat
import Mathlib.Tactic.Positivity

/-! Fusing without rounding.  With exact scores the order of two rankings makes no difference, and the
fused ranking keeps what they agree on: an identifier that precedes another one wherever this one is
ranked precedes it in the result. -/

namespace CodeIndex.Store

/-- Exact scores: the reciprocal of the shifted rank, not rounded. -/
def RankScale.exact : RankScale ℚ where
  zero := 0
  add := (· + ·)
  less a b := a < b
  weight rank := 1 / ((rankOffset : ℚ) + rank)

/-- What the place of an identifier in a ranking is worth, if it has one. -/
def reciprocalRank (ids : List String) (id : String) : ℚ :=
  if id ∈ ids then 1 / (60 + ((ids.idxOf id + 1 : ℕ) : ℚ)) else 0

section

variable {ids first second : List String} {id x y : String}

theorem weaklyOrdered_exact : WeaklyOrdered RankScale.exact.less fun _ => True where
  asymm a b _ _ h := by
    have hlt : a < b := of_decide_eq_true h
    exact decide_eq_false hlt.not_gt
  not_trans a b c _ _ _ hab hbc := by
    have hba : b ≤ a := not_lt.1 (of_decide_eq_false hab)
    have hcb : c ≤ b := not_lt.1 (of_decide_eq_false hbc)
    exact decide_eq_false (hcb.trans hba).not_gt

theorem share_exact (sum : ℚ) :
    RankScale.exact.share ids id sum = sum + reciprocalRank ids id := by
  rw [RankScale.share, reciprocalRank, List.idxOf_eq_getD_idxOf?]
  cases hplace : ids.idxOf? id with
  | none => rw [if_neg (List.idxOf?_eq_none_iff.1 hplace), add_zero]
  | some place =>
    have hid : id ∈ ids := List.isSome_idxOf?.1 (hplace ▸ rfl)
    rw [if_pos hid]
    rfl

theorem score_exact :
    RankScale.exact.score first second id =
      reciprocalRank first id + reciprocalRank second id := by
  rw [RankScale.score, share_exact, share_exact]
  exact congrArg (· + _) (zero_add _)

theorem reciprocalRank_nonneg (ids : List String) (id : String) : 0 ≤ reciprocalRank ids id := by
  unfold reciprocalRank
  split <;> positivity

theorem idxOf_lt_of_sublist (hids : ids.Nodup) (h : [x, y].Sublist ids) :
    ids.idxOf x < ids.idxOf y := by
  obtain ⟨before, after, rfl, hx, hy⟩ := List.cons_sublist_iff.1 h
  have hyafter : y ∈ after := List.singleton_sublist.1 hy
  have hybefore : y ∉ before := fun hy => (List.nodup_append.1 hids).2.2 y hy y hyafter rfl
  rw [List.idxOf_append_of_mem hx, List.idxOf_append_of_notMem hybefore]
  exact (List.idxOf_lt_length_of_mem hx).trans_le (Nat.le_add_right _ _)

/-- An earlier place is worth more. -/
theorem reciprocalRank_lt (hids : ids.Nodup) (h : [x, y].Sublist ids) :
    reciprocalRank ids y < reciprocalRank ids x := by
  have hx : x ∈ ids := h.subset List.mem_cons_self
  have hy : y ∈ ids := h.subset (List.mem_cons_of_mem _ List.mem_cons_self)
  have hplaces : ((ids.idxOf x + 1 : ℕ) : ℚ) < ((ids.idxOf y + 1 : ℕ) : ℚ) :=
    Nat.cast_lt.2 (Nat.succ_lt_succ (idxOf_lt_of_sublist hids h))
  rw [reciprocalRank, reciprocalRank, if_pos hx, if_pos hy]
  exact one_div_lt_one_div_of_lt (by positivity) (by gcongr)

/-- An identifier that precedes another one wherever this one is ranked. -/
def Dominates (ids : List String) (x y : String) : Prop := y ∈ ids → [x, y].Sublist ids

theorem Dominates.le (h : Dominates ids x y) (hids : ids.Nodup) :
    reciprocalRank ids y ≤ reciprocalRank ids x := by
  by_cases hy : y ∈ ids
  · exact (reciprocalRank_lt hids (h hy)).le
  · rw [reciprocalRank, if_neg hy]
    exact reciprocalRank_nonneg ids x

/-- An identifier that dominates another one in both rankings has the higher score. -/
theorem score_exact_lt (hfirst : first.Nodup) (hsecond : second.Nodup)
    (hy : y ∈ first ∨ y ∈ second) (hone : Dominates first x y) (hother : Dominates second x y) :
    RankScale.exact.score first second y < RankScale.exact.score first second x := by
  rw [score_exact, score_exact]
  rcases hy with hy | hy
  · exact add_lt_add_of_lt_of_le (reciprocalRank_lt hfirst (hone hy)) (hother.le hsecond)
  · exact add_lt_add_of_le_of_lt (hone.le hfirst) (reciprocalRank_lt hsecond (hother hy))

/-- The higher score stands first, and of two equal scores the smaller identifier. -/
def ByScore (a b : Scored ℚ) : Prop := b.2 < a.2 ∨ (a.2 = b.2 ∧ a.1 < b.1)

theorem before_exact_iff {a b : Scored ℚ} :
    Scored.before RankScale.exact.less a b = true ↔ ByScore a b := by
  rw [before_eq_true_iff, ByScore]
  constructor
  · rintro (h | ⟨h, hid⟩)
    · exact .inl (of_decide_eq_true h)
    · have hle : b.2 ≤ a.2 := not_lt.1 (of_decide_eq_false h)
      exact hle.lt_or_eq.imp_right fun heq => ⟨heq.symm, hid⟩
  · rintro (h | ⟨heq, hid⟩)
    · exact .inl (decide_eq_true h)
    · exact .inr ⟨decide_eq_false heq.not_lt, hid⟩

theorem ByScore.asymm {a b : Scored ℚ} (hab : ByScore a b) : ¬ ByScore b a := by
  rintro (hba | ⟨hscore, hid⟩)
  · rcases hab with hab | ⟨hscore, -⟩
    · exact hab.not_gt hba
    · exact hba.ne hscore
  · rcases hab with hab | ⟨-, hid'⟩
    · exact hab.ne hscore
    · exact String.lt_irrefl _ (String.lt_trans hid hid')

section

variable {fused : List (Scored ℚ)}

theorem Fused.pairwise_exact (h : Fused .exact first second fused) : fused.Pairwise ByScore :=
  h.sorted.imp before_exact_iff.1

/-- Rankings with the same scores are fused to the same list. -/
theorem Fused.eq_of_comm {other : List (Scored ℚ)} (h : Fused .exact first second fused)
    (hother : Fused .exact second first other) : other = fused := by
  have hperm : other.Perm fused := by
    refine (List.perm_ext_iff_of_nodup hother.ids_nodup.of_map h.ids_nodup.of_map).2 fun a => ?_
    rw [hother.mem_iff, h.mem_iff, score_exact, score_exact, or_comm, add_comm]
  refine List.Perm.eq_of_pairwise ?_ hother.pairwise_exact h.pairwise_exact hperm
  exact fun a b _ _ hab hba => absurd hba hab.asymm

variable (hfirst : first.Nodup) (hsecond : second.Nodup)
include hfirst hsecond

theorem Fused.sublist_exact (h : Fused .exact first second fused) (hy : y ∈ first ∨ y ∈ second)
    (hone : Dominates first x y) (hother : Dominates second x y) :
    [x, y].Sublist (fused.map Prod.fst) := by
  have hlt := score_exact_lt hfirst hsecond hy hone hother
  have hx : x ∈ first ∨ x ∈ second :=
    hy.imp (fun hy => (hone hy).subset List.mem_cons_self)
      fun hy => (hother hy).subset List.mem_cons_self
  have hpair : [(x, RankScale.exact.score first second x),
      (y, RankScale.exact.score first second y)].Sublist fused :=
    sublist_of_not_after h.pairwise_exact ((h.mem_iff _).2 ⟨hx, rfl⟩) ((h.mem_iff _).2 ⟨hy, rfl⟩)
      (fun h => hlt.ne (congrArg Prod.snd h).symm) (ByScore.asymm (.inl hlt))
  exact hpair.map Prod.fst

/-- With exact scores, fusing two rankings does not break off.  It gives every identifier of either
once, with the sum of the reciprocals of its shifted ranks, the highest score first and equal scores by
the identifiers.  The order of the rankings makes no difference, and what precedes an identifier
wherever this one is ranked precedes it in the result. -/
theorem fuse_exact_keeps_agreement :
    ∃ fused, fuse .exact first second = .ok fused ∧ (fused.map Prod.fst).Nodup ∧
      (∀ a, a ∈ fused ↔ (a.1 ∈ first ∨ a.1 ∈ second) ∧
        a.2 = reciprocalRank first a.1 + reciprocalRank second a.1) ∧
      fused.Pairwise ByScore ∧ fuse .exact second first = .ok fused ∧
      ∀ x y, (y ∈ first ∨ y ∈ second) → Dominates first x y → Dominates second x y →
        [x, y].Sublist (fused.map Prod.fst) := by
  obtain ⟨fused, hfuse, hfused⟩ := weaklyOrdered_exact.exists_fuse hfirst hsecond fun _ => trivial
  obtain ⟨other, hother, hturned⟩ := weaklyOrdered_exact.exists_fuse hsecond hfirst fun _ => trivial
  refine ⟨fused, hfuse, hfused.ids_nodup, fun a => ?_, hfused.pairwise_exact,
    hother.trans (congrArg Except.ok (hfused.eq_of_comm hturned)),
    fun x y => hfused.sublist_exact hfirst hsecond⟩
  rw [hfused.mem_iff, score_exact]

end

end

/-- The identifier in both rankings comes first, and it dominates one that only the second has. -/
theorem fuse_exact_keeps_agreement_shared :
    ["x", "y"].Nodup ∧ ["y", "z"].Nodup ∧ Dominates ["x", "y"] "y" "z" ∧
      Dominates ["y", "z"] "y" "z" ∧
      ∃ fused, fuse .exact ["x", "y"] ["y", "z"] = .ok fused ∧
        ["y", "z"].Sublist (fused.map Prod.fst) ∧
        fused = [("y", 123 / 3782), ("x", 1 / 61), ("z", 1 / 62)] := by
  have hfirst : ["x", "y"].Nodup := by decide
  have hsecond : ["y", "z"].Nodup := by decide
  have hone : Dominates ["x", "y"] "y" "z" := fun h => absurd h (by decide)
  have hother : Dominates ["y", "z"] "y" "z" := fun _ => List.Sublist.refl _
  obtain ⟨fused, hfuse, -, -, -, -, hagree⟩ := fuse_exact_keeps_agreement hfirst hsecond
  have hscores : fuse .exact ["x", "y"] ["y", "z"] =
      .ok [("y", 123 / 3782), ("x", 1 / 61), ("z", 1 / 62)] := by decide +kernel
  exact ⟨hfirst, hsecond, hone, hother, fused, hfuse, hagree "y" "z" (.inr (by decide)) hone hother,
    Except.ok.inj (hfuse.symm.trans hscores)⟩

end CodeIndex.Store
