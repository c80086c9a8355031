import CodeIndex.Proofs.Numeric.Squares
import CodeIndex.Proofs.Store.Query

/-! The order of records by the angles of their dense vectors.  A cosine is no number exactly if the
sum of the squares of one of the vectors is too great, and the sum of the products as well.  A record
with such a cosine compares with no other, and where it stands between two others by its identifier
the order of these two is lost. -/

namespace CodeIndex.Store

open CodeIndex.Numeric
open Sorting (GoesOn Linked)

/-! ### The cosine -/

section

variable {a b : Array Float32}

def FiniteVector (a : Array Float32) : Prop := ∀ x ∈ a, x.isFinite = true

instance : DecidablePred FiniteVector := fun a => inferInstanceAs (Decidable (∀ x ∈ a, _))

/-- The products of two vectors' components. -/
def products (a b : Array Float32) : List Float32 :=
  (a.toList.zip b.toList).map fun xy => xy.1 * xy.2

theorem dot_eq_foldl_add (a b : Array Float32) : dot a b = (products a b).foldl (· + ·) 0 :=
  List.foldl_map.symm

theorem products_self (a : Array Float32) : products a a = a.toList.map fun x => x * x :=
  List.map_uncurry_zip_eq_zipWith.trans List.zipWith_self

theorem exists_of_mem_products {z : Float32} (hz : z ∈ products a b) :
    ∃ x ∈ a, ∃ y ∈ b, x * y = z := by
  obtain ⟨⟨x, y⟩, hxy, rfl⟩ := List.mem_map.1 hz
  obtain ⟨hx, hy⟩ := List.of_mem_zip hxy
  exact ⟨x, Array.mem_toList_iff.1 hx, y, Array.mem_toList_iff.1 hy, rfl⟩

theorem isUnsigned_of_mem_products_self (ha : FiniteVector a) :
    ∀ z ∈ products a a, IsUnsigned z := by
  intro z hz
  rw [products_self] at hz
  obtain ⟨x, hx, rfl⟩ := List.mem_map.1 hz
  exact isUnsigned_square (ha x (Array.mem_toList_iff.1 hx))

theorem isUnsigned_dot_self (ha : FiniteVector a) : IsUnsigned (dot a a) := by
  rw [dot_eq_foldl_add]
  exact (isUnsigned_ofNat 0).foldl_add (isUnsigned_of_mem_products_self ha)

/-- A sum of squares is finite only if all squares are. -/
theorem isFinite_square (ha : FiniteVector a) (h : (dot a a).isFinite = true) :
    ∀ x ∈ a, (x * x).isFinite = true := by
  intro x hx
  rw [dot_eq_foldl_add] at h
  refine (isFinite_of_foldl_add (isUnsigned_ofNat 0) (isUnsigned_of_mem_products_self ha) h).2 _ ?_
  rw [products_self]
  exact List.mem_map_of_mem (Array.mem_toList_iff.2 hx)

/-- Vectors whose sums of squares are finite have finite products, and these add up to a number. -/
theorem isNaN_dot (ha : FiniteVector a) (hb : FiniteVector b) (haa : (dot a a).isFinite = true)
    (hbb : (dot b b).isFinite = true) : (dot a b).isNaN = false := by
  rw [dot_eq_foldl_add]
  refine isNaN_foldl_add rfl fun z hz => ?_
  obtain ⟨x, hx, y, hy, rfl⟩ := exists_of_mem_products hz
  exact isFinite_mul (ha x hx) (hb y hy) (isFinite_square ha haa x hx) (isFinite_square hb hbb y hy)

/-- The length of a finite vector that has one is infinite or a root. -/
theorem norm_cases (ha : FiniteVector a) (hne : (norm a == 0) = false) :
    (norm a).toModel.unpack = .infinity .positive ∨
      ((dot a a).isFinite = true ∧ Root (norm a).toModel.unpack) := by
  rcases (isUnsigned_dot_self ha).sqrt_cases with ⟨-, hinfinity⟩ | ⟨hfinite, hzero | hroot⟩
  · exact .inl hinfinity
  · rw [norm, hzero] at hne
    cases hne
  · exact .inr ⟨hfinite, hroot⟩

theorem isInf_of_unpack {x : Float32} (hx : x.toModel.unpack = .infinity .positive) :
    x.isInf = true := congrArg Float.Model.UnpackedFloat.isInf hx

theorem isInf_of_root {x : Float32} (hx : Root x.toModel.unpack) : x.isInf = false := by
  obtain ⟨m, e, hm, h, -⟩ := hx.cases
  exact congrArg Float.Model.UnpackedFloat.isInf h

/-- Both vectors have a length, but that of one of them is too great, and so is the sum of their
products. -/
def Overflows (a b : Array Float32) : Prop :=
  (norm a == 0) = false ∧ (norm b == 0) = false ∧
    ((norm a).isInf = true ∨ (norm b).isInf = true) ∧ (dot a b).isFinite = false

instance : Decidable (Overflows a b) := inferInstanceAs (Decidable (_ ∧ _))

theorem cosine_of_zero (h : (norm a == 0 || norm b == 0) = true) : cosine a b = 0 := if_pos h

theorem cosine_of_ne_zero (h : (norm a == 0 || norm b == 0) = false) :
    cosine a b = dot a b / (norm a * norm b) := if_neg (ne_true_of_eq_false h)

/-- Over a length that is too great, every sum of products that is not finite gives no number. -/
theorem isNaN_cosine_iff_of_infinite (hna : (norm a == 0) = false) (hnb : (norm b == 0) = false)
    (hinf : (norm a).isInf = true ∨ (norm b).isInf = true)
    (hproduct : (norm a * norm b).toModel.unpack = .infinity .positive) :
    (cosine a b).isNaN = true ↔ Overflows a b := by
  rw [cosine_of_ne_zero (Bool.or_eq_false_iff.2 ⟨hna, hnb⟩), isNaN_div_of_infinity hproduct,
    Bool.not_eq_true']
  exact ⟨fun hdot => ⟨hna, hnb, hinf, hdot⟩, fun h => h.2.2.2⟩

theorem isNaN_cosine_iff (ha : FiniteVector a) (hb : FiniteVector b) :
    (cosine a b).isNaN = true ↔ Overflows a b := by
  cases hlengths : norm a == 0 || norm b == 0 with
  | true =>
    rw [cosine_of_zero hlengths]
    refine iff_of_false (by decide +kernel) ?_
    rintro ⟨hna, hnb, -⟩
    rw [hna, hnb] at hlengths
    cases hlengths
  | false =>
    obtain ⟨hna, hnb⟩ := Bool.or_eq_false_iff.1 hlengths
    rcases norm_cases ha hna with hinfa | ⟨hfinitea, hroota⟩
    · refine isNaN_cosine_iff_of_infinite hna hnb (.inl (isInf_of_unpack hinfa)) ?_
      exact (unpack_infinity_mul hinfa ((norm_cases hb hnb).imp_right And.right)).1
    rcases norm_cases hb hnb with hinfb | ⟨hfiniteb, hrootb⟩
    · refine isNaN_cosine_iff_of_infinite hna hnb (.inr (isInf_of_unpack hinfb)) ?_
      exact (unpack_infinity_mul hinfb (.inr hroota)).2
    · rw [cosine_of_ne_zero hlengths, isNaN_div_roots hroota hrootb,
        isNaN_dot ha hb hfinitea hfiniteb]
      refine iff_of_false Bool.false_ne_true ?_
      rintro ⟨-, -, hinf, -⟩
      rw [isInf_of_root hroota, isInf_of_root hrootb] at hinf
      simp at hinf

end

/-! ### The order of the candidates -/

/-- By its identifier, a record whose cosine is no number stands between one that is less similar to a
query and one that is more similar. -/
def Upset (v : HybridVector) (rs : List Record) : Prop :=
  ∃ low ∈ rs, ∃ mid ∈ rs, ∃ high ∈ rs, (cosine v.dense mid.vector.dense).isNaN = true ∧
    low.id < mid.id ∧ mid.id < high.id ∧
    cosine v.dense low.vector.dense < cosine v.dense high.vector.dense

section

variable {v : HybridVector} {rs : List Record}

instance : Decidable (Upset v rs) := inferInstanceAs (Decidable (∃ _ ∈ rs, _))

theorem disturbed_denseScores_iff :
    Disturbed RankScale.single.less (fun x => x.isNaN = false) (denseScores rs v) ↔ Upset v rs := by
  constructor
  · rintro ⟨_, hlow, _, hmid, _, hhigh, hnot, hlowmid, hmidhigh, hlower⟩
    obtain ⟨low, hlowmem, rfl⟩ := List.mem_map.1 hlow
    obtain ⟨mid, hmidmem, rfl⟩ := List.mem_map.1 hmid
    obtain ⟨high, hhighmem, rfl⟩ := List.mem_map.1 hhigh
    exact ⟨low, hlowmem, mid, hmidmem, high, hhighmem, Bool.not_eq_false _ ▸ hnot, hlowmid,
      hmidhigh, of_decide_eq_true hlower⟩
  · rintro ⟨low, hlow, mid, hmid, high, hhigh, hnumber, hlowmid, hmidhigh, hlower⟩
    exact ⟨_, List.mem_map_of_mem hlow, _, List.mem_map_of_mem hmid, _, List.mem_map_of_mem hhigh,
      ne_false_of_eq_true hnumber, hlowmid, hmidhigh, decide_eq_true hlower⟩

theorem denseOrdered_iff (hids : (rs.map Record.id).Nodup) : DenseOrdered rs v ↔ ¬ Upset v rs := by
  rw [DenseOrdered, partlyOrdered_single.orders_iff (ids_denseScores rs v ▸ hids),
    disturbed_denseScores_iff]

/-- If no order is lost, the ranking has the more similar of two records first. -/
theorem exists_denseRanking (hids : (rs.map Record.id).Nodup) (hnot : ¬ Upset v rs) (limit : Nat) :
    ∃ ids, Collection.denseRanking rs v limit = .ok ids ∧ ∀ r ∈ rs, ∀ s ∈ rs,
      cosine v.dense s.vector.dense < cosine v.dense r.vector.dense → s.id ∈ ids →
      [r.id, s.id].Sublist ids := by
  have hordered := (denseOrdered_iff hids).2 hnot
  obtain ⟨ids, hranking, hlisted⟩ := (denseRanking_gives rs v limit).exists_ok hordered
  refine ⟨ids, hranking, fun r hr s hs hlower hmem => ?_⟩
  exact (hlisted.best hordered).sublist hordered (ids_denseScores rs v ▸ hids)
    (List.mem_map_of_mem hr) (List.mem_map_of_mem hs)
    (before_eq_true_iff.2 (.inl (decide_eq_true hlower))) hmem

end

namespace Collection

/-- The candidates of a query, by their cosines and then by their identifiers: no two precede each
other, and one of any two precedes the other.  Preceding goes on over a third candidate exactly if no
cosine that is no number stands between others of the wrong order; then sorting does not break off,
and the more similar of two candidates is ranked first, whatever the limit.  Of finite vectors, only
those that overflow have a cosine that is no number. -/
theorem dense_order_goesOn_iff (c : Collection) (v : HybridVector) (o : QueryOptions) :
    (∀ a b, Scored.before RankScale.single.less a b = true →
      Scored.before RankScale.single.less b a = false) ∧
    (denseScores (c.candidates o) v).Pairwise (Linked (Scored.before RankScale.single.less)) ∧
    (GoesOn (Scored.before RankScale.single.less) (· ∈ denseScores (c.candidates o) v) ↔
      ¬ Upset v (c.candidates o)) ∧
    (¬ Upset v (c.candidates o) → ∀ limit,
      ∃ ids, denseRanking (c.candidates o) v limit = .ok ids ∧
        ∀ r ∈ c.candidates o, ∀ s ∈ c.candidates o,
          cosine v.dense s.vector.dense < cosine v.dense r.vector.dense → s.id ∈ ids →
          [r.id, s.id].Sublist ids) ∧
    (FiniteVector v.dense → ∀ r ∈ c.candidates o, FiniteVector r.vector.dense →
      ((cosine v.dense r.vector.dense).isNaN = true ↔ Overflows v.dense r.vector.dense)) := by
  have hids := c.nodup_ids_candidates o
  have hscores : ((denseScores (c.candidates o) v).map Prod.fst).Nodup :=
    ids_denseScores _ v ▸ hids
  refine ⟨fun a b => partlyOrdered_single.before_asymm, pairwise_linked hscores, ?_,
    exists_denseRanking hids, fun hv r _ hr => isNaN_cosine_iff hv hr⟩
  rw [partlyOrdered_single.goesOn_iff hscores, disturbed_denseScores_iff]

/-- Three records, the second one with a length that is too great. -/
def threeDirections : List Record := [
  ⟨"a", ⟨#[0, 1], .empty⟩, "x", ⟨"a.js", "a.js", "js", 4, 0, 1, 1⟩⟩,
  ⟨"b", ⟨#[3e38, 3e38], .empty⟩, "y", ⟨"a.js", "a.js", "js", 4, 0, 2, 2⟩⟩,
  ⟨"c", ⟨#[1, 0], .empty⟩, "z", ⟨"b.js", "b.js", "js", 4, 0, 1, 1⟩⟩]

def directions : Collection := empty.insertAll threeDirections

def shortQuery : HybridVector := ⟨#[1, 0], .empty⟩

def longQuery : HybridVector := ⟨#[100, 0], .empty⟩

theorem candidates_directions : directions.candidates {} = threeDirections := by rfl

/-- The products of the short query do not overflow. -/
theorem dense_order_goesOn_iff_short :
    FiniteVector shortQuery.dense ∧ (∀ r ∈ threeDirections, FiniteVector r.vector.dense) ∧
      (norm #[3e38, 3e38]).isInf = true ∧ ¬ Overflows shortQuery.dense #[3e38, 3e38] ∧
      (cosine shortQuery.dense #[3e38, 3e38]).isNaN = false ∧
      ¬ Upset shortQuery (directions.candidates {}) ∧
      GoesOn (Scored.before RankScale.single.less)
        (· ∈ denseScores (directions.candidates {}) shortQuery) ∧
      cosine shortQuery.dense #[0, 1] < cosine shortQuery.dense #[1, 0] ∧
      ∃ ids, denseRanking (directions.candidates {}) shortQuery 2 = .ok ids ∧ ids = ["c", "a"] ∧
        ["c", "a"].Sublist ids := by
  have hquery : FiniteVector shortQuery.dense := by decide +kernel
  have hrecords : ∀ r ∈ threeDirections, FiniteVector r.vector.dense := by decide +kernel
  have hfits : ¬ Overflows shortQuery.dense #[3e38, 3e38] := by decide +kernel
  have hcalm : ¬ Upset shortQuery (directions.candidates {}) := by decide +kernel
  have hlower : cosine shortQuery.dense #[0, 1] < cosine shortQuery.dense #[1, 0] := by
    decide +kernel
  have hranked : denseRanking (directions.candidates {}) shortQuery 2 = .ok ["c", "a"] := by
    decide +kernel
  obtain ⟨-, -, hgoes, hfirst, hnumber⟩ := dense_order_goesOn_iff directions shortQuery {}
  obtain ⟨ids, hranking, hsublist⟩ := hfirst hcalm 2
  have hids : ids = ["c", "a"] := Except.ok.inj (hranking.symm.trans hranked)
  have hnumber' := hnumber hquery
  rw [candidates_directions] at hsublist hnumber'
  have hlong : (cosine shortQuery.dense #[3e38, 3e38]).isNaN = false :=
    Bool.eq_false_iff.2 fun h =>
      hfits ((hnumber' _ (.tail _ (.head _)) (hrecords _ (.tail _ (.head _)))).1 h)
  refine ⟨hquery, hrecords, by decide +kernel, hfits, hlong, hcalm, hgoes.2 hcalm, hlower, ids,
    hranking, hids, hsublist _ (.tail _ (.tail _ (.head _))) _ (.head _) hlower ?_⟩
  simp [hids]

/-- Those of the long query do: a record that is not similar at all is ranked before the one that is
most similar, and takes its place. -/
theorem dense_order_not_goesOn_long :
    FiniteVector longQuery.dense ∧ (∀ r ∈ threeDirections, FiniteVector r.vector.dense) ∧
      cosine longQuery.dense #[0, 1] < cosine longQuery.dense #[1, 0] ∧
      ¬ GoesOn (Scored.before RankScale.single.less)
        (· ∈ denseScores (directions.candidates {}) longQuery) ∧
      denseRanking (directions.candidates {}) longQuery 2 = .ok ["a", "b"] ∧
      (directions.query longQuery { limit := 1 }).map (·.map Hit.id) = .ok ["a"] := by
  have hscores : denseScores (directions.candidates {}) longQuery =
      [("a", cosine #[100, 0] #[0, 1]), ("b", cosine #[100, 0] #[3e38, 3e38]),
        ("c", cosine #[100, 0] #[1, 0])] := by rfl
  refine ⟨by decide +kernel, by decide +kernel, by decide +kernel, fun hgoes => ?_,
    by decide +kernel, by decide +kernel⟩
  rw [hscores] at hgoes
  have hbefore := hgoes _ _ _ (.head _) (.tail _ (.head _)) (.tail _ (.tail _ (.head _)))
    (by decide +kernel) (by decide +kernel)
  exact absurd hbefore (by decide +kernel)

end Collection

end CodeIndex.Store
