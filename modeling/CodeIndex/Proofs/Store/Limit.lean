import CodeIndex.Proofs.Store.Similarity
import Mathlib.Data.Set.Card

/-! How many hits a query gives.  Each ranking has its best candidates, as many as its bound allows, so
the dense one alone fills the limit if there are candidates enough; the scores of places are not
negative, so a threshold of at most zero takes no hit away.  Only a sort that breaks off leaves the
query without hits, and so without an answer. -/

namespace CodeIndex.Store

open CodeIndex.Numeric

section

variable {α : Type} {s : RankScale α} {first second ids : List String} {fused : List (Scored α)}

theorem Fused.length_ge (h : Fused s first second fused) (hfirst : first.Nodup) :
    first.length ≤ fused.length := by
  have hsubset : first ⊆ fused.map Prod.fst := fun _ hid => h.mem_ids_iff.2 (.inl hid)
  simpa using (hfirst.subperm hsubset).length_le

theorem Fused.length_le (h : Fused s first second fused)
    (hids : ∀ id, id ∈ first ∨ id ∈ second → id ∈ ids) : fused.length ≤ ids.length := by
  have hsubset : fused.map Prod.fst ⊆ ids := fun id hid => hids id (h.mem_ids_iff.1 hid)
  simpa using (h.ids_nodup.subperm hsubset).length_le

end

/-- A score is not below a threshold of at most zero. -/
theorem threshold_le_fusedScore {threshold : Float32} (h : threshold ≤ 0)
    (first second : List String) (id : String) : threshold ≤ fusedScore first second id :=
  (isUnsigned_fusedScore first second id).le_of_le_zero h

section

variable {rs : List Record} {v : HybridVector} {o : QueryOptions} {dense sparse : List String}
  {fused : List (Scored Float32)} {bound other : ℕ}

/-- Without a threshold above zero, only the limit takes fused identifiers away. -/
theorem Fused.length_chosen (h : Fused .single dense sparse fused)
    (hthreshold : o.scoreThreshold ≤ 0) :
    (chosen o fused).length = min o.limit fused.length := by
  have hall : fused.filter (fun s => s.2 ≥ o.scoreThreshold) = fused := by
    refine List.filter_eq_self.2 fun s hs => decide_eq_true ?_
    rw [((h.mem_iff s).1 hs).2]
    exact threshold_le_fusedScore hthreshold _ _ _
  rw [chosen, hall, List.length_take]

theorem Fused.length_chosen_le (h : Fused .single dense sparse fused)
    (hids : ∀ id, id ∈ dense ∨ id ∈ sparse → ∃ r ∈ rs, r.id = id) :
    (chosen o fused).length ≤ min o.limit rs.length := by
  have hfused : fused.length ≤ (rs.map Record.id).length :=
    h.length_le fun id hid => List.mem_map.2 (hids id hid)
  rw [List.length_map] at hfused
  exact le_min (List.length_take_le _ _) ((chosen_sublist o fused).length_le.trans hfused)

/-- Whatever the bounds of the two rankings, they give no more identifiers than there are records. -/
theorem length_chosen_le_of_rankings (hids : (rs.map Record.id).Nodup)
    (hdense : Collection.denseRanking rs v bound = .ok dense)
    (hsparse : Collection.sparseRanking rs v other = .ok sparse)
    (hfuse : fuse .single dense sparse = .ok fused) :
    (chosen o fused).length ≤ min o.limit rs.length := by
  have hone := (denseRanking_gives rs v bound).of_eq hdense
  obtain ⟨ids, hranking, hother⟩ := exists_sparseRanking hids v other
  rw [hsparse] at hranking
  cases hranking
  obtain ⟨scored, hscored, hfused⟩ := exists_fuse_single
    (hone.nodup (ids_denseScores rs v ▸ hids))
    (hother.nodup (hids.sublist (ids_sparseScores_sublist rs v)))
  rw [hfuse] at hscored
  cases hscored
  exact hfused.length_chosen_le fun id => Collection.exists_of_mem_listed hone hother

theorem limit_le_prefetchLimit (hlimit : o.limit ≤ maxLimit) : o.limit ≤ o.prefetchLimit := by
  rw [QueryOptions.prefetchLimit]
  omega

variable {c : Collection}

/-- Rankings of at least as many candidates as hits are wanted fill the limit, whatever they share. -/
theorem Collected.length_chosen (h : Collected c v o dense sparse fused)
    (hlimit : o.limit ≤ maxLimit) (hthreshold : o.scoreThreshold ≤ 0) :
    (chosen o fused).length = min o.limit (c.candidates o).length := by
  refine le_antisymm (h.fused_all.length_chosen_le fun id =>
    Collection.exists_of_mem_listed h.dense_listed h.sparse_listed) ?_
  have hdense : dense.Nodup :=
    h.dense_listed.nodup (ids_denseScores _ v ▸ c.nodup_ids_candidates o)
  have hfused := h.fused_all.length_ge hdense
  rw [h.dense_listed.length_eq, denseScores, List.length_map] at hfused
  rw [h.fused_all.length_chosen hthreshold]
  have hprefetch := limit_le_prefetchLimit hlimit
  omega

end

namespace Memory

variable {m : Memory} {name : String} {c : Collection}

theorem ncard_passing (c : Collection) (o : QueryOptions) :
    {r | r ∈ c ∧ o.passes r}.ncard = (c.candidates o).length := by
  classical
  have hset : {r | r ∈ c ∧ o.passes r} = ((c.candidates o).toFinset : Set Record) := by
    ext r
    simp [Collection.mem_candidates]
  rw [hset, Set.ncard_coe_finset,
    List.toFinset_card_of_nodup (c.nodup_ids_candidates o).of_map]

/-- A query without a threshold above zero gives as many hits as are wanted, or one for each record
that the filter lets pass; no bounds for the two rankings would make them more.  Or it breaks off: then
more than 20 records pass, and a cosine that is no number stands between others of the wrong order. -/
theorem perform_query_fills_limit (hc : m.collections.get? name = some c) (v : HybridVector)
    {o : QueryOptions} (hlimit : o.limit ≤ maxLimit) (hthreshold : o.scoreThreshold ≤ 0) :
    (∃ hits, m.perform (.query name v o) = (.ok (.ok hits), m) ∧
      hits.length = min o.limit {r | r ∈ c ∧ o.passes r}.ncard ∧
      ∀ bound other dense sparse fused,
        Collection.denseRanking (c.candidates o) v bound = .ok dense →
        Collection.sparseRanking (c.candidates o) v other = .ok sparse →
        fuse .single dense sparse = .ok fused → (chosen o fused).length ≤ hits.length) ∨
    (m.perform (.query name v o) = (.ok (.error .disorder), m) ∧
      20 < {r | r ∈ c ∧ o.passes r}.ncard ∧ Upset v (c.candidates o)) := by
  have hids := c.nodup_ids_candidates o
  rw [ncard_passing, perform_query hc]
  rcases c.query_cases v o with ⟨f, hdense, hquery⟩ | ⟨dense, sparse, fused, hcollected, hquery⟩
  · obtain ⟨rfl, hdisorder, hlong⟩ := of_ranked_eq_error hdense
    refine .inr ⟨by rw [hquery c rfl], by simpa using hlong, ?_⟩
    exact not_not.1 fun hnot => hdisorder ((denseOrdered_iff hids).2 hnot)
  · have hlength : ((chosen o fused).map (c.hit o)).length = min o.limit (c.candidates o).length := by
      rw [List.length_map, hcollected.length_chosen hlimit hthreshold]
    refine .inl ⟨_, by rw [hquery c rfl], hlength, fun bound other dense sparse fused => ?_⟩
    rw [hlength]
    exact length_chosen_le_of_rankings hids

/-- Of two records of a file the better one is a hit of a query for one; of a query for the greatest
number of hits, which is doubled beyond the numbers of 64 bits, both are. -/
theorem perform_query_fills_limit_twoFiles :
    bestOfFile.limit ≤ maxLimit ∧ bestOfFile.scoreThreshold ≤ 0 ∧
      (∃ hits, hits.length = 1 ∧ ((empty 2).set "code" twoFiles).perform
        (.query "code" bothKinds bestOfFile) = (.ok (.ok hits), (empty 2).set "code" twoFiles)) ∧
      ∃ hits, hits.length = 2 ∧ ((empty 2).set "code" twoFiles).perform
        (.query "code" bothKinds { bestOfFile with limit := maxLimit }) =
          (.ok (.ok hits), (empty 2).set "code" twoFiles) := by
  have hlimit : bestOfFile.limit ≤ maxLimit := by decide
  have hthreshold : bestOfFile.scoreThreshold ≤ 0 := by decide +kernel
  have hcandidates : (twoFiles.candidates bestOfFile).length = 2 := by decide +kernel
  have hpassing := (ncard_passing twoFiles bestOfFile).trans hcandidates
  have hsame : {r | r ∈ twoFiles ∧ QueryOptions.passes { bestOfFile with limit := maxLimit } r} =
      {r | r ∈ twoFiles ∧ bestOfFile.passes r} := rfl
  have hfew := perform_query_fills_limit (m := (empty 2).set "code" twoFiles) get?_set_self
    bothKinds hlimit hthreshold
  have hall := perform_query_fills_limit (m := (empty 2).set "code" twoFiles)
    (o := { bestOfFile with limit := maxLimit }) get?_set_self bothKinds le_rfl hthreshold
  rw [hsame] at hall
  rw [hpassing] at hfew hall
  obtain ⟨few, hfew, hone, -⟩ := hfew.resolve_right fun h => absurd h.2.1 (by decide)
  obtain ⟨all, hall, hboth, -⟩ := hall.resolve_right fun h => absurd h.2.1 (by decide)
  exact ⟨hlimit, hthreshold, ⟨few, hone, hfew⟩, all, hboth, hall⟩

/-- Twenty-one records: the first eight are not similar to a query for the first axis, the others are,
but the length of one of these is too great. -/
def letters : Collection :=
  .insertAll .empty <| "abcdefghijklmnopqrstu".toList.map fun letter =>
    let dense : Array Float32 :=
      if letter ≤ 'h' then #[0, 1] else if letter = 'm' then #[3e38, 3e38] else #[1, 0]
    ⟨String.singleton letter, ⟨dense, .empty⟩, "x", ⟨"a.js", "a.js", "js", 1, 0, 1, 1⟩⟩

def oneHit : QueryOptions := { limit := 1 }

/-- A query of these records for one hit breaks off. -/
theorem perform_query_breaks_off_letters :
    FiniteVector Collection.longQuery.dense ∧
      (∀ r ∈ letters.records.values, FiniteVector r.vector.dense) ∧
      oneHit.limit ≤ maxLimit ∧ oneHit.scoreThreshold ≤ 0 ∧
      min oneHit.limit {r | r ∈ letters ∧ oneHit.passes r}.ncard = 1 ∧
      ((empty 2).set "code" letters).perform (.query "code" Collection.longQuery oneHit) =
        (.ok (.error .disorder), (empty 2).set "code" letters) := by
  have hranking : Collection.denseRanking (letters.candidates oneHit) Collection.longQuery
      oneHit.prefetchLimit = .error .disorder := by decide +kernel
  have hcandidates : (letters.candidates oneHit).length = 21 := by decide +kernel
  refine ⟨by decide +kernel, by decide +kernel, by decide, by decide +kernel, ?_, ?_⟩
  · rw [ncard_passing, hcandidates]
    rfl
  · rw [perform_query get?_set_self, Collection.query_eq, hranking]
    rfl

end Memory

end CodeIndex.Store
