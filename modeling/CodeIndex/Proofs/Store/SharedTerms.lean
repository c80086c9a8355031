import CodeIndex.Proofs.Numeric.Magnitude
import CodeIndex.Proofs.Sparse.Counting
import CodeIndex.Proofs.Store.Query

/-! Terms that texts share.  The vectors of two texts are multiplied hash by hash, so the product counts
the pairs of words with one hash, and in single precision, too, it is positive exactly if there is such
a pair.  So the words of a query rank exactly the records that share one of them. -/

namespace CodeIndex.Store

open SparseVector CodeIndex.Numeric

variable {Count α : Type} {f : ℕ → Count} {q d : List UInt32}

/-! ### Products of vectors -/

/-- A list of hashes with what belongs to each; one that stands there twice has the same twice. -/
theorem lookup_map_mk {β : Type} (g : UInt32 → β) (hashes : List UInt32) (hash : UInt32) :
    (hashes.map fun h => (h, g h)).lookup hash = if hash ∈ hashes then some (g hash) else none := by
  induction hashes with
  | nil => rfl
  | cons h rest ih =>
    rw [List.map_cons, List.lookup_cons]
    by_cases hsame : hash = h
    · simp [hsame]
    · rw [beq_false_of_ne hsame]
      simp [ih, hsame]

/-- Each hash of the query that the document has, too, gives the product of its counts. -/
theorem sparseDot_ofHashes [Add Count] [OfNat Count 1] [Add α] [Mul α] [Zero α] (hf : CountsUp f)
    (ofCount : Count → α) (q d : List UInt32) :
    sparseDot ofCount (ofHashes q) (ofHashes d) =
      ((q.eraseDups.filter (· ∈ d)).map fun hash =>
        ofCount (f (q.count hash)) * ofCount (f (d.count hash))).foldl (· + ·) 0 := by
  rw [sparseDot, entries_ofHashes hf, entries_ofHashes hf, List.filterMap_map, ← List.map_reverse,
    ← List.filterMap_eq_filter, List.map_filterMap]
  refine congrArg (List.foldl _ _) (List.filterMap_congr fun hash _ => ?_)
  dsimp only [Function.comp]
  rw [lookup_map_mk]
  simp only [List.mem_reverse, List.mem_eraseDups]
  by_cases hmem : hash ∈ d <;> simp [hmem, Option.guard]

/-- Hashes that do not occur on both sides add nothing. -/
theorem sum_filter_eraseDups (q d : List UInt32) :
    ((q.eraseDups.filter (· ∈ d)).map fun hash => q.count hash * d.count hash).sum =
      ∑ hash : UInt32, q.count hash * d.count hash := by
  rw [← List.sum_toFinset _ ((nodup_eraseDups q).filter _)]
  refine Finset.sum_subset (Finset.subset_univ _) fun hash _ hout => ?_
  rw [List.mem_toFinset, List.mem_filter, List.mem_eraseDups, decide_eq_true_iff, not_and_or] at hout
  rcases hout with hout | hout <;> rw [List.count_eq_zero_of_not_mem hout]
  · exact Nat.zero_mul _
  · exact Nat.mul_zero _

theorem sparseDot_eq_sum [Add Count] [OfNat Count 1] (hf : CountsUp f) {ofCount : Count → ℕ}
    (hq : ∀ hash, ofCount (f (q.count hash)) = q.count hash)
    (hd : ∀ hash, ofCount (f (d.count hash)) = d.count hash) :
    sparseDot ofCount (ofHashes q) (ofHashes d) = ∑ hash : UInt32, q.count hash * d.count hash := by
  rw [sparseDot_ofHashes hf, ← List.sum_eq_foldl, ← sum_filter_eraseDups]
  simp only [hq, hd]

theorem sum_count_pos_iff {q d : List UInt32} :
    0 < ∑ hash : UInt32, q.count hash * d.count hash ↔ ∃ hash ∈ q, hash ∈ d := by
  simp [Finset.sum_pos_iff, List.count_pos_iff]

/-! ### Records that share a term -/

theorem isFromOne_count (h : CountsFit q) {hash : UInt32} (hmem : hash ∈ q) :
    IsFromOne (UInt32.ofNat (q.count hash)).toFloat32 :=
  isFromOne_toFloat32 ((h.toNat_count hash).symm ▸ List.count_pos_iff.2 hmem)

/-- Either no hash is shared and the product is zero, or it is at least one. -/
theorem sparseDot_single (hq : CountsFit q) (hd : CountsFit d) :
    ((∀ hash ∈ q, hash ∉ d) ∧ sparseDot UInt32.toFloat32 (ofHashes q) (ofHashes d) = 0) ∨
      ((∃ hash ∈ q, hash ∈ d) ∧
        IsFromOne (sparseDot UInt32.toFloat32 (ofHashes q) (ofHashes d))) := by
  rw [sparseDot_ofHashes countsUp_ofNat]
  rcases hshared : q.eraseDups.filter (· ∈ d) with _ | ⟨hash, rest⟩
  · refine .inl ⟨fun hash hhash hmem => ?_, rfl⟩
    exact List.not_mem_nil (hshared ▸ List.mem_filter.2
      ⟨List.mem_eraseDups.2 hhash, decide_eq_true hmem⟩)
  · rw [← hshared]
    have hboth : ∀ h ∈ q.eraseDups.filter (· ∈ d), h ∈ q ∧ h ∈ d := fun h hmem =>
      ⟨List.mem_eraseDups.1 (List.mem_filter.1 hmem).1, of_decide_eq_true (List.mem_filter.1 hmem).2⟩
    refine .inr ⟨⟨hash, hboth hash (hshared ▸ List.mem_cons_self)⟩, isFromOne_sum ?_ fun y hy => ?_⟩
    · simp [hshared]
    · obtain ⟨h, hmem, rfl⟩ := List.mem_map.1 hy
      exact (isFromOne_count hq (hboth h hmem).1).mul (isFromOne_count hd (hboth h hmem).2)

theorem sparseDot_pos_iff (hq : CountsFit q) (hd : CountsFit d) :
    0 < sparseDot UInt32.toFloat32 (ofHashes q) (ofHashes d) ↔ ∃ hash ∈ q, hash ∈ d := by
  rcases sparseDot_single hq hd with ⟨hnone, hzero⟩ | ⟨hshared, hone⟩
  · rw [hzero, lt_iff_key rfl rfl]
    exact iff_of_false (lt_irrefl _) fun ⟨hash, hhash, hmem⟩ => hnone hash hhash hmem
  · exact iff_of_true hone.pos hshared

/-- Two texts have words with one hash. -/
def SharesTerm (q d : String) : Prop := ∃ hash ∈ tokenHashes q.toList, hash ∈ tokenHashes d.toList

instance (q d : String) : Decidable (SharesTerm q d) :=
  inferInstanceAs (Decidable (∃ hash ∈ tokenHashes q.toList, hash ∈ tokenHashes d.toList))

/-- The vector of a text with counts of any size. -/
def exactVector (text : String) : SparseVector ℕ := ofHashes (tokenHashes text.toList)

theorem sparseDot_exactVector (q d : String) :
    sparseDot id (exactVector q) (exactVector d) =
      ∑ hash : UInt32, (tokenHashes q.toList).count hash * (tokenHashes d.toList).count hash :=
  sparseDot_eq_sum countsUp_id (fun _ => rfl) fun _ => rfl

section

variable {q : String} {rs : List Record} {text : Record → String}

/-- A record holds the vector of a text. -/
structure HoldsText (r : Record) (text : String) : Prop where
  vector : r.vector.sparse = .ofText text
  fits : CountsFit (tokenHashes text.toList)

/-- Records with the products of their vectors and that of a query. -/
def sharedScores (q : String) (rs : List Record) : List (Scored Float32) :=
  rs.map fun r => (r.id, sparseDot UInt32.toFloat32 (.ofText q) r.vector.sparse)

theorem sparseScores_eq (hq : CountsFit (tokenHashes q.toList))
    (hrs : ∀ r ∈ rs, HoldsText r (text r)) (dense : Array Float32) :
    sparseScores rs ⟨dense, .ofText q⟩ =
      sharedScores q (rs.filter fun r => SharesTerm q (text r)) := by
  rw [sparseScores, sharedScores, List.filter_map]
  refine congrArg (List.map _) (List.filter_congr fun r hr => decide_eq_decide.2 ?_)
  dsimp only
  rw [(hrs r hr).vector]
  exact sparseDot_pos_iff hq (hrs r hr).fits

theorem exists_best_sharedScores (hq : CountsFit (tokenHashes q.toList))
    (hrs : ∀ r ∈ rs, HoldsText r (text r)) (hids : (rs.map Record.id).Nodup)
    (dense : Array Float32) (limit : ℕ) :
    ∃ ids, Collection.sparseRanking rs ⟨dense, .ofText q⟩ limit = .ok ids ∧
      Best RankScale.single.less limit
        (sharedScores q (rs.filter fun r => SharesTerm q (text r))) ids := by
  obtain ⟨ids, hranking, hlisted⟩ := exists_sparseRanking hids ⟨dense, .ofText q⟩ limit
  exact ⟨ids, hranking, sparseScores_eq hq hrs dense ▸ hlisted.best trivial⟩

/-- The product of two texts' vectors counts the pairs of words with one hash.  So it is the same from
both sides and positive exactly if the texts share a term, and the words of a query rank exactly the
records that share one, the best first, as many as are asked for. -/
theorem sparseDot_counts_shared_terms :
    (∀ q d : String,
      sparseDot id (exactVector q) (exactVector d) =
        ∑ hash : UInt32, (tokenHashes q.toList).count hash * (tokenHashes d.toList).count hash ∧
      sparseDot id (exactVector q) (exactVector d) = sparseDot id (exactVector d) (exactVector q) ∧
      (0 < sparseDot id (exactVector q) (exactVector d) ↔ SharesTerm q d) ∧
      (CountsFit (tokenHashes q.toList) → CountsFit (tokenHashes d.toList) →
        sparseDot UInt32.toNat (.ofText q) (.ofText d) =
          sparseDot id (exactVector q) (exactVector d))) ∧
    ∀ (c : Collection) (o : QueryOptions) (dense : Array Float32) (q : String)
      (text : Record → String), CountsFit (tokenHashes q.toList) →
      (∀ r ∈ c, o.passes r → HoldsText r (text r)) →
      ∃ (rs : List Record) (ids : List String),
        (∀ r, r ∈ rs ↔ r ∈ c ∧ o.passes r ∧ SharesTerm q (text r)) ∧
        (rs.map Record.id).Nodup ∧
        Collection.sparseRanking (c.candidates o) ⟨dense, .ofText q⟩ o.prefetchLimit = .ok ids ∧
        Best RankScale.single.less o.prefetchLimit (sharedScores q rs) ids := by
  refine ⟨fun q d => ⟨sparseDot_exactVector q d, ?_, ?_, fun hq hd => ?_⟩,
    fun c o dense q text hq hrs => ?_⟩
  · rw [sparseDot_exactVector, sparseDot_exactVector]
    exact Finset.sum_congr rfl fun hash _ => Nat.mul_comm _ _
  · rw [sparseDot_exactVector]
    exact sum_count_pos_iff
  · rw [sparseDot_exactVector]
    exact sparseDot_eq_sum countsUp_ofNat hq.toNat_count hd.toNat_count
  · have hcandidates : ∀ r ∈ c.candidates o, HoldsText r (text r) := fun r hr =>
      hrs r (Collection.mem_candidates.1 hr).1 (Collection.mem_candidates.1 hr).2
    have hids := c.nodup_ids_candidates o
    obtain ⟨ids, hranking, hbest⟩ :=
      exists_best_sharedScores hq hcandidates hids dense o.prefetchLimit
    refine ⟨(c.candidates o).filter fun r => SharesTerm q (text r), ids, fun r => ?_, ?_,
      hranking, hbest⟩
    · rw [List.mem_filter, Collection.mem_candidates, decide_eq_true_iff, and_assoc]
    · exact hids.sublist (List.filter_sublist.map _)

end

/-- A record with the query's word "bar" twice. -/
def fooBarBar : Record :=
  ⟨"a", ⟨#[1, 0], .ofText "foo bar bar"⟩, "foo bar bar", ⟨"a.js", "a.js", "js", 11, 0, 1, 1⟩⟩

def baz : Record := ⟨"b", ⟨#[0, 1], .ofText "baz"⟩, "baz", ⟨"b.js", "b.js", "js", 3, 0, 1, 1⟩⟩

def twoTexts : Collection := Collection.empty.insertAll [fooBarBar, baz]

theorem mem_twoTexts {r : Record} : r ∈ twoTexts ↔ r = fooBarBar ∨ r = baz := by
  rw [twoTexts, Collection.mem_insertAll (by decide)]
  simp [Collection.not_mem_empty]

/-- Only the first of two records shares a word with the query. -/
theorem sparseDot_counts_shared_terms_bar :
    CountsFit (tokenHashes "bar qux".toList) ∧
      (∀ r ∈ twoTexts, QueryOptions.passes {} r → HoldsText r r.payload.code) ∧
      0 < sparseDot UInt32.toNat (.ofText "bar qux") (.ofText "foo bar bar") ∧
      Collection.sparseRanking (twoTexts.candidates {}) ⟨#[1, 0], .ofText "bar qux"⟩ 20 =
        .ok ["a"] := by
  have hquery : CountsFit (tokenHashes "bar qux".toList) :=
    countsFit_tokenHashes (by decide +kernel)
  have hfirst : CountsFit (tokenHashes "foo bar bar".toList) :=
    countsFit_tokenHashes (by decide +kernel)
  have hsecond : CountsFit (tokenHashes "baz".toList) := countsFit_tokenHashes (by decide +kernel)
  have hshares : SharesTerm "bar qux" "foo bar bar" := by decide +kernel
  have hnone : ¬ SharesTerm "bar qux" "baz" := by decide +kernel
  have hholds : ∀ r ∈ twoTexts, QueryOptions.passes {} r → HoldsText r r.payload.code := by
    intro r hr _
    rcases mem_twoTexts.1 hr with rfl | rfl
    · exact ⟨rfl, hfirst⟩
    · exact ⟨rfl, hsecond⟩
  obtain ⟨hproducts, hrankings⟩ := sparseDot_counts_shared_terms
  obtain ⟨-, -, hpos, hstored⟩ := hproducts "bar qux" "foo bar bar"
  obtain ⟨rs, ids, hmem, hids, hranking, scored, hperm, -, hlisted⟩ :=
    hrankings twoTexts {} #[1, 0] "bar qux" (fun r => r.payload.code) hquery hholds
  refine ⟨hquery, hholds, hstored hquery hfirst ▸ hpos.2 hshares, ?_⟩
  have hall : rs.Perm [fooBarBar] := by
    refine (List.perm_ext_iff_of_nodup hids.of_map (List.nodup_singleton _)).2 fun r => ?_
    rw [hmem, mem_twoTexts, List.mem_singleton]
    constructor
    · rintro ⟨rfl | rfl, -, hshared⟩
      · rfl
      · exact absurd hshared hnone
    · rintro rfl
      exact ⟨.inl rfl, fun _ hf => absurd hf (by simp), hshares⟩
  rw [List.perm_singleton.1 hall, sharedScores, List.map_singleton, List.perm_singleton] at hperm
  rw [hperm] at hlisted
  exact hranking.trans (congrArg Except.ok hlisted)

end CodeIndex.Store
