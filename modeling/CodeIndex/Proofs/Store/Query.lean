import CodeIndex.Proofs.Numeric.Single
import CodeIndex.Proofs.Store.Memory
import CodeIndex.Proofs.Store.Ranking

/-! Queries of the store in memory.  The candidates are the records that the filter lets pass; two
rankings of them are fused, and of those that reach the threshold the best are the hits.  Records
that the filter does not let pass make no difference. -/

namespace CodeIndex.Store

open CodeIndex.Numeric
open Sorting (Gives Orders gives_ok)

/-! ### Scores in single precision -/

/-- The score of an identifier with what its place in a ranking adds to it, if it has one. -/
def rankShare (ids : List String) (id : String) (sum : Float32) : Float32 :=
  match ids.idxOf? id with
  | some place => sum + 1 / (60 + Float32.ofNat (place + 1))
  | none => sum

/-- The score of an identifier in two rankings, the first one's part first. -/
def fusedScore (first second : List String) (id : String) : Float32 :=
  rankShare second id (rankShare first id 0)

theorem score_single (first second : List String) (id : String) :
    RankScale.single.score first second id = fusedScore first second id := rfl

theorem weaklyOrdered_single : WeaklyOrdered RankScale.single.less fun x => x.isNaN = false where
  asymm _ _ hx hy h :=
    decide_eq_false (lt_asymm_single hx hy (of_decide_eq_true h))
  not_trans _ _ _ hx hy hz hxy hyz :=
    decide_eq_false
      (not_lt_trans_single hx hy hz (of_decide_eq_false hxy) (of_decide_eq_false hyz))

theorem partlyOrdered_single : PartlyOrdered RankScale.single.less fun x => x.isNaN = false where
  toWeaklyOrdered := weaklyOrdered_single
  of_less _ _ h := isNaN_of_lt (of_decide_eq_true h)

theorem isUnsigned_rankShare {ids : List String} {id : String} {sum : Float32}
    (h : IsUnsigned sum) : IsUnsigned (rankShare ids id sum) := by
  unfold rankShare
  split
  · exact h.add ((isUnsigned_ofNat 60).add (isUnsigned_ofNat _)).one_div
  · exact h

theorem isUnsigned_fusedScore (first second : List String) (id : String) :
    IsUnsigned (fusedScore first second id) :=
  isUnsigned_rankShare (isUnsigned_rankShare (isUnsigned_ofNat 0))

theorem isNaN_fusedScore (first second : List String) (id : String) :
    (fusedScore first second id).isNaN = false :=
  (isUnsigned_fusedScore first second id).isNaN

/-! ### Candidates -/

/-- The filter of a query, if it has one, lets a record pass. -/
def QueryOptions.passes (o : QueryOptions) (r : Record) : Prop :=
  ∀ f, o.filter = some f → f.matches_ r.payload.metadata = true

namespace Collection

variable {c d : Collection} {r : Record} {v : HybridVector} {o : QueryOptions}

/-- The records that the filter of a query lets pass, by ascending identifier. -/
def candidates (c : Collection) (o : QueryOptions) : List Record := c.filtered (o.filter.getD {})

theorem mem_candidates : r ∈ c.candidates o ↔ r ∈ c ∧ o.passes r := by
  rw [candidates, filtered, List.mem_filter, mem_def, QueryOptions.passes]
  cases o.filter with
  | none => simp [Filter.matches_, Filter.agrees]
  | some f => simp

theorem nodup_ids_candidates (c : Collection) (o : QueryOptions) :
    ((c.candidates o).map Record.id).Nodup := c.ids_nodup _

/-- The candidates do not depend on records that the filter does not let pass. -/
theorem candidates_congr (h : ∀ r, o.passes r → (r ∈ d ↔ r ∈ c)) :
    d.candidates o = c.candidates o := by
  have hnodup : ∀ e : Collection, (e.candidates o).Nodup := fun e => e.nodup_values.filter _
  have hperm : (d.candidates o).Perm (c.candidates o) := by
    refine (List.perm_ext_iff_of_nodup (hnodup d) (hnodup c)).2 fun r => ?_
    rw [mem_candidates, mem_candidates]
    exact and_congr_left (h r)
  have hascending := fun e : Collection => List.pairwise_map.1 (e.ids_ascending (o.filter.getD {}))
  refine List.Perm.eq_of_pairwise ?_ (hascending d) (hascending c) hperm
  intro r s _ _ hrs hsr
  exact absurd (String.lt_trans hrs hsr) (String.lt_irrefl _)

theorem get?_of_mem_candidates (hr : r ∈ c.candidates o) : c.records.get? r.id = some r :=
  Catalog.get?_eq_some_iff.2 (mem_iff_entry.1 (mem_candidates.1 hr).1)

end Collection

section

variable {rs : List Record} {v : HybridVector} {o : QueryOptions}

/-- Records by the angles of their dense vectors. -/
def denseScores (rs : List Record) (v : HybridVector) : List (Scored Float32) :=
  rs.map fun r => (r.id, cosine v.dense r.vector.dense)

/-- Records with words of the query, by these. -/
def sparseScores (rs : List Record) (v : HybridVector) : List (Scored Float32) :=
  (rs.map fun r => (r.id, sparseDot UInt32.toFloat32 v.sparse r.vector.sparse)).filter
    fun s => s.2 > 0

theorem ids_denseScores (rs : List Record) (v : HybridVector) :
    (denseScores rs v).map Prod.fst = rs.map Record.id := by
  rw [denseScores, List.map_map]
  rfl

theorem ids_sparseScores_sublist (rs : List Record) (v : HybridVector) :
    ((sparseScores rs v).map Prod.fst).Sublist (rs.map Record.id) := by
  have hids : (rs.map fun r => (r.id, sparseDot UInt32.toFloat32 v.sparse r.vector.sparse)).map
      Prod.fst = rs.map Record.id := by
    rw [List.map_map]
    rfl
  exact hids ▸ List.filter_sublist.map Prod.fst

/-- The similarities of a record to a query are numbers. -/
def Comparable (v : HybridVector) (r : Record) : Prop :=
  (cosine v.dense r.vector.dense).isNaN = false ∧
    (sparseDot UInt32.toFloat32 v.sparse r.vector.sparse).isNaN = false

/-- The cosines of the records, with their identifiers, have an order. -/
def DenseOrdered (rs : List Record) (v : HybridVector) : Prop :=
  Orders (Scored.before RankScale.single.less) (denseScores rs v)

theorem denseOrdered_of_comparable (hrs : ∀ r ∈ rs, Comparable v r)
    (hids : (rs.map Record.id).Nodup) : DenseOrdered rs v := by
  refine weaklyOrdered_single.orders (fun a ha => ?_) (ids_denseScores rs v ▸ hids)
  obtain ⟨r, hr, rfl⟩ := List.mem_map.1 ha
  exact (hrs r hr).1

theorem denseRanking_gives (rs : List Record) (v : HybridVector) (limit : Nat) :
    Gives (DenseOrdered rs v) (Collection.denseRanking rs v limit)
      (Listed RankScale.single.less (DenseOrdered rs v) limit (denseScores rs v)) :=
  ranked_gives (fun h => h) limit

/-- Only numbers are above zero, so the products that are ranked have an order. -/
theorem exists_sparseRanking (hids : (rs.map Record.id).Nodup) (v : HybridVector) (limit : Nat) :
    ∃ ids, Collection.sparseRanking rs v limit = .ok ids ∧
      Listed RankScale.single.less True limit (sparseScores rs v) ids := by
  have horders : Orders (Scored.before RankScale.single.less) (sparseScores rs v) := by
    refine weaklyOrdered_single.orders (fun a ha => ?_)
      (hids.sublist (ids_sparseScores_sublist rs v))
    exact (isNaN_of_lt (of_decide_eq_true (List.mem_filter.1 ha).2)).2
  exact (ranked_gives (fun _ => horders) limit).exists_ok trivial

/-- What one of the two rankings gives to a query.  Twice the limit is cut at the greatest limit,
which only more records than that would show. -/
structure Fetched (o : QueryOptions) (scored : List (Scored Float32)) (ids : List String) :
    Prop where
  best : Best RankScale.single.less o.prefetchLimit scored ids
  twice : scored.length ≤ maxLimit → Best RankScale.single.less (2 * o.limit) scored ids

theorem Fetched.of_best {scored : List (Scored Float32)} {ids : List String}
    (h : Best RankScale.single.less o.prefetchLimit scored ids) : Fetched o scored ids :=
  ⟨h, fun hlength => h.of_min hlength⟩

end

/-! ### Hits -/

/-- The first of two scored identifiers has the higher score, or no lower one and the smaller
identifier. -/
def Precedes (a b : Scored Float32) : Prop := b.2 < a.2 ∨ (¬ a.2 < b.2 ∧ a.1 < b.1)

theorem before_single_iff {a b : Scored Float32} :
    Scored.before RankScale.single.less a b = true ↔ Precedes a b := by
  rw [before_eq_true_iff, Precedes]
  exact or_congr decide_eq_true_iff (and_congr_left' decide_eq_false_iff_not)

/-- What a query makes of the identifiers in two rankings of its candidates. -/
structure Answers (o : QueryOptions) (rs : List Record) (dense sparse : List String)
    (hits : List Hit) : Prop where
  ids_nodup : (hits.map Hit.id).Nodup
  found : ∀ h ∈ hits, ∃ r ∈ rs, r.id = h.id ∧
    h.payload = if o.includePayload then some r.payload else none
  scored : ∀ h ∈ hits, (h.id ∈ dense ∨ h.id ∈ sparse) ∧ h.score = fusedScore dense sparse h.id ∧
    o.scoreThreshold ≤ h.score
  sorted : hits.Pairwise fun g h => Precedes (g.id, g.score) (h.id, h.score)
  count : hits.length ≤ o.limit
  left_out : ∀ id, (id ∈ dense ∨ id ∈ sparse) → o.scoreThreshold ≤ fusedScore dense sparse id →
    id ∉ hits.map Hit.id → hits.length = o.limit ∧
      ∀ h ∈ hits, Precedes (h.id, h.score) (id, fusedScore dense sparse id)

/-- The scored identifiers that become hits. -/
def chosen (o : QueryOptions) (fused : List (Scored Float32)) : List (Scored Float32) :=
  (fused.filter fun s => s.2 ≥ o.scoreThreshold).take o.limit

section

variable {c : Collection} {o : QueryOptions} {dense sparse : List String}
  {fused : List (Scored Float32)} {a : Scored Float32}

theorem chosen_sublist (o : QueryOptions) (fused : List (Scored Float32)) :
    (chosen o fused).Sublist fused :=
  (List.take_sublist _ _).trans List.filter_sublist

theorem threshold_le_of_mem_chosen (ha : a ∈ chosen o fused) : o.scoreThreshold ≤ a.2 :=
  of_decide_eq_true (List.mem_filter.1 (List.mem_of_mem_take ha)).2

theorem hit_of_mem_candidates {r : Record} (hr : r ∈ c.candidates o) (hid : r.id = a.1) :
    c.hit o a = ⟨a.1, a.2, if o.includePayload then some r.payload else none⟩ := by
  rw [Collection.hit, ← hid, Collection.get?_of_mem_candidates hr, Option.map_some]

theorem exists_fuse_single (hdense : dense.Nodup) (hsparse : sparse.Nodup) :
    ∃ fused, fuse .single dense sparse = .ok fused ∧ Fused .single dense sparse fused :=
  weaklyOrdered_single.exists_fuse hdense hsparse fun id =>
    (score_single dense sparse id).symm ▸ isNaN_fusedScore dense sparse id

theorem Fused.mem_or_mem_of_mem_chosen (h : Fused .single dense sparse fused)
    (ha : a ∈ chosen o fused) : a.1 ∈ dense ∨ a.1 ∈ sparse :=
  ((h.mem_iff a).1 ((chosen_sublist o fused).subset ha)).1

theorem Fused.answers_chosen (h : Fused .single dense sparse fused)
    (hids : ∀ id, id ∈ dense ∨ id ∈ sparse → ∃ r ∈ c.candidates o, r.id = id) :
    Answers o (c.candidates o) dense sparse ((chosen o fused).map (c.hit o)) where
  ids_nodup := by
    rw [List.map_map]
    exact h.ids_nodup.sublist ((chosen_sublist o fused).map Prod.fst)
  found := by
    rintro _ hh
    obtain ⟨a, ha, rfl⟩ := List.mem_map.1 hh
    obtain ⟨r, hr, hid⟩ := hids a.1 (h.mem_or_mem_of_mem_chosen ha)
    exact ⟨r, hr, hid, by rw [hit_of_mem_candidates hr hid]⟩
  scored := by
    rintro _ hh
    obtain ⟨a, ha, rfl⟩ := List.mem_map.1 hh
    have hfused := (h.mem_iff a).1 ((chosen_sublist o fused).subset ha)
    exact ⟨hfused.1, hfused.2, threshold_le_of_mem_chosen ha⟩
  sorted := by
    rw [List.pairwise_map]
    exact (h.sorted.sublist (chosen_sublist o fused)).imp fun h => before_single_iff.1 h
  count := by
    rw [List.length_map]
    exact List.length_take_le _ _
  left_out id hid hscore hout := by
    have hmem : (id, fusedScore dense sparse id) ∈ fused := (h.mem_iff _).2 ⟨hid, rfl⟩
    have hnot : (id, fusedScore dense sparse id) ∉ chosen o fused := fun h =>
      hout (List.mem_map.2 ⟨_, List.mem_map_of_mem h, rfl⟩)
    obtain ⟨hlength, hbefore⟩ :=
      length_take_of_not_mem h.sorted hmem (decide_eq_true hscore) hnot
    refine ⟨(List.length_map _).trans hlength, fun h hh => ?_⟩
    obtain ⟨a, ha, rfl⟩ := List.mem_map.1 hh
    exact before_single_iff.1 (hbefore a ha)

end

/-- How a query comes to its hits. -/
structure Collected (c : Collection) (v : HybridVector) (o : QueryOptions)
    (dense sparse : List String) (fused : List (Scored Float32)) : Prop where
  dense_listed : Listed RankScale.single.less (DenseOrdered (c.candidates o) v) o.prefetchLimit
    (denseScores (c.candidates o) v) dense
  sparse_listed : Listed RankScale.single.less True o.prefetchLimit
    (sparseScores (c.candidates o) v) sparse
  fused_all : Fused .single dense sparse fused

namespace Collection

variable {c d : Collection} {v : HybridVector} {o : QueryOptions} {dense sparse : List String}
  {fused : List (Scored Float32)}

theorem exists_of_mem_listed {rs : List Record} {ordered other : Prop} {limit bound : Nat}
    {id : String} (hdense : Listed RankScale.single.less ordered limit (denseScores rs v) dense)
    (hsparse : Listed RankScale.single.less other bound (sparseScores rs v) sparse)
    (h : id ∈ dense ∨ id ∈ sparse) : ∃ r ∈ rs, r.id = id := by
  refine List.mem_map.1 ?_
  rcases h with h | h
  · exact ids_denseScores rs v ▸ hdense.mem_ids h
  · exact (ids_sparseScores_sublist rs v).subset (hsparse.mem_ids h)

theorem query_eq (c : Collection) (v : HybridVector) (o : QueryOptions) :
    c.query v o = do
      let dense ← denseRanking (c.candidates o) v o.prefetchLimit
      let sparse ← sparseRanking (c.candidates o) v o.prefetchLimit
      let fused ← fuse .single dense sparse
      return (chosen o fused).map (c.hit o) := rfl

/-- A query breaks off where sorting by the cosines does, and nowhere else.  Another collection with the
same candidates comes to the same. -/
theorem query_cases (c : Collection) (v : HybridVector) (o : QueryOptions) :
    (∃ f, denseRanking (c.candidates o) v o.prefetchLimit = .error f ∧
      ∀ d : Collection, d.candidates o = c.candidates o → d.query v o = .error f) ∨
    ∃ dense sparse fused, Collected c v o dense sparse fused ∧
      ∀ d : Collection, d.candidates o = c.candidates o →
        d.query v o = .ok ((chosen o fused).map (d.hit o)) := by
  have hgives := denseRanking_gives (c.candidates o) v o.prefetchLimit
  have hids := c.nodup_ids_candidates o
  cases hdense : denseRanking (c.candidates o) v o.prefetchLimit with
  | error f =>
    refine .inl ⟨f, rfl, fun d hsame => ?_⟩
    rw [query_eq, hsame, hdense]
    rfl
  | ok dense =>
    rw [hdense] at hgives
    obtain ⟨sparse, hsparse, hlisted⟩ := exists_sparseRanking hids v o.prefetchLimit
    obtain ⟨fused, hfuse, hfused⟩ := exists_fuse_single
      (hgives.nodup (ids_denseScores (c.candidates o) v ▸ hids))
      (hlisted.nodup (hids.sublist (ids_sparseScores_sublist _ v)))
    refine .inr ⟨dense, sparse, fused, ⟨hgives, hlisted, hfused⟩, fun d hsame => ?_⟩
    rw [query_eq, hsame, hdense, hsparse]
    simp only [bind, Except.bind, hfuse, pure, Except.pure]

/-- Only records that the filter lets pass make a difference to a query. -/
theorem query_eq_of_same_passing (h : ∀ r, o.passes r → (r ∈ d ↔ r ∈ c)) :
    d.query v o = c.query v o := by
  have hsame := candidates_congr h
  rcases c.query_cases v o with ⟨f, -, hquery⟩ | ⟨dense, sparse, fused, hcollected, hquery⟩
  · rw [hquery d hsame, hquery c rfl]
  · rw [hquery d hsame, hquery c rfl]
    refine congrArg Except.ok (List.map_congr_left fun a ha => ?_)
    obtain ⟨r, hr, hid⟩ := exists_of_mem_listed hcollected.dense_listed hcollected.sparse_listed
      (hcollected.fused_all.mem_or_mem_of_mem_chosen ha)
    rw [hit_of_mem_candidates hr hid, hit_of_mem_candidates (hsame ▸ hr) hid]

end Collection

namespace Memory

variable {m : Memory} {name : String} {c : Collection}

theorem perform_query (hc : m.collections.get? name = some c) (v : HybridVector)
    (o : QueryOptions) : m.perform (.query name v o) = (.ok (c.query v o), m) := by
  rw [perform, query, collection_eq hc]
  rfl

/-- A query of a collection that is there gives the best of the records that the filter lets pass,
if all their similarities are numbers, and gives the same wherever these records are the same. -/
theorem perform_query_ranks_candidates (hc : m.collections.get? name = some c) (v : HybridVector)
    (o : QueryOptions) :
    ∃ answer, m.perform (.query name v o) = (.ok answer, m) ∧
      ((∀ r ∈ c, o.passes r → Comparable v r) → ∃ hits rs dense sparse, answer = .ok hits ∧
        (∀ r, r ∈ rs ↔ r ∈ c ∧ o.passes r) ∧ (rs.map Record.id).Nodup ∧
        Fetched o (denseScores rs v) dense ∧ Fetched o (sparseScores rs v) sparse ∧
        Answers o rs dense sparse hits) ∧
      ∀ (n : Memory) (other : String) (d : Collection), n.collections.get? other = some d →
        (∀ r, o.passes r → (r ∈ d ↔ r ∈ c)) → n.perform (.query other v o) = (.ok answer, n) := by
  refine ⟨c.query v o, perform_query hc v o, fun hnumbers => ?_, fun n other d hd hsame => ?_⟩
  · have hids := c.nodup_ids_candidates o
    have hrs : ∀ r ∈ c.candidates o, Comparable v r := fun r hr =>
      hnumbers r (Collection.mem_candidates.1 hr).1 (Collection.mem_candidates.1 hr).2
    have hordered := denseOrdered_of_comparable hrs hids
    rcases c.query_cases v o with ⟨f, hdense, -⟩ | ⟨dense, sparse, fused, hcollected, hquery⟩
    · obtain ⟨dense, hok, -⟩ :=
        (denseRanking_gives (c.candidates o) v o.prefetchLimit).exists_ok hordered
      rw [hdense] at hok
      cases hok
    · exact ⟨_, c.candidates o, dense, sparse, hquery c rfl, fun r => Collection.mem_candidates,
        hids, .of_best (hcollected.dense_listed.best hordered),
        .of_best (hcollected.sparse_listed.best trivial),
        hcollected.fused_all.answers_chosen fun id =>
          Collection.exists_of_mem_listed hcollected.dense_listed hcollected.sparse_listed⟩
  · rw [perform_query hd, Collection.query_eq_of_same_passing hsame]

/-- Two records of one file and one of another; by its dense vector the first record of the file is
the nearest, by its words the second one. -/
def twoFiles : Collection :=
  Collection.empty.insertAll [
    ⟨"a", ⟨#[1, 0], .empty⟩, "x", ⟨"a.js", "a.js", "js", 4, 0, 1, 1⟩⟩,
    ⟨"b", ⟨#[0, 1], ⟨#[7], #[2]⟩⟩, "y", ⟨"a.js", "a.js", "js", 4, 0, 2, 2⟩⟩,
    ⟨"c", ⟨#[1, 0], ⟨#[7], #[3]⟩⟩, "z", ⟨"b.js", "b.js", "js", 4, 0, 1, 1⟩⟩]

def bothKinds : HybridVector := ⟨#[1, 0], ⟨#[7], #[1]⟩⟩

def bestOfFile : QueryOptions := { limit := 1, filter := some (.forFile "a.js") }

theorem perform_query_ranks_candidates_twoFiles :
    (∀ r ∈ twoFiles, bestOfFile.passes r → Comparable bothKinds r) ∧ ∃ hits,
      hits.map Hit.id = ["b"] ∧
      ((empty 2).set "code" twoFiles).perform (.query "code" bothKinds bestOfFile) =
        (.ok (.ok hits), (empty 2).set "code" twoFiles) ∧
      (∃ rs dense sparse, (∀ r, r ∈ rs ↔ r ∈ twoFiles ∧ bestOfFile.passes r) ∧
        (rs.map Record.id).Nodup ∧ Fetched bestOfFile (denseScores rs bothKinds) dense ∧
        Fetched bestOfFile (sparseScores rs bothKinds) sparse ∧
        Answers bestOfFile rs dense sparse hits) ∧
      ((empty 2).set "code" (twoFiles.withoutFile "b.js")).perform
          (.query "code" bothKinds bestOfFile) =
        (.ok (.ok hits), (empty 2).set "code" (twoFiles.withoutFile "b.js")) := by
  have hnumbers : ∀ r ∈ twoFiles.records.values,
      (cosine bothKinds.dense r.vector.dense).isNaN = false ∧
        (sparseDot UInt32.toFloat32 bothKinds.sparse r.vector.sparse).isNaN = false := by
    decide +kernel
  obtain ⟨answer, hperform, hbest, hsame⟩ :=
    perform_query_ranks_candidates (m := (empty 2).set "code" twoFiles) get?_set_self bothKinds
      bestOfFile
  obtain ⟨hits, rs, dense, sparse, rfl, hfound⟩ := hbest fun r hr _ => hnumbers r hr
  have hhits : (twoFiles.query bothKinds bestOfFile).map (·.map Hit.id) = .ok (hits.map Hit.id) := by
    have hanswer := congrArg Prod.fst ((perform_query get?_set_self _ _).symm.trans hperform)
    rw [Except.ok.inj hanswer]
    rfl
  have hids : (twoFiles.query bothKinds bestOfFile).map (·.map Hit.id) = .ok ["b"] := by
    decide +kernel
  refine ⟨fun r hr _ => hnumbers r hr, hits, Except.ok.inj (hhits.symm.trans hids), hperform,
    ⟨rs, dense, sparse, hfound⟩, hsame _ _ _ get?_set_self ?_⟩
  intro r hpasses
  have hpath : "a.js" = r.payload.metadata.filePath := by
    simpa [Filter.matches_, Filter.agrees, Filter.forFile] using hpasses _ rfl
  rw [Collection.mem_withoutFile, ← hpath]
  exact and_iff_left (by decide)

end Memory

end CodeIndex.Store
