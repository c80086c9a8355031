import CodeIndex.Index.Reconcile
import CodeIndex.Proofs.Chunk.Coalescing
import CodeIndex.Proofs.Sparse.Counting
import CodeIndex.Proofs.Text.Lowercase

/-! Joining texts with line feeds.  No word and no letter reaches across a line feed, so the words of the
joined text are those of its parts, one part after the other, and the vectors of the parts add up to the
vector of the whole. -/

namespace CodeIndex

/-! ### First occurrences in parts -/

section

variable {α : Type} [DecidableEq α]

theorem eraseDups_filter (p : α → Bool) (as : List α) :
    (as.filter p).eraseDups = as.eraseDups.filter p := by
  induction as using List.reverseRecOn with
  | nil => rfl
  | append_singleton as a ih =>
    rw [List.filter_append, List.filter_singleton]
    by_cases hmem : a ∈ as
    · rw [eraseDups_concat_of_mem hmem, ← ih]
      cases hp : p a with
      | true => rw [cond_true, eraseDups_concat_of_mem (List.mem_filter.2 ⟨hmem, hp⟩)]
      | false => rw [cond_false, List.append_nil]
    · rw [eraseDups_concat_of_not_mem hmem, List.filter_append, List.filter_singleton, ← ih]
      cases hp : p a with
      | true =>
        exact eraseDups_concat_of_not_mem fun h => hmem (List.mem_filter.1 h).1
      | false => rw [cond_false, List.append_nil, List.append_nil]

/-- Of a second list those are kept that are not in the first. -/
theorem eraseDups_append_eq (as bs : List α) :
    (as ++ bs).eraseDups = as.eraseDups ++ bs.eraseDups.filter (· ∉ as) := by
  rw [List.eraseDups_append, List.removeAll, eraseDups_filter]
  simp

theorem eraseDups_eraseDups (as : List α) : as.eraseDups.eraseDups = as.eraseDups := by
  induction as using List.reverseRecOn with
  | nil => rfl
  | append_singleton as a ih =>
    by_cases hmem : a ∈ as
    · rw [eraseDups_concat_of_mem hmem, ih]
    · rw [eraseDups_concat_of_not_mem hmem,
        eraseDups_concat_of_not_mem (mt List.mem_eraseDups.1 hmem), ih]

theorem eraseDups_flatMap_eraseDups {β : Type} (f : β → List α) (bs : List β) :
    (bs.flatMap fun b => (f b).eraseDups).eraseDups = (bs.flatMap f).eraseDups := by
  induction bs with
  | nil => rfl
  | cons b rest ih =>
    rw [List.flatMap_cons, List.flatMap_cons, eraseDups_append_eq, eraseDups_append_eq, ih,
      eraseDups_eraseDups]
    simp only [List.mem_eraseDups]

end

/-! ### The words of joined texts -/

theorem tokenHashes_append_newline (cs ds : List Char) :
    tokenHashes (cs ++ '\n' :: ds) = tokenHashes cs ++ tokenHashes ds := by
  rw [tokenHashes, tokens, Text.lowercase_append_newline, Text.words,
    Text.runs_append_outside Text.isWord_newline, List.map_append]
  rfl

theorem tokenHashes_joinLines (lines : List (List Char)) :
    tokenHashes (Text.joinLines lines) = lines.flatMap tokenHashes := by
  induction lines with
  | nil => decide +kernel
  | cons line rest ih =>
    cases rest with
    | nil => rw [Text.joinLines_singleton, List.flatMap_singleton]
    | cons next rest =>
      rw [Text.joinLines_cons, tokenHashes_append_newline, ih]
      exact List.flatMap_cons.symm

namespace SparseVector

/-- How often a hash was counted; what is absent counts 0. -/
def times (v : SparseVector) (hash : UInt32) : ℕ := ((v.count? hash).map UInt32.toNat).getD 0

theorem times_ofHashes {hashes : List UInt32} (hfit : CountsFit hashes) (hash : UInt32) :
    (ofHashes hashes : SparseVector).times hash = hashes.count hash := by
  rw [times, count?_ofHashes countsUp_ofNat]
  split
  · exact hfit.toNat_count hash
  · next hmem => exact (List.count_eq_zero_of_not_mem hmem).symm

/-- A vector is the sum of others: the counts are added up, and the hashes stand in the order in which
they first occur in these. -/
structure SumOf (parts : List SparseVector) (v : SparseVector) : Prop where
  times : ∀ hash, v.times hash = (parts.map fun part => part.times hash).sum
  indices : v.indices.toList = (parts.flatMap fun part => part.indices.toList).eraseDups

theorem sumOf_flatMap {α : Type} (f : α → List UInt32) (as : List α)
    (hfit : CountsFit (as.flatMap f)) :
    (ofHashes (as.flatMap f) : SparseVector).SumOf (as.map fun a => ofHashes (f a)) where
  times hash := by
    have hpart : ∀ a ∈ as, CountsFit (f a) := fun a ha g =>
      lt_of_le_of_lt ((List.sublist_flatten_of_mem (List.mem_map_of_mem ha)).count_le g) (hfit g)
    rw [times_ofHashes hfit, List.count_flatMap, List.map_map]
    exact congrArg List.sum (List.map_congr_left fun a ha => (times_ofHashes (hpart a ha) hash).symm)
  indices := by
    rw [indices_ofHashes countsUp_ofNat, List.flatMap_map, ← eraseDups_flatMap_eraseDups]
    simp only [indices_ofHashes countsUp_ofNat]

theorem times_ofText {text : String} (hbound : (tokens text.toList).length < 2 ^ 32)
    (hash : UInt32) : (ofText text).times hash = (tokenHashes text.toList).count hash :=
  times_ofHashes (countsFit_tokenHashes hbound) hash

theorem indices_ofText (text : String) :
    (ofText text).indices.toList = (tokenHashes text.toList).eraseDups :=
  indices_ofHashes countsUp_ofNat _

/-- The vector of two texts on lines of their own is the sum of their vectors, and so the vector of a
merged fragment is the sum of the vectors of the fragments that were merged. -/
theorem ofText_sums_joined :
    (∀ x y : String, (tokens x.toList).length + (tokens y.toList).length < 2 ^ 32 →
      (∀ hash, (ofText (x ++ "\n" ++ y)).times hash =
        (ofText x).times hash + (ofText y).times hash) ∧
      (ofText (x ++ "\n" ++ y)).indices.toList = (ofText x).indices.toList ++
        (ofText y).indices.toList.filter (· ∉ (ofText x).indices.toList)) ∧
    ∀ (o : Chunk.Options) (fs : List Chunk.Fragment),
      (Chunk.sizeBound ≤ o.maxSize * 6 ∧ Chunk.merge o fs = .error .overflow) ∨
      ∃ runs : List Chunk.Run, Chunk.merge o fs = .ok (runs.map Chunk.Run.joined) ∧
        runs.flatMap Chunk.Run.fragments = fs ∧
        ∀ r ∈ runs, (tokens r.joined.content).length < 2 ^ 32 →
          (ofText (Index.fragmentText r.joined)).SumOf
            (r.fragments.map fun f => ofText (Index.fragmentText f)) := by
  refine ⟨fun x y hbound => ?_, fun o fs => ?_⟩
  · have hjoined : tokenHashes (x ++ "\n" ++ y).toList =
        tokenHashes x.toList ++ tokenHashes y.toList := by
      rw [String.toList_append, String.toList_append, List.append_assoc]
      exact tokenHashes_append_newline x.toList y.toList
    have hlength : (tokens (x ++ "\n" ++ y).toList).length < 2 ^ 32 := by
      have := congrArg List.length hjoined
      simp only [tokenHashes, List.length_append, List.length_map] at this
      omega
    refine ⟨fun hash => ?_, ?_⟩
    · rw [times_ofText hlength, times_ofText (by omega), times_ofText (by omega), hjoined,
        List.count_append]
    · simp only [indices_ofText, hjoined, eraseDups_append_eq, List.mem_eraseDups]
  · by_cases hover : Chunk.sizeBound ≤ o.maxSize * 6
    · exact .inl ⟨hover, Chunk.merge_of_le hover fs⟩
    obtain ⟨runs, hmerge, hfragments, -⟩ := Chunk.mergeBelow_eq_runs (o.maxSize * 6 / 5) fs
    have hmerged := Chunk.merge_of_lt (Nat.not_le.1 hover) fs
    refine .inr ⟨runs, hmerge ▸ hmerged, hfragments, fun r _ hbound => ?_⟩
    have hjoined : tokenHashes (Index.fragmentText r.joined).toList =
        r.fragments.flatMap fun f => tokenHashes (Index.fragmentText f).toList := by
      simp only [Index.fragmentText, String.toList_ofList]
      rw [r.content_joined, tokenHashes_joinLines, List.flatMap_map]
    have hfit : CountsFit (tokenHashes (Index.fragmentText r.joined).toList) :=
      countsFit_tokenHashes (by rwa [Index.fragmentText, String.toList_ofList])
    rw [hjoined] at hfit
    rw [ofText, hjoined]
    exact sumOf_flatMap _ _ hfit

/-- Of two lines the second repeats a word of the first and adds one of its own. -/
theorem ofText_sums_joined_foo :
    (tokens "foo".toList).length + (tokens "bar foo".toList).length < 2 ^ 32 ∧
      (ofText "foo\nbar foo").times (tokenHash "foo".toList) =
        (ofText "foo").times (tokenHash "foo".toList) +
          (ofText "bar foo").times (tokenHash "foo".toList) ∧
      (ofText "foo\nbar foo").indices.toList = (ofText "foo").indices.toList ++
        (ofText "bar foo").indices.toList.filter (· ∉ (ofText "foo").indices.toList) := by
  have hbound : (tokens "foo".toList).length + (tokens "bar foo".toList).length < 2 ^ 32 := by
    decide +kernel
  obtain ⟨htimes, hindices⟩ := ofText_sums_joined.1 "foo" "bar foo" hbound
  exact ⟨hbound, htimes _, hindices⟩

end SparseVector

end CodeIndex
