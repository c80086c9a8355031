import CodeIndex.Sparse.Vector
import Mathlib

/-! Counting hashes.  While hashes are counted, the vector holds those that have occurred, in the order
of their first occurrences, each with the number of its occurrences, and the places tell where each of
them stands.  So the vector of a text is the bag of its words, up to words with one hash. -/

namespace CodeIndex

/-! ### First occurrences -/

section

variable {α : Type} [DecidableEq α] {as bs : List α} {a : α}

theorem eraseDups_concat_of_mem (h : a ∈ as) : (as ++ [a]).eraseDups = as.eraseDups := by
  simp [List.eraseDups_append, List.removeAll, h]

theorem eraseDups_concat_of_not_mem (h : a ∉ as) :
    (as ++ [a]).eraseDups = as.eraseDups ++ [a] := by
  simp [List.eraseDups_append, List.removeAll, h, List.eraseDups_cons]

/-- What is kept of a list stands in the order of the first occurrences. -/
theorem pairwise_eraseDups (as : List α) :
    as.eraseDups.Pairwise fun a b => as.idxOf a < as.idxOf b := by
  induction as using List.reverseRecOn with
  | nil => exact List.Pairwise.nil
  | append_singleton as a ih =>
    have hold : as.eraseDups.Pairwise fun b c => (as ++ [a]).idxOf b < (as ++ [a]).idxOf c := by
      refine ih.imp_of_mem fun hb hc hlt => ?_
      rwa [List.idxOf_append_of_mem (List.mem_eraseDups.1 hb),
        List.idxOf_append_of_mem (List.mem_eraseDups.1 hc)]
    by_cases ha : a ∈ as
    · rwa [eraseDups_concat_of_mem ha]
    · rw [eraseDups_concat_of_not_mem ha]
      refine List.pairwise_append.2 ⟨hold, List.pairwise_singleton _ _, fun b hb c hc => ?_⟩
      obtain rfl := List.mem_singleton.1 hc
      have hb' := List.mem_eraseDups.1 hb
      rw [List.idxOf_append_of_mem hb', List.idxOf_append_of_notMem ha]
      have := List.idxOf_lt_length_of_mem hb'
      omega

theorem nodup_eraseDups (as : List α) : as.eraseDups.Nodup :=
  (pairwise_eraseDups as).imp fun hlt hsame => absurd (hsame ▸ hlt) (lt_irrefl _)

omit [DecidableEq α] in
theorem getElem?_concat_eq_some_iff {i : ℕ} {b : α} :
    (as ++ [a])[i]? = some b ↔ as[i]? = some b ∨ (i = as.length ∧ a = b) := by
  rcases lt_trichotomy i as.length with hlt | rfl | hlt
  · simp [List.getElem?_append_left hlt, hlt.ne]
  · simp
  · simp [List.getElem?_eq_none, hlt.ne', hlt.le, Nat.succ_le_of_lt hlt]

theorem perm_dedup_eraseDups (as : List α) : as.eraseDups.Perm as.dedup :=
  (List.perm_ext_iff_of_nodup (nodup_eraseDups as) as.nodup_dedup).2 fun a => by
    rw [List.mem_eraseDups, List.mem_dedup]

end

/-! ### The tally -/

/-- A way to write natural numbers as counts, which counts up from one. -/
structure CountsUp {Count : Type} [Add Count] [OfNat Count 1] (f : ℕ → Count) : Prop where
  one : f 1 = 1
  succ : ∀ n, f (n + 1) = f n + 1

theorem countsUp_id : CountsUp (id : ℕ → ℕ) := ⟨rfl, fun _ => rfl⟩

theorem countsUp_ofNat : CountsUp UInt32.ofNat := ⟨rfl, fun n => UInt32.ofNat_add n 1⟩

section

variable {Count : Type} {f : ℕ → Count} {hashes before : List UInt32} {t : Tally Count}
  {hash : UInt32}

/-- What a tally is after hashes were counted. -/
structure Tally.Holds (f : ℕ → Count) (hashes : List UInt32) (t : Tally Count) : Prop where
  places : ∀ (hash : UInt32) (i : ℕ), t.places[hash]? = some i ↔ hashes.eraseDups[i]? = some hash
  indices : t.vector.indices.toList = hashes.eraseDups
  values : t.vector.values.toList = hashes.eraseDups.map fun hash => f (hashes.count hash)

namespace Tally

theorem holds_empty (f : ℕ → Count) : (empty : Tally Count).Holds f [] :=
  ⟨fun hash i => by simp [empty], rfl, rfl⟩

theorem Holds.place_lt (h : t.Holds f hashes) {i : ℕ} (hi : t.places[hash]? = some i) :
    i < t.vector.values.size := by
  obtain ⟨hlt, -⟩ := List.getElem?_eq_some_iff.1 ((h.places hash i).1 hi)
  rwa [← Array.length_toList, h.values, List.length_map]

variable [Add Count] [OfNat Count 1]

/-- A hash that has occurred is counted at its place. -/
theorem Holds.add_known (hf : CountsUp f) (h : t.Holds f hashes) (hmem : hash ∈ hashes) :
    (t.add hash).Holds f (hashes ++ [hash]) := by
  obtain ⟨i, hi⟩ := List.mem_iff_getElem?.1 (List.mem_eraseDups.2 hmem)
  have hadd : t.add hash = ⟨t.places, ⟨t.vector.indices, t.vector.values.modify i (· + 1)⟩⟩ := by
    rw [add, (h.places hash i).2 hi]
  rw [hadd]
  refine ⟨fun g j => ?_, ?_, ?_⟩
  · rw [eraseDups_concat_of_mem hmem, h.places]
  · rw [eraseDups_concat_of_mem hmem, h.indices]
  · rw [eraseDups_concat_of_mem hmem, Array.toList_modify, h.values]
    refine List.ext_getElem? fun j => ?_
    rw [List.getElem?_modify, List.getElem?_map, List.getElem?_map]
    cases hj : hashes.eraseDups[j]? with
    | none => rfl
    | some g =>
      by_cases hij : i = j
      · obtain rfl : hash = g := Option.some.inj (hi.symm.trans (hij ▸ hj))
        simp [hij, hf.succ]
      · have hne : hash ≠ g := by
          rintro rfl
          obtain ⟨hlt, -⟩ := List.getElem?_eq_some_iff.1 hi
          exact hij ((List.getElem?_inj hlt (nodup_eraseDups hashes)).1 (hi.trans hj.symm))
        simp [hij, List.count_singleton, hne]

/-- A hash that has not occurred goes to the end. -/
theorem Holds.add_new (hf : CountsUp f) (h : t.Holds f hashes) (hmem : hash ∉ hashes) :
    (t.add hash).Holds f (hashes ++ [hash]) := by
  have hnone : t.places[hash]? = none := by
    refine Option.eq_none_iff_forall_not_mem.2 fun i hi => hmem ?_
    exact List.mem_eraseDups.1 (List.mem_of_getElem? ((h.places hash i).1 hi))
  have hadd : t.add hash = ⟨t.places.insert hash t.vector.indices.size,
      ⟨t.vector.indices.push hash, t.vector.values.push 1⟩⟩ := by
    rw [add, hnone]
  have hsize : t.vector.indices.size = hashes.eraseDups.length := by
    rw [← Array.length_toList, h.indices]
  rw [hadd]
  refine ⟨fun g j => ?_, ?_, ?_⟩
  · rw [eraseDups_concat_of_not_mem hmem, getElem?_concat_eq_some_iff, ← h.places,
      Std.HashMap.getElem?_insert, hsize]
    by_cases hg : hash = g
    · subst hg
      simp [hnone, eq_comm]
    · simp [hg]
  · rw [eraseDups_concat_of_not_mem hmem, Array.toList_push, h.indices]
  · rw [eraseDups_concat_of_not_mem hmem, Array.toList_push, h.values, List.map_append,
      List.map_singleton, List.count_append, List.count_eq_zero_of_not_mem hmem,
      List.count_singleton_self, Nat.zero_add, hf.one]
    refine congrArg (· ++ [1]) (List.map_congr_left fun g hg => ?_)
    have hne : hash ≠ g := fun hsame => hmem (hsame ▸ List.mem_eraseDups.1 hg)
    simp [hne]

theorem Holds.add (hf : CountsUp f) (h : t.Holds f hashes) (hash : UInt32) :
    (t.add hash).Holds f (hashes ++ [hash]) := by
  by_cases hmem : hash ∈ hashes
  · exact h.add_known hf hmem
  · exact h.add_new hf hmem

theorem Holds.foldl (hf : CountsUp f) (h : t.Holds f before) (hashes : List UInt32) :
    (hashes.foldl Tally.add t).Holds f (before ++ hashes) := by
  induction hashes generalizing before t with
  | nil => rwa [List.append_nil]
  | cons hash rest ih =>
    rw [List.append_cons]
    exact ih (h.add hf hash)

theorem holds_ofHashes (hf : CountsUp f) (hashes : List UInt32) : (ofHashes hashes).Holds f hashes :=
  (holds_empty f).foldl hf hashes

end Tally

namespace SparseVector

variable [Add Count] [OfNat Count 1]

theorem indices_ofHashes (hf : CountsUp f) (hashes : List UInt32) :
    (ofHashes hashes : SparseVector Count).indices.toList = hashes.eraseDups :=
  (Tally.holds_ofHashes hf hashes).indices

theorem values_ofHashes (hf : CountsUp f) (hashes : List UInt32) :
    (ofHashes hashes : SparseVector Count).values.toList =
      hashes.eraseDups.map fun hash => f (hashes.count hash) :=
  (Tally.holds_ofHashes hf hashes).values

theorem entries_ofHashes (hf : CountsUp f) (hashes : List UInt32) :
    (ofHashes hashes : SparseVector Count).entries =
      hashes.eraseDups.map fun hash => (hash, f (hashes.count hash)) := by
  rw [entries, indices_ofHashes hf, values_ofHashes hf]
  have hzip := List.zip_map' (l := hashes.eraseDups) (f := id)
    (g := fun hash => f (hashes.count hash))
  simpa using hzip

theorem count?_ofHashes (hf : CountsUp f) (hashes : List UInt32) (hash : UInt32) :
    (ofHashes hashes : SparseVector Count).count? hash =
      if hash ∈ hashes then some (f (hashes.count hash)) else none := by
  rw [count?, ← Array.idxOf?_toList, indices_ofHashes hf]
  split
  · next hmem =>
    obtain ⟨i, hi⟩ := Option.isSome_iff_exists.1 (List.isSome_idxOf?.2 (List.mem_eraseDups.2 hmem))
    obtain ⟨hlt, hat, -⟩ := List.idxOf?_eq_some_iff.1 hi
    rw [hi, Option.bind_some, ← Array.getElem?_toList, values_ofHashes hf, List.getElem?_map,
      List.getElem?_eq_getElem hlt, hat, Option.map_some]
  · next hmem =>
    rw [List.idxOf?_eq_none_iff.2 (mt List.mem_eraseDups.1 hmem), Option.bind_none]

end SparseVector

end

/-! ### Texts -/

/-- What the counts of a list of hashes are. -/
structure SparseVector.Counts (hashes : List UInt32) (v : SparseVector) : Prop where
  sizes : v.indices.size = v.values.size
  distinct : v.indices.toList.Nodup
  mem : ∀ hash, hash ∈ v.indices ↔ hash ∈ hashes
  /-- They stand in the order of their first occurrences. -/
  ordered : v.indices.toList.Pairwise fun g h => hashes.idxOf g < hashes.idxOf h
  counted : ∀ e ∈ v.entries, 1 ≤ e.2.toNat ∧ e.2.toNat = hashes.count e.1
  total : (v.values.toList.map UInt32.toNat).sum = hashes.length

/-- No hash occurs too often for a count of 32 bits. -/
def CountsFit (hashes : List UInt32) : Prop := ∀ hash, hashes.count hash < 2 ^ 32

section

variable {hashes : List UInt32}

theorem countsFit_tokenHashes {text : List Char} (hbound : (tokens text).length < 2 ^ 32) :
    CountsFit (tokenHashes text) := by
  intro hash
  have hle : (tokenHashes text).count hash ≤ (tokenHashes text).length := List.count_le_length
  rw [tokenHashes, List.length_map] at hle
  exact lt_of_le_of_lt hle hbound

theorem CountsFit.toNat_count (h : CountsFit hashes) (hash : UInt32) :
    (UInt32.ofNat (hashes.count hash)).toNat = hashes.count hash :=
  UInt32.toNat_ofNat_of_lt' (h hash)

namespace SparseVector

theorem counts_ofHashes (hfit : CountsFit hashes) :
    (ofHashes hashes : SparseVector).Counts hashes where
  sizes := by
    rw [← Array.length_toList, ← Array.length_toList, indices_ofHashes countsUp_ofNat,
      values_ofHashes countsUp_ofNat, List.length_map]
  distinct := by
    rw [indices_ofHashes countsUp_ofNat]
    exact nodup_eraseDups hashes
  mem hash := by
    rw [← Array.mem_toList_iff, indices_ofHashes countsUp_ofNat, List.mem_eraseDups]
  ordered := by
    rw [indices_ofHashes countsUp_ofNat]
    exact pairwise_eraseDups hashes
  counted := by
    rw [entries_ofHashes countsUp_ofNat]
    intro e he
    obtain ⟨hash, hhash, rfl⟩ := List.mem_map.1 he
    rw [hfit.toNat_count]
    exact ⟨List.count_pos_iff.2 (List.mem_eraseDups.1 hhash), rfl⟩
  total := by
    rw [values_ofHashes countsUp_ofNat, List.map_map]
    calc (hashes.eraseDups.map _).sum
        = (hashes.eraseDups.map fun hash => hashes.count hash).sum :=
          congrArg List.sum (List.map_congr_left fun hash _ => hfit.toNat_count hash)
      _ = (hashes.dedup.map fun hash => hashes.count hash).sum :=
          ((perm_dedup_eraseDups hashes).map _).sum_eq
      _ = hashes.length := List.sum_map_count_dedup_eq_length hashes

theorem count?_eq_some_iff (hfit : CountsFit hashes) {hash n : UInt32} :
    (ofHashes hashes : SparseVector).count? hash = some n ↔
      1 ≤ n.toNat ∧ n.toNat = hashes.count hash := by
  rw [count?_ofHashes countsUp_ofNat]
  split
  · next hmem =>
    have hpos := List.count_pos_iff.2 hmem
    rw [Option.some.injEq, ← UInt32.toNat_inj, hfit.toNat_count]
    omega
  · next hmem =>
    rw [List.count_eq_zero_of_not_mem hmem]
    simp
    omega

/-- The vector of a text counts the words of the lower-cased text by their hashes.  A word can be looked
up exactly if a word with its hash occurs, and neither the counting nor a look-up ever misses a count at
a place where it expects one. -/
theorem ofText_counts_tokens (text : String) (hbound : (tokens text.toList).length < 2 ^ 32) :
    (ofText text).Counts (tokenHashes text.toList) ∧
    (∀ (token : String) (n : UInt32), (ofText text).countOf token.toList = some n ↔
      1 ≤ n.toNat ∧
        n.toNat = (tokenHashes text.toList).count (tokenHash (Text.lowercase token.toList))) ∧
    (∀ hash i, (ofText text).indices.idxOf? hash = some i → i < (ofText text).values.size) ∧
    ∀ (done : ℕ) (t : Tally), t = Tally.ofHashes ((tokenHashes text.toList).take done) →
      ∀ (hash : UInt32) (i : ℕ), t.places[hash]? = some i → i < t.vector.values.size := by
  have hfit := countsFit_tokenHashes hbound
  have hcounts := counts_ofHashes hfit
  refine ⟨hcounts, fun token n => count?_eq_some_iff hfit, fun hash i hi => ?_, ?_⟩
  · obtain ⟨hlt, -⟩ := List.idxOf?_eq_some_iff.1 (Array.idxOf?_toList.trans hi)
    exact hcounts.sizes ▸ hlt
  · rintro done t rfl hash i hi
    exact (Tally.holds_ofHashes countsUp_ofNat _).place_lt hi

/-- Three spellings of a word are one word. -/
theorem ofText_counts_tokens_spellings :
    (tokens "Foo FOO foo".toList).length < 2 ^ 32 ∧
      (ofText "Foo FOO foo").countOf "fOO".toList = some 3 ∧
      ((ofText "Foo FOO foo").values.toList.map UInt32.toNat).sum = 3 := by
  have htokens : tokens "Foo FOO foo".toList = ["foo".toList, "foo".toList, "foo".toList] := by
    decide +kernel
  have hword : Text.lowercase "fOO".toList = "foo".toList := by decide +kernel
  have hbound : (tokens "Foo FOO foo".toList).length < 2 ^ 32 := by rw [htokens]; decide
  have hhashes : tokenHashes "Foo FOO foo".toList = List.replicate 3 (tokenHash "foo".toList) := by
    rw [tokenHashes, htokens]
    rfl
  obtain ⟨hcounts, hlookup, -⟩ := ofText_counts_tokens "Foo FOO foo" hbound
  refine ⟨hbound, (hlookup "fOO" 3).2 ?_, ?_⟩
  · rw [hword, hhashes, List.count_replicate_self]
    decide
  · rw [hcounts.total, hhashes, List.length_replicate]

end SparseVector

end

end CodeIndex
