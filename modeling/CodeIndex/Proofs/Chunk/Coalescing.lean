import CodeIndex.Proofs.Chunk.Merging

/-! Merging as a whole.  It keeps the text, it joins as far as the limits allow, and what it has made
stays as it is when it is merged again. -/

namespace CodeIndex

namespace Text

theorem joinLines_cons_append (first next : List Char) (lines : List (List Char)) :
    joinLines ((first ++ '\n' :: next) :: lines) = joinLines (first :: next :: lines) := by
  cases lines with
  | nil => rw [joinLines_singleton, joinLines_cons, joinLines_singleton]
  | cons third rest =>
    rw [joinLines_cons, joinLines_cons, joinLines_cons, List.append_assoc]
    rfl

/-- Groups of lines are joined group by group. -/
theorem joinLines_flatMap {α : Type} {f : α → List (List Char)} {xs : List α}
    (h : ∀ x ∈ xs, f x ≠ []) :
    joinLines (xs.map fun x => joinLines (f x)) = joinLines (xs.flatMap f) := by
  induction xs with
  | nil => rfl
  | cons x rest ih =>
    have hrest := ih fun y hy => h y (List.mem_cons_of_mem _ hy)
    cases rest with
    | nil => rw [List.map_singleton, joinLines_singleton, List.flatMap_singleton]
    | cons y rest =>
      have hmore : (y :: rest).flatMap f ≠ [] := by
        rw [List.flatMap_cons]
        exact List.append_ne_nil_of_left_ne_nil (h y (by simp)) _
      rw [List.flatMap_cons, joinLines_append (h x List.mem_cons_self) hmore, ← hrest]
      exact joinLines_cons ..

end Text

namespace Chunk

variable {o : Options} {limit : Nat} {a b p : Fragment} {fs before : List Fragment} {r : Run}

/-! ### What joining gives -/

namespace Run

theorem content_joined (r : Run) :
    r.joined.content = Text.joinLines (r.fragments.map (·.content)) := by
  obtain ⟨first, rest⟩ := r
  induction rest generalizing first with
  | nil => exact (Text.joinLines_singleton _).symm
  | cons next rest ih =>
    rw [joined_cons, ih]
    exact Text.joinLines_cons_append first.content next.content (rest.map (·.content))

theorem named_joined (r : Run) : r.joined.kind = r.first.kind ∧
    r.joined.structure_ = r.first.structure_ ∧ r.joined.startLine = r.first.startLine :=
  joined_induction
    (motive := fun f => f.kind = r.first.kind ∧ f.structure_ = r.first.structure_ ∧
      f.startLine = r.first.startLine) ⟨rfl, rfl, rfl⟩ fun _ h _ _ => h

theorem max_endLine_joined (r : Run) :
    (r.fragments.map (·.endLine)).max? = some r.joined.endLine := by
  have hfold : r.rest.foldl (fun line f => max line f.endLine) r.first.endLine = r.joined.endLine :=
    List.foldl_hom Fragment.endLine fun _ _ => rfl
  rw [fragments, List.map_cons, List.max?_cons', List.foldl_map, hfold]

/-- What was joined before the last fragment was small, and it is below the limit with the last one. -/
theorem Grown.small (h : r.Grown limit) (hr : r.fragments = before ++ [p]) (hne : before ≠ []) :
    (Text.joinLines (before.map (·.content))).length < mergeThreshold ∧
      r.joined.content.length < limit := by
  cases h with
  | single f =>
    obtain ⟨first, rest, rfl⟩ := List.exists_cons_of_ne_nil hne
    have hlength := congrArg List.length hr
    simp [fragments] at hlength
  | @add r f h hjoins =>
    rw [fragments_add] at hr
    obtain ⟨rfl, hlast⟩ := List.append_inj' hr rfl
    obtain ⟨hsmall, hlimit⟩ := Bool.and_eq_true_iff.1 hjoins
    have hlength : (r.joined.join f).content.length =
        r.joined.content.length + (f.content.length + 1) := List.length_append
    rw [← content_joined, joined_add, hlength]
    exact ⟨of_decide_eq_true hsmall, by have := of_decide_eq_true hlimit; omega⟩

/-- A fragment that grows when others are joined to it is not taken in the more for that. -/
theorem Parted.joined {r s : Run} (h : Parted limit r s) : joins limit r.joined s.joined = false := by
  have hgrown := (first_le_joined s).2
  unfold Parted joins at h
  unfold joins
  simp only [Bool.and_eq_false_iff, decide_eq_false_iff_not, Nat.not_lt] at h ⊢
  omega

end Run

theorem joins_eq_false_iff : joins limit a b = false ↔
    mergeThreshold ≤ a.content.length ∨ limit ≤ a.content.length + 1 + b.content.length := by
  simp only [joins, Bool.and_eq_false_iff, decide_eq_false_iff_not, Nat.not_lt]

/-! ### Merging again -/

theorem mergeBelow_isChain (limit : Nat) (fs : List Fragment) :
    (mergeBelow limit fs).IsChain fun a b => joins limit a b = false := by
  obtain ⟨runs, hmerge, -, -, hparted⟩ := mergeBelow_eq_runs limit fs
  rw [hmerge, List.isChain_map]
  exact hparted.imp fun _ _ h => h.joined

theorem mergeFrom_eq_self (h : (a :: fs).IsChain fun a b => joins limit a b = false) :
    mergeFrom limit a fs = a :: fs := by
  induction fs generalizing a with
  | nil => rfl
  | cons next rest ih =>
    obtain ⟨hjoins, hrest⟩ := List.isChain_cons_cons.1 h
    rw [mergeFrom, hjoins, if_neg Bool.false_ne_true, ih hrest]

theorem mergeBelow_eq_self (h : fs.IsChain fun a b => joins limit a b = false) :
    mergeBelow limit fs = fs := by
  cases fs with
  | nil => rfl
  | cons first rest => exact mergeFrom_eq_self h

/-- Merging divides the fragments into runs, in order, and joins those of each run.  No text is lost or
added.  A run goes on only while it is small and stays below the limit, and it ends where it would not;
so merging once more changes nothing. -/
theorem merge_coalesces (hsize : o.maxSize * 6 < sizeBound) (fs : List Fragment) :
    ∃ merged, merge o fs = .ok merged ∧
      (∃ runs : List Run, merged = runs.map Run.joined ∧ runs.flatMap Run.fragments = fs ∧
        ∀ r ∈ runs, r.joined.content = Text.joinLines (r.fragments.map (·.content)) ∧
          (r.joined.kind = r.first.kind ∧ r.joined.structure_ = r.first.structure_ ∧
            r.joined.startLine = r.first.startLine) ∧
          (r.fragments.map (·.endLine)).max? = some r.joined.endLine ∧
          ∀ before last, r.fragments = before ++ [last] → before ≠ [] →
            (Text.joinLines (before.map (·.content))).length < 150 ∧
              r.joined.content.length < o.maxSize * 6 / 5) ∧
      Text.joinLines (merged.map (·.content)) = Text.joinLines (fs.map (·.content)) ∧
      (merged.IsChain fun a b => 150 ≤ a.content.length ∨
        o.maxSize * 6 / 5 ≤ a.content.length + 1 + b.content.length) ∧
      merge o merged = .ok merged := by
  have hchain := mergeBelow_isChain (o.maxSize * 6 / 5) fs
  refine ⟨_, merge_of_lt hsize fs, ?_, ?_, hchain.imp fun _ _ h => joins_eq_false_iff.1 h, ?_⟩
  · obtain ⟨runs, hmerge, hfragments, hgrown, -⟩ := mergeBelow_eq_runs (o.maxSize * 6 / 5) fs
    exact ⟨runs, hmerge, hfragments, fun r hr => ⟨r.content_joined, r.named_joined,
      r.max_endLine_joined, fun before last hlast hne => (hgrown r hr).small hlast hne⟩⟩
  · obtain ⟨runs, hmerge, rfl, -⟩ := mergeBelow_eq_runs (o.maxSize * 6 / 5) fs
    have hcontents : ((runs.map Run.joined).map (·.content)) =
        runs.map fun r => Text.joinLines (r.fragments.map (·.content)) := by
      rw [List.map_map]
      exact List.map_congr_left fun r _ => r.content_joined
    rw [hmerge, hcontents, Text.joinLines_flatMap, List.map_flatMap]
    exact fun r _ => List.cons_ne_nil _ _
  · rw [merge_of_lt hsize, mergeBelow_eq_self hchain]

/-- Four short lines of code, each a fragment. -/
def shortFragments : List Fragment :=
  ['a', 'b', 'c', 'd'].zipIdx.map fun (c, i) =>
    ⟨0, List.replicate 60 c, i + 1, i + 1, .variable_, "lexical_declaration"⟩

/-- Three of them come to more than the threshold, and the fourth stays alone. -/
theorem merge_coalesces_short :
    1000 * 6 < sizeBound ∧ ∃ merged, merge {} shortFragments = .ok merged ∧
      merged.map (fun f => (f.content.length, f.endLine)) = [(182, 3), (60, 4)] ∧
      merge {} merged = .ok merged := by
  have hsize : 1000 * 6 < sizeBound := by decide
  obtain ⟨merged, hmerge, -, -, -, hagain⟩ := merge_coalesces (o := {}) hsize shortFragments
  have hspans : (merge {} shortFragments).map (·.map fun f => (f.content.length, f.endLine)) =
      .ok [(182, 3), (60, 4)] := by decide +kernel
  rw [hmerge] at hspans
  exact ⟨hsize, merged, hmerge, Except.ok.inj hspans, hagain⟩

end Chunk

end CodeIndex
