import CodeIndex.Chunk.Merging
import CodeIndex.Proofs.Chunk.Splitting
import Mathlib.Data.List.Chain

/-! Merging keeps the lines of the fragments that it joins, and it joins none to a fragment that is
too large.  What it makes are runs: each takes in some fragments that stand one after another. -/

namespace CodeIndex.Chunk

variable {o : Options} {current p : Fragment} {fs : List Fragment} {line : List Char}
  {limit : Nat}

theorem splitLines_join (a b : Fragment) :
    Text.splitLines (a.join b).content = Text.splitLines a.content ++ Text.splitLines b.content :=
  Text.splitLines_append_newline a.content b.content

theorem join_bounded {a b : Fragment} (hlimit : limit ≤ o.maxSize * 3 / 2)
    (h : joins limit a b = true) : (a.join b).Bounded o := by
  have hsize : a.content.length + 1 + b.content.length < limit :=
    of_decide_eq_true (Bool.and_eq_true_iff.1 h).2
  have hlength : (a.join b).content.length = a.content.length + (b.content.length + 1) :=
    List.length_append
  right
  left
  omega

theorem mergeFrom_covers
    (h : line ∈ Text.splitLines current.content ∨ ∃ f ∈ fs, line ∈ Text.splitLines f.content) :
    ∃ p ∈ mergeFrom limit current fs, line ∈ Text.splitLines p.content := by
  induction fs generalizing current with
  | nil =>
    rcases h with hcurrent | ⟨f, hf, -⟩
    · exact ⟨current, List.mem_singleton_self current, hcurrent⟩
    · exact absurd hf List.not_mem_nil
  | cons next rest ih =>
    have hcases : line ∈ Text.splitLines current.content ∨ line ∈ Text.splitLines next.content ∨
        ∃ f ∈ rest, line ∈ Text.splitLines f.content := by
      rcases h with hcurrent | ⟨f, hf, hline⟩
      · exact .inl hcurrent
      · rcases List.mem_cons.1 hf with rfl | hf
        · exact .inr (.inl hline)
        · exact .inr (.inr ⟨f, hf, hline⟩)
    unfold mergeFrom
    split
    · apply ih
      rw [splitLines_join, List.mem_append, or_assoc]
      exact hcases
    · rcases hcases with hcurrent | hrest
      · exact ⟨current, List.mem_cons_self, hcurrent⟩
      · obtain ⟨p, hp, hline⟩ := ih hrest
        exact ⟨p, List.mem_cons_of_mem _ hp, hline⟩

theorem mergeBelow_covers {f : Fragment} (hf : f ∈ fs) (hline : line ∈ Text.splitLines f.content) :
    ∃ p ∈ mergeBelow limit fs, line ∈ Text.splitLines p.content := by
  cases fs with
  | nil => exact absurd hf List.not_mem_nil
  | cons first rest =>
    apply mergeFrom_covers
    rcases List.mem_cons.1 hf with rfl | hf
    · exact .inl hline
    · exact .inr ⟨f, hf, hline⟩

theorem mergeFrom_bounded (hlimit : limit ≤ o.maxSize * 3 / 2) (hcurrent : current.Bounded o)
    (h : ∀ f ∈ fs, f.Bounded o) :
    ∀ p ∈ mergeFrom limit current fs, p.Bounded o := by
  induction fs generalizing current with
  | nil =>
    intro p hp
    rw [List.mem_singleton.1 hp]
    exact hcurrent
  | cons next rest ih =>
    have hnext := h next List.mem_cons_self
    have hrest : ∀ f ∈ rest, f.Bounded o := fun f hf => h f (List.mem_cons_of_mem _ hf)
    unfold mergeFrom
    split
    next hjoins => exact ih (join_bounded hlimit hjoins) hrest
    next =>
      intro p hp
      rcases List.mem_cons.1 hp with rfl | hp
      · exact hcurrent
      · exact ih hnext hrest p hp

theorem mergeBelow_bounded (hlimit : limit ≤ o.maxSize * 3 / 2)
    (h : ∀ f ∈ fs, f.Bounded o) : ∀ p ∈ mergeBelow limit fs, p.Bounded o := by
  cases fs with
  | nil => exact h
  | cons first rest =>
    exact mergeFrom_bounded hlimit (h first List.mem_cons_self) fun f hf =>
      h f (List.mem_cons_of_mem _ hf)

/-! ### The limit -/

theorem mergeLimit_of_lt (h : o.maxSize * 6 < sizeBound) :
    o.mergeLimit = .ok (o.maxSize * 6 / 5) := by
  rw [Options.mergeLimit, sizeProduct_of_lt h]
  rfl

theorem mergeLimit_of_le (h : sizeBound ≤ o.maxSize * 6) : o.mergeLimit = .error .overflow := by
  rw [Options.mergeLimit, sizeProduct_of_le h]
  rfl

theorem merge_of_lt (h : o.maxSize * 6 < sizeBound) (fs : List Fragment) :
    merge o fs = .ok (mergeBelow (o.maxSize * 6 / 5) fs) := by
  rw [merge, mergeLimit_of_lt h]
  rfl

theorem merge_of_le (h : sizeBound ≤ o.maxSize * 6) (fs : List Fragment) :
    merge o fs = .error .overflow := by
  rw [merge, mergeLimit_of_le h]
  rfl

/-! ### Runs -/

/-- Fragments that stand one after another, to be joined into one. -/
structure Run where
  first : Fragment
  rest : List Fragment

namespace Run

variable {r : Run}

def fragments (r : Run) : List Fragment := r.first :: r.rest

def joined (r : Run) : Fragment := r.rest.foldl Fragment.join r.first

def add (r : Run) (f : Fragment) : Run := ⟨r.first, r.rest ++ [f]⟩

/-- Each two neighbours stay below the limit together. -/
def Within (limit : Nat) (r : Run) : Prop :=
  r.fragments.IsChain fun a b => a.content.length + 1 + b.content.length < limit

theorem fragments_add (r : Run) (f : Fragment) : (r.add f).fragments = r.fragments ++ [f] := rfl

theorem joined_add (r : Run) (f : Fragment) : (r.add f).joined = r.joined.join f :=
  List.foldl_concat ..

/-- What holds of the first fragment and outlasts joining holds of the whole. -/
theorem joined_induction {motive : Fragment → Prop} (hfirst : motive r.first)
    (hjoin : ∀ a, motive a → ∀ f ∈ r.rest, motive (a.join f)) : motive r.joined := by
  obtain ⟨first, rest⟩ := r
  exact List.foldlRecOn rest Fragment.join hfirst hjoin

theorem startLine_joined : r.joined.startLine = r.first.startLine :=
  joined_induction (motive := (·.startLine = r.first.startLine)) rfl fun _ ha _ _ => ha

theorem content_joined_ne_nil (h : r.first.content ≠ []) : r.joined.content ≠ [] :=
  joined_induction (motive := (·.content ≠ [])) h fun _ _ _ _ => by simp [Fragment.join]

theorem endLine_joined_le {bound : Nat} (h : ∀ f ∈ r.fragments, f.endLine ≤ bound) :
    r.joined.endLine ≤ bound :=
  joined_induction (motive := (·.endLine ≤ bound)) (h _ List.mem_cons_self) fun _ ha f hf =>
    Nat.max_le.2 ⟨ha, h f (List.mem_cons_of_mem _ hf)⟩

/-- Joining goes on from the first two. -/
theorem joined_cons (first next : Fragment) (rest : List Fragment) :
    joined ⟨first, next :: rest⟩ = joined ⟨first.join next, rest⟩ := rfl

theorem first_le_joined (r : Run) : r.first.endLine ≤ r.joined.endLine ∧
    r.first.content.length ≤ r.joined.content.length :=
  joined_induction
    (motive := fun a => r.first.endLine ≤ a.endLine ∧ r.first.content.length ≤ a.content.length)
    ⟨Nat.le_refl _, Nat.le_refl _⟩ fun _ ha _ _ =>
      ⟨Nat.le_trans ha.1 (Nat.le_max_left _ _), Nat.le_trans ha.2 (by simp [Fragment.join])⟩

theorem le_joined (h : p ∈ r.fragments) :
    p.endLine ≤ r.joined.endLine ∧ p.content.length ≤ r.joined.content.length := by
  obtain ⟨first, rest⟩ := r
  induction rest generalizing first with
  | nil =>
    obtain rfl := List.mem_singleton.1 h
    exact first_le_joined ⟨p, []⟩
  | cons next rest ih =>
    rcases List.mem_cons.1 h with rfl | hrest
    · exact first_le_joined ⟨p, next :: rest⟩
    · rw [joined_cons]
      rcases List.mem_cons.1 hrest with rfl | hp
      · obtain ⟨hend, hlength⟩ := first_le_joined ⟨first.join p, rest⟩
        refine ⟨Nat.le_trans (Nat.le_max_right _ _) hend, Nat.le_trans ?_ hlength⟩
        simp only [Fragment.join, List.length_append, List.length_cons]
        omega
      · exact ih (first.join next) (List.mem_cons_of_mem _ hp)

theorem splitLines_joined (r : Run) :
    Text.splitLines r.joined.content = r.fragments.flatMap fun f => Text.splitLines f.content := by
  obtain ⟨first, rest⟩ := r
  induction rest generalizing first with
  | nil => exact (List.append_nil _).symm
  | cons next rest ih =>
    rw [joined_cons, ih, fragments, fragments, List.flatMap_cons, List.flatMap_cons,
      List.flatMap_cons, splitLines_join, List.append_assoc]

theorem Within.add (h : r.Within limit) (hjoins : joins limit r.joined p = true) :
    (r.add p).Within limit := by
  rw [Within, fragments_add]
  refine List.isChain_append.2 ⟨h, List.isChain_singleton p, ?_⟩
  intro last hlast q hq
  obtain rfl := Option.some.inj hq
  have hsize : r.joined.content.length + 1 + p.content.length < limit :=
    of_decide_eq_true (Bool.and_eq_true_iff.1 hjoins).2
  have hle := (le_joined (List.mem_of_getLast? hlast)).2
  omega

/-- Each fragment after the first was joined to all that stand before it. -/
inductive Grown (limit : Nat) : Run → Prop
  | single (f : Fragment) : Grown limit ⟨f, []⟩
  | add {r : Run} {f : Fragment} (h : Grown limit r) (hjoins : joins limit r.joined f = true) :
      Grown limit (r.add f)

theorem Grown.within (h : r.Grown limit) : r.Within limit := by
  induction h with
  | single f => exact List.isChain_singleton f
  | add _ hjoins ih => exact ih.add hjoins

/-- One run after another: what the first has come to does not take in the next fragment. -/
def Parted (limit : Nat) (a b : Run) : Prop := joins limit a.joined b.first = false

end Run

theorem mergeFrom_eq_runs (r : Run) (h : r.Grown limit) :
    ∃ r' more, mergeFrom limit r.joined fs = (r' :: more).map Run.joined ∧ r'.first = r.first ∧
      (r' :: more).flatMap Run.fragments = r.fragments ++ fs ∧
      (∀ r ∈ r' :: more, r.Grown limit) ∧ (r' :: more).IsChain (Run.Parted limit) := by
  induction fs generalizing r with
  | nil =>
    refine ⟨r, [], rfl, rfl, rfl, fun r' hr' => ?_, List.isChain_singleton r⟩
    exact List.mem_singleton.1 hr' ▸ h
  | cons next rest ih =>
    unfold mergeFrom
    split
    next hjoins =>
      obtain ⟨r', more, hmerge, hfirst, hfragments, hgrown⟩ := ih (r.add next) (h.add hjoins)
      rw [Run.joined_add] at hmerge
      rw [Run.fragments_add, List.append_assoc] at hfragments
      exact ⟨r', more, hmerge, hfirst, hfragments, hgrown⟩
    next hjoins =>
      obtain ⟨r', more, hmerge, hfirst, hfragments, hgrown, hchain⟩ := ih ⟨next, []⟩ (.single next)
      refine ⟨r, r' :: more, congrArg (r.joined :: ·) hmerge, rfl, ?_, ?_, ?_⟩
      · rw [List.flatMap_cons, hfragments]
        rfl
      · intro r'' hr''
        rcases List.mem_cons.1 hr'' with rfl | hr''
        · exact h
        · exact hgrown r'' hr''
      · refine List.isChain_cons_cons.2 ⟨?_, hchain⟩
        rw [Run.Parted, hfirst]
        exact Bool.not_eq_true _ ▸ hjoins

/-- Merging divides the fragments into runs and joins each of them. -/
theorem mergeBelow_eq_runs (limit : Nat) (fs : List Fragment) :
    ∃ runs : List Run, mergeBelow limit fs = runs.map Run.joined ∧ runs.flatMap Run.fragments = fs ∧
      (∀ r ∈ runs, r.Grown limit) ∧ runs.IsChain (Run.Parted limit) := by
  cases fs with
  | nil => exact ⟨[], rfl, rfl, fun r hr => absurd hr List.not_mem_nil, List.IsChain.nil⟩
  | cons first rest =>
    obtain ⟨r, more, hmerge, -, hfragments, hgrown⟩ :=
      mergeFrom_eq_runs ⟨first, []⟩ (.single first)
    exact ⟨r :: more, hmerge, hfragments, hgrown⟩

end CodeIndex.Chunk
