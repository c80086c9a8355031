import CodeIndex.Parsing.Recovery
import CodeIndex.Proofs.Parsing.Trees
import CodeIndex.Proofs.Syntax.Tree

/-! The flags of trees with flaws.  A node that the parser makes over others has the flag exactly if
one of them has it or the node is a flaw itself.  So all trees on all stacks are truly flagged,
however often the way is lost, and so is the tree that is chosen in the end. -/

namespace CodeIndex.Parsing

open CodeIndex.Syntax

variable {T : Tree → Prop} {lang : Language} {ruler : Ruler}

/-! ### Flaws -/

theorem upward_flagged : Upward Tree.Flagged := fun kind start stop _ h =>
  (Tree.flagged_branch kind start stop).2 h

theorem flagged_gapAt (position : Nat) : (gapAt lang position).Carries Tree.Flagged :=
  List.forall_mem_nil _

theorem flagged_missingAt (symbol position : Nat) :
    (missingAt lang symbol position).Carries Tree.Flagged := by
  intro t ht
  rw [List.mem_singleton.1 ht, Tree.flagged_node]
  simp

theorem flagged_skipOver (older : Option Subtree) (token : Subtree) :
    (skipOver lang ruler older token).Carries Tree.Flagged :=
  List.forall_mem_nil _

theorem flagged_flawOver {older : Option Subtree} {parts : List Subtree} (extra : Bool)
    (holder : ∀ s ∈ older, s.Carries Tree.Flagged) (hparts : ∀ s ∈ parts, s.Carries Tree.Flagged) :
    (flawOver lang ruler older parts extra).Carries Tree.Flagged := by
  intro t ht
  rw [List.mem_singleton.1 ht, Tree.flagged_node]
  refine ⟨by simp, fun t ht => ?_⟩
  rcases List.mem_append.1 ht with ht | ht
  · cases older with
    | none => cases ht
    | some s =>
      obtain ⟨⟨l, cs⟩, hs, ht⟩ := List.mem_flatMap.1 ht
      exact (holder s rfl _ hs).child ht
  · obtain ⟨s, hs, ht⟩ := List.mem_flatMap.1 ht
    exact hparts s hs t (List.mem_reverse.1 ht)

theorem carries_tokenLeaf (token : Token) : (tokenLeaf lang token).Carries Tree.Flagged := by
  unfold tokenLeaf
  dsimp only
  split <;> exact List.forall_mem_nil _

theorem Links.Carries.of_mem_toList : {links : Links} → links.Carries T →
    ∀ way ∈ links.toList, way.1.Carries T ∧ way.2.Carries T
  | .none, _, _, hway => absurd hway List.not_mem_nil
  | .more _ _ _, ⟨htop, hunder, hothers⟩, way, hway => by
    rcases List.mem_cons.1 hway with rfl | hway
    · exact ⟨htop, hunder⟩
    · exact hothers.of_mem_toList way hway

theorem Stack.Carries.links {s : Stack} (h : s.Carries T) : s.links.Carries T := by
  cases s
  exact h

/-! ### Losing the way -/

/-- All trees on the stacks say truly whether there is a flaw at a node or below it. -/
def FlaggedStacks (ss : List Stack) : Prop := ∀ s ∈ ss, s.Carries Tree.Flagged

namespace FlaggedStacks

variable {a b : List Stack} {s : Stack}

theorem nil : FlaggedStacks [] := List.forall_mem_nil _

theorem single (hs : s.Carries Tree.Flagged) : FlaggedStacks [s] := List.forall_mem_singleton.2 hs

theorem append (ha : FlaggedStacks a) (hb : FlaggedStacks b) : FlaggedStacks (a ++ b) :=
  List.forall_mem_append.2 ⟨ha, hb⟩

end FlaggedStacks

theorem gives_reduceBy (p : NumberedProduction) {s : Stack} (h : s.Carries Tree.Flagged) :
    Gives FlaggedStacks (reduceBy lang p s) := by
  rw [reduceBy]
  refine Gives.bind (P := FlaggedStacks) (.loop .nil fun way hway heads hheads => ?_)
    fun heads hheads => .pure hheads
  obtain ⟨htop, hextras, hunder⟩ := h.reductions upward_flagged p way hway
  refine .after _ fun next => ?_
  split
  · exact .pure hheads
  · refine (gives_push _ htop hunder).bind fun s hs => ?_
    exact (gives_pushExtras hs hextras).bind fun s hs => .pure (hheads.append (.single hs))

theorem gives_endProductions (before : Option Nat) (fuel round : Nat) {done todo : List Stack}
    (shifts : Bool) (hdone : FlaggedStacks done) (htodo : FlaggedStacks todo) :
    Gives (FlaggedStacks ·.1) (endProductions lang before fuel round done todo shifts) := by
  induction fuel generalizing round done todo shifts with
  | zero => exact .pure (hdone.append htodo)
  | succ fuel ih =>
    cases todo with
    | nil => exact .pure hdone
    | cons s rest =>
      obtain ⟨hs, hrest⟩ := List.forall_mem_cons.1 htodo
      rw [endProductions]
      refine .after _ fun (productions, canShift) => ?_
      refine Gives.bind (P := FlaggedStacks) (.loop .nil fun p _ results hresults => ?_)
        fun results hresults => ?_
      · exact (gives_reduceBy p hs).bind fun more hmore => .pure (hresults.append hmore)
      · have hkept : FlaggedStacks (done ++ [s]) := hdone.append (.single hs)
        have hnext : FlaggedStacks (rest ++ results) := FlaggedStacks.append hrest hresults
        dsimp only
        split
        · exact ih _ _ hkept hnext
        · split
          · next last hlast _ =>
            have hlater : FlaggedStacks (last :: rest ++ results.dropLast) := by
              refine FlaggedStacks.append (List.forall_mem_cons.2 ⟨?_, hrest⟩) ?_
              · exact hresults last (List.mem_of_getLast? hlast)
              · exact fun r hr => hresults r ((List.dropLast_sublist _).subset hr)
            exact ih _ _ hdone hlater
          · refine ih _ _ ?_ hnext
            split
            · exact hdone
            · exact hkept

theorem gives_withMissing (token : Token) (position : Nat) {s : Stack}
    (h : s.Carries Tree.Flagged) (symbols : List Nat) :
    Gives FlaggedStacks (withMissing lang token position s symbols) := by
  induction symbols with
  | nil => exact .pure .nil
  | cons symbol rest ih =>
    rw [withMissing]
    refine .after _ fun actions => .bindEither (.any _) (.any _) fun next _ => ?_
    rcases next with _ | next
    · exact ih
    · refine .after _ fun after => ?_
      split
      · exact ih
      · refine (gives_push _ (flagged_missingAt symbol position) h).bind fun inserted hin => ?_
        refine (gives_endProductions _ _ _ _ .nil (.single hin)).bind fun (heads, _) hheads => ?_
        dsimp only
        split
        · exact .pure hheads
        · exact ih

theorem gives_firstMissing (token : Token) (position : Nat) {ss : List Stack}
    (h : FlaggedStacks ss) : Gives FlaggedStacks (firstMissing lang token position ss) := by
  induction ss with
  | nil => exact .pure .nil
  | cons s rest ih =>
    obtain ⟨hs, hrest⟩ := List.forall_mem_cons.1 h
    rw [firstMissing]
    split
    · exact .pure .nil
    · refine (gives_withMissing token position hs _).bind fun heads hheads => ?_
      split
      · exact ih hrest
      · exact .pure hheads

/-! ### Finding back -/

def FlaggedAttempts (as : List Attempt) : Prop := ∀ a ∈ as, a.stack.Carries Tree.Flagged

/-- Of several ways to one stack the first is kept. -/
theorem mem_of_mem_firstWays {ways : List (List Subtree × Stack)} :
    ∀ way ∈ ways.foldl (fun kept way =>
      if kept.any fun k => k.2.id == way.2.id then kept else kept ++ [way]) [], way ∈ ways := by
  refine List.foldlRecOn (motive := fun kept => ∀ way ∈ kept, way ∈ ways) ways _
    (List.forall_mem_nil _) fun kept hkept next hnext way hway => ?_
  split at hway
  · exact hkept way hway
  · rcases List.mem_append.1 hway with hway | hway
    · exact hkept way hway
    · exact List.mem_singleton.1 hway ▸ hnext

theorem Stack.Carries.topFlaw {s below : Stack} {flaw : Subtree} (h : s.Carries Tree.Flagged)
    (htop : topFlaw? s = some (flaw, below)) :
    flaw.Carries Tree.Flagged ∧ below.Carries Tree.Flagged :=
  h.links.of_mem_toList _ (List.mem_of_find?_eq_some htop)

theorem gives_returnTo {a : Attempt} (h : a.stack.Carries Tree.Flagged) (depth goal : Nat) :
    Gives FlaggedAttempts (returnTo lang ruler a depth goal) := by
  rw [returnTo]
  refine Gives.bind (P := FlaggedAttempts) (.loop ?_ fun way hway found hfound => ?_)
    fun found hfound => .pure hfound
  · exact List.forall_mem_nil _
  · obtain ⟨tops, under⟩ := way
    obtain ⟨hpop, -⟩ := List.mem_filter.1 (mem_of_mem_firstWays _ hway)
    obtain ⟨htops, hunder⟩ := h.pops depth (List.forall_mem_nil _) _ hpop
    have hkept : ∀ t ∈ tops.filter isKept, t.Carries Tree.Flagged := fun t ht =>
      htops t (List.mem_filter.1 ht).1
    have hparts := fun t ht => hkept t ((mem_of_mem_splitExtras (tops.filter isKept)).1 t ht)
    have hextras := fun t ht => hkept t ((mem_of_mem_splitExtras (tops.filter isKept)).2 t ht)
    have hback : ∀ s : Stack, s.Carries Tree.Flagged → Gives (FlaggedAttempts ·.value) (do
        let s ← pushExtras s (splitExtras (tops.filter isKept)).2
        let found := found ++ [{ stack := s, cursor := a.cursor, mark := a.mark }]
        pure (ForInStep.yield found)) := by
      intro s hs
      refine (gives_pushExtras hs hextras).bind fun s hs => .pure ?_
      exact List.forall_mem_append.2 ⟨hfound, List.forall_mem_singleton.2 hs⟩
    dsimp only
    split
    · next flaw below htop =>
      obtain ⟨hflaw, hbelow⟩ := hunder.topFlaw htop
      split
      · exact hback _ hbelow
      · refine (gives_push _ (flagged_flawOver _ ?_ hparts) hbelow).bind hback
        rintro s ⟨⟩
        exact hflaw
    · split
      · exact hback _ hunder
      · refine (gives_push _ (flagged_flawOver _ ?_ hparts) hunder).bind hback
        rintro s ⟨⟩

theorem gives_findBack (s : Search) (i : Nat) {a : Attempt} (h : a.stack.Carries Tree.Flagged)
    (token : Token) (ws : List Waypoint) :
    Gives FlaggedAttempts (findBack lang ruler s i a token ws) := by
  have hnone : FlaggedAttempts [] := List.forall_mem_nil _
  induction ws with
  | nil => exact .pure hnone
  | cons w rest ih =>
    rw [findBack]
    dsimp only
    split
    · exact ih
    · split
      · exact .pure hnone
      · refine .after _ fun taken => ?_
        split
        · refine (gives_returnTo h _ _).bind fun found hfound => ?_
          split
          · exact ih
          · exact .pure hfound
        · exact ih

theorem Finished.select_cases (old new : Finished) :
    old.select new = old ∨ old.select new = new := by
  unfold Finished.select
  repeat' split
  · exact .inl rfl
  · exact .inr rfl
  · exact .inl rfl
  · exact .inr rfl

/-- The trees of the attempts and the finished tree say truly where flaws are. -/
structure Search.Flagged (s : Search) : Prop where
  attempts : FlaggedAttempts s.attempts.toList
  finished : ∀ f ∈ s.finished, f.tree.Flagged

namespace Search.Flagged

variable {s : Search}

theorem of_getElem? (h : s.Flagged) {i : Nat} {a : Attempt} (ha : s.attempts[i]? = some a) :
    a.stack.Carries Tree.Flagged :=
  h.attempts a (Array.mem_toList_iff.2 (Array.mem_of_getElem? ha))

theorem finish (h : s.Flagged) {f : Finished} (hf : f.tree.Flagged) : (s.finish f).Flagged := by
  refine ⟨h.attempts, fun g hg => ?_⟩
  cases Option.some.inj hg
  split
  · next old hold =>
    rcases old.select_cases f with hselect | hselect <;> rw [hselect]
    · exact h.finished old hold
    · exact hf
  · exact hf

theorem update (h : s.Flagged) (i : Nat) {f : Attempt → Attempt}
    (hf : ∀ a, a.stack.Carries Tree.Flagged → (f a).stack.Carries Tree.Flagged) :
    (s.update i f).Flagged := by
  refine ⟨fun a ha => ?_, h.finished⟩
  rw [Search.update, Array.toList_modify] at ha
  obtain ⟨j, hj⟩ := List.mem_iff_getElem?.1 ha
  rw [List.getElem?_modify] at hj
  obtain ⟨b, hb, rfl⟩ := Option.map_eq_some_iff.1 hj
  have hflagged := h.attempts b (List.mem_of_getElem? hb)
  split
  · exact hf b hflagged
  · exact hflagged

theorem stop (h : s.Flagged) (i : Nat) : (s.stop i).Flagged := h.update i fun _ ha => ha

theorem add (h : s.Flagged) {as : List Attempt} (has : FlaggedAttempts as) :
    (s.add as).Flagged := by
  refine ⟨?_, h.finished⟩
  rw [Search.add, Array.toList_append, List.toList_toArray]
  exact List.forall_mem_append.2 ⟨h.attempts, has⟩

end Search.Flagged

theorem flagged_finishLost {s : Search} (h : s.Flagged) (i : Nat) {a : Attempt}
    (ha : a.stack.Carries Tree.Flagged) (token : Token) :
    (finishLost lang ruler s i a token).Flagged := by
  have hparts : ∀ t ∈ a.stack.firstWay.reverse.filter isKept, t.Carries Tree.Flagged := fun t ht =>
    ha.firstWay t (List.mem_reverse.1 (List.mem_filter.1 ht).1)
  have hlast : ({ tokenLeaf lang token with extra := true, visible := false } : Subtree).Carries
      Tree.Flagged := carries_tokenLeaf token
  have hroot : (flawOver lang ruler none (a.stack.firstWay.reverse.filter isKept
      ++ [{ tokenLeaf lang token with extra := true, visible := false }]) false).Carries
      Tree.Flagged :=
    flagged_flawOver false (fun s hs => by cases hs)
      (List.forall_mem_append.2 ⟨hparts, List.forall_mem_singleton.2 hlast⟩)
  exact (h.finish (hroot _ List.mem_cons_self)).stop i

theorem gives_recover {s : Search} (h : s.Flagged) (i : Nat) {a : Attempt}
    (ha : a.stack.Carries Tree.Flagged) (token : Token) :
    Gives Search.Flagged (recover lang ruler s i a token) := by
  rw [recover]
  refine .bindEither (P := FlaggedAttempts) ?_ (gives_findBack s i ha token _) fun _ hfound => ?_
  · exact .pure (List.forall_mem_nil _)
  · have hs := h.add hfound
    dsimp only
    split
    · exact .pure (flagged_finishLost hs i ha token)
    · split
      · exact .pure (hs.stop i)
      · split
        · next top under hlinks =>
          refine (gives_push _ (flagged_skipOver _ _) ?_).bind fun stack hstack =>
            .pure (hs.update i fun _ _ => hstack)
          split
          · exact (ha.links.of_mem_toList (top, under) (hlinks ▸ List.mem_cons_self)).2
          · exact ha
        · exact (gives_push _ (flagged_skipOver _ _) ha).bind fun stack hstack =>
            .pure (hs.update i fun _ _ => hstack)

theorem gives_loseWay {s : Search} (h : s.Flagged) (i : Nat) {a : Attempt}
    (ha : a.stack.Carries Tree.Flagged) (token : Token) :
    Gives Search.Flagged (loseWay lang ruler s i a token) := by
  rw [loseWay]
  refine (gives_endProductions _ _ _ _ .nil (.single ha)).bind fun (heads, _) hheads => ?_
  refine (gives_firstMissing token _ hheads).bind fun repaired hrepaired => ?_
  have hlinks : (heads.foldl (fun links s => links.add joinDepth (gapAt lang a.cursor.pos) s)
      Links.none).Carries Tree.Flagged := by
    refine List.foldlRecOn (motive := fun links : Links => links.Carries Tree.Flagged) _ _ trivial
      fun links hlinks s hs => ?_
    exact hlinks.add _ (flagged_gapAt _) (hheads s hs)
  dsimp only
  refine Gives.bind (P := Stack.Carries Tree.Flagged) (fun _ => hlinks) fun lost hlost => ?_
  refine gives_recover ((h.update i fun _ _ => hlost).add ?_) i hlost token
  intro b hb
  obtain ⟨r, hr, rfl⟩ := List.mem_map.1 hb
  exact hrepaired r hr

/-! ### The search -/

theorem Accepted.Carries.finished {a : Accepted} (h : a.Carries Tree.Flagged) :
    a.finished.tree.Flagged := by
  have htrees : ∀ {ss : List Subtree}, (∀ s ∈ ss, s.Carries Tree.Flagged) →
      ∀ t ∈ ss.flatMap (fun s => s.trees.reverse), t.Flagged := by
    intro ss hss t ht
    obtain ⟨s, hs, ht⟩ := List.mem_flatMap.1 ht
    exact hss s hs t (List.mem_reverse.1 ht)
  have hbefore : ∀ s ∈ a.before.firstWay.reverse, s.Carries Tree.Flagged := fun s hs =>
    h.before.firstWay s (List.mem_reverse.1 hs)
  unfold Accepted.finished
  dsimp only
  split
  · next l cs _ htop =>
    have hroot : Tree.Flagged (.node l cs) := h.top _ (htop ▸ List.mem_cons_self)
    rw [Tree.flagged_branch]
    refine List.forall_mem_append.2 ⟨List.forall_mem_append.2 ⟨htrees hbefore, ?_⟩, htrees h.after⟩
    exact fun t ht => hroot.child ht
  · rw [Tree.flagged_branch]
    refine htrees (List.forall_mem_append.2 ⟨hbefore, ?_⟩)
    exact List.forall_mem_cons.2 ⟨h.top, h.after⟩

theorem gives_advance {s : Search} (h : s.Flagged) (i : Nat) {a : Attempt}
    (ha : a.stack.Carries Tree.Flagged) : Gives Search.Flagged (advance lang ruler s i a) := by
  rw [advance]
  refine .after _ fun token => ?_
  split
  · exact gives_recover h i ha token
  · refine (gives_takeToken upward_flagged _ token ha).bind fun o ho => ?_
    have hfinished : (o.accepted.foldl (fun s p => s.finish p.finished) s).Flagged :=
      List.foldlRecOn (motive := Search.Flagged) _ _ h fun s hs p hp =>
        hs.finish (ho.accepted p hp).finished
    dsimp only
    split
    · exact .pure (hfinished.stop i)
    · next first others hgoing =>
      have hall : FlaggedAttempts (first :: others) := by
        rw [← hgoing]
        refine List.forall_mem_append.2 ⟨?_, ?_⟩
        · exact List.forall_mem_map.2 ho.heads
        · exact List.forall_mem_map.2 ho.stuck
      obtain ⟨hfirst, hothers⟩ := List.forall_mem_cons.1 hall
      exact .pure ((hfinished.update i fun _ _ => hfirst).add hothers)

theorem gives_advanceFar (fuel : Nat) {s : Search} (h : s.Flagged) (i : Nat) :
    Gives Search.Flagged (advanceFar lang ruler fuel s i) := by
  induction fuel generalizing s with
  | zero => exact .pure h
  | succ fuel ih =>
    rw [advanceFar]
    split
    · exact .pure h
    · next a ha =>
      split
      · exact .pure h
      · refine (gives_advance h i (h.of_getElem? ha)).bind fun s hs => ?_
        dsimp only
        split
        · exact .pure ⟨hs.attempts, hs.finished⟩
        · exact ih hs

theorem gives_advanceAll (fuel : Nat) {s : Search} (h : s.Flagged) (i : Nat) :
    Gives Search.Flagged (advanceAll lang ruler fuel s i) := by
  induction fuel generalizing s i with
  | zero => exact .pure h
  | succ fuel ih =>
    rw [advanceAll]
    split
    · exact .pure h
    · exact (gives_advanceFar _ h i).bind fun s hs => ih hs (i + 1)

theorem flagged_placeAmong {a : Attempt} (standing : Standing) {as : List Attempt}
    (ha : a.stack.Carries Tree.Flagged) (has : FlaggedAttempts as) :
    FlaggedAttempts (placeAmong a standing as) := by
  induction as generalizing a standing with
  | nil => exact List.forall_mem_singleton.2 ha
  | cons b rest ih =>
    obtain ⟨hb, hrest⟩ := List.forall_mem_cons.1 has
    have hjoin : (b.join a).stack.Carries Tree.Flagged := hb.join joinDepth ha
    have hjoined : FlaggedAttempts (b.join a :: rest) := List.forall_mem_cons.2 ⟨hjoin, hrest⟩
    rw [placeAmong]
    split
    · exact has
    · exact ih standing ha hrest
    · split
      · exact hjoined
      · exact List.forall_mem_cons.2 ⟨ha, ih standing hb hrest⟩
    · split
      · exact hjoined
      · exact List.forall_mem_cons.2 ⟨hb, ih standing ha hrest⟩

theorem flagged_sortAttempts {as : List Attempt} (h : FlaggedAttempts as) :
    FlaggedAttempts (sortAttempts as) := by
  have hall : FlaggedAttempts ((as.filter (!·.ended)).foldl
      (fun kept a => placeAmong a a.standing kept) []) := by
    refine List.foldlRecOn (motive := FlaggedAttempts) _ _ (List.forall_mem_nil _)
      fun kept hkept a ha => ?_
    exact flagged_placeAmong _ (h a (List.mem_filter.1 ha).1) hkept
  exact fun a ha => hall a (List.mem_of_mem_take ha)

theorem gives_resume (n : Nat) {s : Search} (h : s.Flagged) (i : Nat) (going : Bool) :
    Gives Search.Flagged (resume lang ruler n s i going) := by
  induction n generalizing s i going with
  | zero => exact .pure h
  | succ n ih =>
    rw [resume]
    split
    · exact .pure h
    · next a ha =>
      split
      · exact ih h _ _
      · split
        · exact (gives_loseWay h i (h.of_getElem? ha) _).bind fun s hs => ih hs _ _
        · have hattempts : FlaggedAttempts (s.attempts.eraseIdxIfInBounds i).toList := by
            intro b hb
            rw [Array.toList_eraseIdxIfInBounds] at hb
            exact h.attempts b (List.mem_of_mem_eraseIdx hb)
          have hleft : Search.Flagged { s with attempts := s.attempts.eraseIdxIfInBounds i } :=
            ⟨hattempts, h.finished⟩
          exact ih hleft _ _

theorem gives_searchFrom (fuel : Nat) {s : Search} (h : s.Flagged) :
    Gives Search.Flagged (searchFrom lang ruler fuel s) := by
  induction fuel generalizing s with
  | zero => exact .pure h
  | succ fuel ih =>
    rw [searchFrom]
    refine (gives_advanceAll _ h 0).bind fun s hs => ?_
    have hsorted : Search.Flagged
        { s with attempts := (sortAttempts s.attempts.toList).toArray } := by
      refine ⟨?_, hs.finished⟩
      rw [List.toList_toArray]
      exact flagged_sortAttempts hs.attempts
    refine (gives_resume _ hsorted 0 false).bind fun s hs => ?_
    extract_lets settled
    split
    · exact .pure hs
    · exact ih hs

/-- Whatever a text is like, all nodes of the tree that is found for it say truly whether there is a
flaw at them or below them. -/
theorem flagged_of_flawedTree? {text : List Char} {tree : Tree}
    (h : flawedTree? lang text = some tree) : tree.Flagged := by
  have hstart : Search.Flagged
      { attempts := #[{ stack := .node 0 0 .none, cursor := ⟨0, text⟩ }] } := by
    refine ⟨fun a ha => ?_, fun f hf => by cases hf⟩
    rw [List.mem_singleton.1 ha]
    exact trivial
  have hsearch := @gives_searchFrom lang (Ruler.of text) (4 * text.length + 64) _ hstart
    ⟨lang.automaton, 1⟩
  unfold flawedTree? at h
  extract_lets start at h
  generalize hresult : searchFrom lang (Ruler.of text) (4 * text.length + 64) start
    ⟨lang.automaton, 1⟩ = result at h
  rw [hresult] at hsearch
  obtain ⟨f, hf, rfl⟩ := Option.map_eq_some_iff.1 h
  exact hsearch.finished f hf

end CodeIndex.Parsing
