import CodeIndex.Parsing.Run

/-! The trees on the stacks of a parser.  A property that a sound node has if those right below it
have it holds of all trees that come of a parse: joining stacks, taking symbols off them and
reducing keep it. -/

namespace CodeIndex.Parsing

open CodeIndex.Syntax

/-! ### What computations give -/

/-- Whatever the automaton is like, the result has a property. -/
def Gives {α : Type} (P : α → Prop) (m : ParseM α) : Prop := ∀ progress, P (m progress).1

namespace Gives

variable {α β : Type} {P : α → Prop} {Q : β → Prop} {m : ParseM α} {f : α → ParseM β}

theorem pure {a : α} (h : P a) : Gives P (pure a : ParseM α) := fun _ => h

theorem any (m : ParseM α) : Gives (fun _ => True) m := fun _ => trivial

theorem bind (hm : Gives P m) (hf : ∀ a, P a → Gives Q (f a)) : Gives Q (m >>= f) :=
  fun progress => hf _ (hm progress) _

/-- After a step whose result does not matter. -/
theorem after (m : ParseM α) (hf : ∀ a, Gives Q (f a)) : Gives Q (m >>= f) :=
  (any m).bind fun a _ => hf a

theorem bindEither {c : Prop} [Decidable c] {m' : ParseM α} (hm : Gives P m) (hm' : Gives P m')
    (hf : ∀ a, P a → Gives Q (f a)) : Gives Q (if c then m >>= f else m' >>= f) := by
  split
  · exact hm.bind hf
  · exact hm'.bind hf

theorem loop {as : List α} {b : β} {body : α → β → ParseM (ForInStep β)} (hb : Q b)
    (hbody : ∀ a ∈ as, ∀ b, Q b → Gives (fun s => Q s.value) (body a b)) :
    Gives Q (forIn as b body) := by
  induction as generalizing b with
  | nil => exact pure hb
  | cons a as ih =>
    rw [List.forIn_cons]
    refine (hbody a List.mem_cons_self b hb).bind fun s hs => ?_
    cases s with
    | done b => exact pure hs
    | yield b => exact ih hs fun a ha => hbody a (List.mem_cons_of_mem _ ha)

end Gives

/-! ### Subtrees -/

/-- A sound node has the property if the nodes right below it have it. -/
def Upward (T : Tree → Prop) : Prop :=
  ∀ kind start stop cs, (∀ t ∈ cs, T t) → T (.branch kind start stop cs)

def Subtree.Carries (T : Tree → Prop) (s : Subtree) : Prop := ∀ t ∈ s.trees, T t

variable {T : Tree → Prop} {lang : Language}

theorem of_mem_joinTrees {parts : List Subtree} (h : ∀ s ∈ parts, s.Carries T) :
    ∀ t ∈ joinTrees parts, T t := by
  cases parts with
  | nil => exact List.forall_mem_nil _
  | cons first rest =>
    rw [joinTrees]
    refine List.foldlRecOn (motive := fun trees : List Tree => ∀ t ∈ trees, T t) rest _
      (h first List.mem_cons_self) fun trees htrees part hpart t ht => ?_
    rcases List.mem_append.1 ht with ht | ht
    · exact h part (List.mem_cons_of_mem _ hpart) t ht
    · exact htrees t ht

theorem carries_reduceParts (hT : Upward T) (p : NumberedProduction) {parts : List Subtree}
    (h : ∀ s ∈ parts, s.Carries T) : (reduceParts lang p parts).Carries T := by
  have htrees := of_mem_joinTrees h
  unfold reduceParts Subtree.Carries
  dsimp only
  split
  · exact htrees
  · intro t ht
    rw [List.mem_singleton.1 ht]
    exact hT _ _ _ _ fun t ht => htrees t (List.mem_reverse.1 ht)

theorem carries_leaf (token : Token) (extra : Bool) : (leaf lang token extra).Carries T :=
  List.forall_mem_nil _

/-! ### Stacks -/

mutual

def Stack.Carries (T : Tree → Prop) : Stack → Prop
  | .node _ _ links => links.Carries T

def Links.Carries (T : Tree → Prop) : Links → Prop
  | .none => True
  | .more top under others => top.Carries T ∧ under.Carries T ∧ others.Carries T

end

/-- Symbols taken off a stack, and what is left of it. -/
def CarriesWay (T : Tree → Prop) (way : List Subtree × Stack) : Prop :=
  (∀ s ∈ way.1, s.Carries T) ∧ way.2.Carries T

mutual

theorem Stack.Carries.pops : {s : Stack} → s.Carries T → (n : Nat) → {above : List Subtree} →
    (∀ t ∈ above, t.Carries T) → ∀ way ∈ s.pops n above, CarriesWay T way
  | s, h, 0, above, habove, way, hway => by
    rw [Stack.pops, List.mem_singleton] at hway
    exact hway ▸ ⟨habove, h⟩
  | .node _ _ links, h, n + 1, above, habove, way, hway =>
    Links.Carries.pops h (n + 1) habove way hway

theorem Links.Carries.pops : {links : Links} → links.Carries T → (n : Nat) →
    {above : List Subtree} → (∀ t ∈ above, t.Carries T) →
    ∀ way ∈ links.pops n above, CarriesWay T way
  | .none, _, _, _, _, way, hway => by cases hway
  | .more top under others, ⟨htop, hunder, hothers⟩, n, above, habove, way, hway => by
    rcases List.mem_append.1 hway with hway | hway
    · refine hunder.pops _ (fun t ht => ?_) way hway
      rcases List.mem_cons.1 ht with rfl | ht
      · exact htop
      · exact habove t ht
    · exact hothers.pops n habove way hway

end

mutual

theorem Stack.Carries.join : (depth : Nat) → {a b : Stack} → a.Carries T → b.Carries T →
    (Stack.join depth a b).Carries T
  | 0, a, b, ha, _ => by
    rw [Stack.join]
    exact ha
  | depth + 1, .node i s ways, .node j r more, ha, hb => by
    rw [Stack.join]
    split
    · exact ha
    · exact Links.Carries.joinAll depth ha hb

theorem Links.Carries.joinAll : (depth : Nat) → {ways more : Links} → ways.Carries T →
    more.Carries T → (ways.joinAll depth more).Carries T
  | depth, ways, .none, hways, _ => by
    rw [Links.joinAll]
    exact hways
  | depth, ways, .more top under others, hways, ⟨htop, hunder, hothers⟩ => by
    rw [Links.joinAll]
    exact Links.Carries.joinAll depth (Links.Carries.add depth hways htop hunder) hothers

theorem Links.Carries.add : (depth : Nat) → {ways : Links} → {top : Subtree} → {under : Stack} →
    ways.Carries T → top.Carries T → under.Carries T → (ways.add depth top under).Carries T
  | depth, .none, top, under, _, htop, hunder => by
    rw [Links.add]
    exact ⟨htop, hunder, trivial⟩
  | depth, .more t u others, top, under, ⟨ht, hu, hothers⟩, htop, hunder => by
    have hbest : (if t.rank < top.rank then top else t).Carries T := by
      split
      · exact htop
      · exact ht
    rw [Links.add]
    split
    · exact ⟨hbest, hu, hothers⟩
    · split
      · exact ⟨hbest, Stack.Carries.join depth hu hunder, hothers⟩
      · exact ⟨ht, hu, Links.Carries.add depth hothers htop hunder⟩

end

mutual

theorem Stack.Carries.firstWay : {s : Stack} → s.Carries T → ∀ t ∈ s.firstWay, t.Carries T
  | .node _ _ _, h => Links.Carries.firstWay h

theorem Links.Carries.firstWay : {links : Links} → links.Carries T →
    ∀ t ∈ links.firstWay, t.Carries T
  | .none, _ => List.forall_mem_nil _
  | .more _ _ _, ⟨htop, hunder, _⟩ => fun t ht => by
    rcases List.mem_cons.1 ht with rfl | ht
    · exact htop
    · exact hunder.firstWay t ht

end

theorem gives_push {top : Subtree} {under : Stack} (state : Nat) (htop : top.Carries T)
    (hunder : under.Carries T) : Gives (Stack.Carries T) (push top state under) :=
  fun _ => ⟨htop, hunder, trivial⟩

theorem gives_pushExtras {s : Stack} {extras : List Subtree} (hs : s.Carries T)
    (hextras : ∀ e ∈ extras, e.Carries T) : Gives (Stack.Carries T) (pushExtras s extras) := by
  induction extras generalizing s with
  | nil => exact .pure hs
  | cons e rest ih =>
    refine (gives_push _ (hextras e List.mem_cons_self) hs).bind fun s hs => ?_
    exact ih hs fun e he => hextras e (List.mem_cons_of_mem _ he)

/-! ### Tokens -/

theorem mem_of_mem_splitExtras (tops : List Subtree) :
    (∀ s ∈ (splitExtras tops).1, s ∈ tops) ∧ ∀ s ∈ (splitExtras tops).2, s ∈ tops := by
  constructor
  · intro s hs
    exact List.mem_reverse.1 ((List.dropWhile_suffix _).subset (List.mem_reverse.1 hs))
  · intro s hs
    exact List.mem_reverse.1 ((List.takeWhile_prefix _).subset (List.mem_reverse.1 hs))

theorem mem_of_mem_bestWays {ways : List (Subtree × List Subtree × Stack)} :
    ∀ way ∈ bestWays ways, way ∈ ways := by
  rw [bestWays]
  refine List.foldlRecOn (motive := fun kept => ∀ way ∈ kept, way ∈ ways) ways _
    (List.forall_mem_nil _) fun kept hkept next hnext way hway => ?_
  split at hway
  · obtain ⟨k, hk, rfl⟩ := List.mem_map.1 hway
    split
    · exact hnext
    · exact hkept k hk
  · rcases List.mem_append.1 hway with hway | hway
    · exact hkept way hway
    · exact List.mem_singleton.1 hway ▸ hnext

/-- A symbol made of others, the extras after it, and the stack before it. -/
structure CarriesReduction (T : Tree → Prop) (way : Subtree × List Subtree × Stack) : Prop where
  top : way.1.Carries T
  extras : ∀ e ∈ way.2.1, e.Carries T
  under : way.2.2.Carries T

theorem Stack.Carries.reductions (hT : Upward T) {s : Stack} (h : s.Carries T)
    (p : NumberedProduction) : ∀ way ∈ bestWays ((s.pops p.steps.size []).map fun (tops, under) =>
      let (parts, extras) := splitExtras tops
      (reduceParts lang p parts, extras, under)), CarriesReduction T way := by
  intro way hway
  obtain ⟨⟨tops, under⟩, hpop, rfl⟩ := List.mem_map.1 (mem_of_mem_bestWays way hway)
  obtain ⟨htops, hunder⟩ := h.pops _ (List.forall_mem_nil _) _ hpop
  obtain ⟨hparts, hextras⟩ := mem_of_mem_splitExtras tops
  exact ⟨carries_reduceParts hT p fun s hs => htops s (hparts s hs),
    fun e he => htops e (hextras e he), hunder⟩

structure Accepted.Carries (T : Tree → Prop) (a : Accepted) : Prop where
  before : a.before.Carries T
  top : a.top.Carries T
  after : ∀ s ∈ a.after, s.Carries T

structure Outcome.Carries (T : Tree → Prop) (o : Outcome) : Prop where
  heads : ∀ h ∈ o.heads, h.stack.Carries T
  accepted : ∀ a ∈ o.accepted, a.Carries T
  stuck : ∀ s ∈ o.stuck, s.1.Carries T

theorem Outcome.Carries.append {a b : Outcome} (ha : a.Carries T) (hb : b.Carries T) :
    (a.append b).Carries T where
  heads h hh := (List.mem_append.1 hh).elim (ha.heads h) (hb.heads h)
  accepted s hs := (List.mem_append.1 hs).elim (ha.accepted s) (hb.accepted s)
  stuck s hs := (List.mem_append.1 hs).elim (ha.stuck s) (hb.stuck s)

theorem Outcome.carries_heads {h : Head} (hh : h.stack.Carries T) :
    Outcome.Carries T { heads := [h] } := by
  constructor <;> simp [hh]

theorem Outcome.carries_accepted {a : Accepted} (ha : a.Carries T) :
    Outcome.Carries T { accepted := [a] } := by
  constructor <;> simp [ha]

theorem Outcome.carries_stuck {s : Stack} {token : Option Token} (hs : s.Carries T) :
    Outcome.Carries T { stuck := [(s, token)] } := by
  constructor <;> simp [hs]

theorem gives_takeToken (hT : Upward T) (fuel : Nat) (token : Token) {s : Stack} (h : s.Carries T) :
    Gives (Outcome.Carries T) (takeToken lang fuel token s) := by
  induction fuel generalizing token s with
  | zero => exact .pure (Outcome.carries_stuck h)
  | succ fuel ih =>
    have hstuck : Outcome.Carries T { stuck := [(s, some token)] } := Outcome.carries_stuck h
    rw [takeToken]
    refine .after _ fun actions => ?_
    split
    · split
      · have hempty : ∀ t ∈ ([] : List Subtree), t.Carries T := List.forall_mem_nil _
        exact .pure (Outcome.carries_accepted ⟨h, carries_reduceParts hT _ hempty, hempty⟩)
      · split
        · refine (gives_push _ (carries_leaf token true) h).bind fun s hs => ?_
          exact .pure (Outcome.carries_heads hs)
        · split
          · refine .after _ fun valid => ?_
            dsimp only
            split
            · exact ih _ h
            · exact .pure hstuck
          · exact .pure hstuck
    · -- each reduction adds to the outcome, and the shift comes last
      refine Gives.bind (P := Outcome.Carries T) (.loop ?_ fun i _ o ho => ?_) fun o ho => ?_
      · constructor <;> simp
      · dsimp only
        split
        · exact .pure ho
        · next p _ =>
          refine Gives.bind (P := Outcome.Carries T) (.loop ho fun way hway o ho => ?_) fun o ho =>
            .pure ho
          obtain ⟨htop, hextras, hunder⟩ := h.reductions hT p way hway
          split
          · refine .pure ⟨ho.heads, fun a ha => ?_, ho.stuck⟩
            rcases List.mem_append.1 ha with ha | ha
            · exact ho.accepted a ha
            · exact List.mem_singleton.1 ha ▸ ⟨hunder, htop, hextras⟩
          · refine .after _ fun next => ?_
            split
            · exact .pure ho
            · refine (gives_push _ htop hunder).bind fun s hs => ?_
              refine (gives_pushExtras hs hextras).bind fun s hs => ?_
              exact (ih token hs).bind fun more hmore => .pure (ho.append hmore)
      · dsimp only
        split
        · refine .after _ fun next => ?_
          split
          · exact .pure ho
          · refine (gives_push _ (carries_leaf token false) h).bind fun s hs => ?_
            exact .pure (ho.append (Outcome.carries_heads hs))
        · exact .pure ho

/-! ### Whole parses -/

theorem carries_addHead {heads : List Head} {h : Head} (hheads : ∀ g ∈ heads, g.stack.Carries T)
    (hh : h.stack.Carries T) : ∀ g ∈ addHead heads h, g.stack.Carries T := by
  induction heads with
  | nil => exact fun g hg => List.mem_singleton.1 hg ▸ hh
  | cons first rest ih =>
    have hfirst := hheads first List.mem_cons_self
    have hrest : ∀ g ∈ rest, g.stack.Carries T := fun g hg => hheads g (List.mem_cons_of_mem _ hg)
    rw [addHead]
    intro g hg
    split at hg
    · rcases List.mem_cons.1 hg with rfl | hg
      · exact hfirst.join joinDepth hh
      · exact hrest g hg
    · rcases List.mem_cons.1 hg with rfl | hg
      · exact hfirst
      · exact ih hrest g hg

theorem gives_follow (hT : Upward T) (fuel : Nat) {heads : List Head} {done : Outcome}
    (hheads : ∀ h ∈ heads, h.stack.Carries T) (hdone : done.Carries T) :
    Gives (Outcome.Carries T) (follow lang fuel heads done) := by
  induction fuel generalizing heads done with
  | zero => exact .pure hdone
  | succ fuel ih =>
    cases heads with
    | nil => exact .pure hdone
    | cons h hs =>
      rw [follow]
      refine Gives.bind (P := Outcome.Carries T) (.loop ?_ fun g hg o ho => ?_) fun o ho => ?_
      · constructor <;> simp
      · have hstack : g.stack.Carries T := hheads g (List.mem_filter.1 hg).1
        refine .after _ fun valid => ?_
        split
        · exact .pure (ho.append (Outcome.carries_stuck hstack))
        · exact (gives_takeToken hT _ _ hstack).bind fun more hmore => .pure (ho.append hmore)
      · refine ih ?_ ⟨List.forall_mem_nil _, fun a ha => ?_, ?_⟩
        · refine List.foldlRecOn (motive := fun hs : List Head => ∀ h ∈ hs, h.stack.Carries T) _ _
            (fun g hg => hheads g (List.mem_filter.1 hg).1) fun hs hhs g hg => ?_
          exact carries_addHead hhs (ho.heads g hg)
        · exact (List.mem_append.1 ha).elim (hdone.accepted a) (ho.accepted a)
        · dsimp only
          split
          · exact hdone.stuck
          · exact ho.stuck

theorem Outcome.Carries.best {o : Outcome} (h : o.Carries T) : ∀ s ∈ o.best, s.Carries T := by
  rw [Outcome.best]
  refine List.foldlRecOn (motive := fun best : Option Subtree => ∀ s ∈ best, s.Carries T) _ _
    (fun s hs => by cases hs) fun best hbest a ha s hs => ?_
  cases best with
  | none =>
    cases hs
    exact (h.accepted a ha).top
  | some b =>
    dsimp only at hs
    split at hs
    · cases hs
      exact (h.accepted a ha).top
    · exact hbest s hs

theorem carries_parse (hT : Upward T) (text : List Char) : (parse lang text).Carries T := by
  refine gives_follow hT _ (fun h hh => ?_) ?_ _
  · rw [List.mem_singleton.1 hh]
    exact trivial
  · constructor <;> simp

end CodeIndex.Parsing
