import CodeIndex.Parsing.Run

/-! The start of a parse.  Every name of a grammar has a number of its own, and the terminals that
can come first are those at the left edge of the start rule: names that are never reached at a left
edge are not among them.  A text that ends before its first token is an empty start rule, if the end
of the text is not itself such a terminal. -/

namespace CodeIndex.Parsing

open CodeIndex.Syntax

namespace Table

/-! ### Numbers -/

/-- Names with numbers that are their places. -/
abbrev Numbering := Array String × Std.HashMap String Nat

def Numbering.Placed (n : Numbering) : Prop :=
  ∀ (name : String) (i : Nat), n.2[name]? = some i → n.1[i]? = some name

theorem Numbering.Placed.inj {n : Numbering} (h : n.Placed) {a b : String} {i : Nat}
    (ha : n.2[a]? = some i) (hb : n.2[b]? = some i) : a = b :=
  Option.some.inj ((h a i ha).symm.trans (h b i hb))

theorem collect_cons (n : Numbering) (name : String) (rest : List String) :
    collect n (name :: rest) =
      collect (if n.2.contains name then n else (n.1.push name, n.2.insert name n.1.size)) rest :=
  rfl

theorem placed_collect {n : Numbering} (h : n.Placed) (more : List String) :
    Numbering.Placed (collect n more) := by
  induction more generalizing n with
  | nil => exact h
  | cons name rest ih =>
    rw [collect_cons]
    refine ih ?_
    by_cases hknown : n.2.contains name = true
    · rwa [if_pos hknown]
    · rw [if_neg hknown]
      intro other i hother
      rw [Std.HashMap.getElem?_insert] at hother
      split at hother
      · next hsame =>
        cases hother
        rw [Array.getElem?_push_size, eq_of_beq hsame]
      · obtain ⟨hlt, hplace⟩ := Array.getElem?_eq_some_iff.1 (h other i hother)
        rw [Array.getElem?_push_lt hlt, hplace]

/-- A name keeps its number. -/
theorem getElem?_collect {n : Numbering} {name : String} {i : Nat} (h : n.2[name]? = some i)
    (more : List String) : (collect n more).2[name]? = some i := by
  induction more generalizing n with
  | nil => exact h
  | cons head rest ih =>
    rw [collect_cons]
    refine ih ?_
    by_cases hknown : n.2.contains head = true
    · rwa [if_pos hknown]
    · rw [if_neg hknown, Std.HashMap.getElem?_insert]
      split
      · next hsame =>
        rw [Std.HashMap.contains_eq_isSome_getElem?, eq_of_beq hsame, h] at hknown
        exact absurd rfl hknown
      · exact h

theorem contains_collect (n : Numbering) (more : List String) (name : String) :
    (collect n more).2.contains name = true ↔ n.2.contains name = true ∨ name ∈ more := by
  induction more generalizing n with
  | nil => simp [collect]
  | cons head rest ih =>
    rw [collect_cons, ih, List.mem_cons]
    by_cases hknown : n.2.contains head = true
    · rw [if_pos hknown]
      constructor
      · exact fun h => h.imp_right .inr
      · rintro (h | rfl | h)
        · exact .inl h
        · exact .inl hknown
        · exact .inr h
    · rw [if_neg hknown, Std.HashMap.contains_insert, Bool.or_eq_true, beq_iff_eq, or_assoc]
      exact ⟨fun h => h.elim (fun h => .inr (.inl h.symm)) fun h => h.imp_right .inr,
        fun h => h.elim (fun h => .inr (.inl h)) fun h => h.imp Eq.symm .inr⟩

theorem settle_induction {α : Type} {changed : α → α → Bool} {f : α → α} (motive : α → Prop)
    (step : ∀ a, motive a → motive (f a)) (steps : Nat) {a : α} (h : motive a) :
    motive (settle changed f steps a) := by
  induction steps generalizing a with
  | zero => exact h
  | succ steps ih =>
    rw [settle]
    split
    · exact ih (step a h)
    · exact step a h

end Table

namespace Grammar

variable (g : Grammar)

/-! ### The parts of a table -/

/-- The production of a whole text. -/
def opening : Production := ⟨Table.wholeName, ⟨[⟨g.start, .none, none, false⟩], 0⟩⟩

/-- The rules that have productions. -/
def ruleNames : List String :=
  Table.wholeName ::
    ((g.rules.map (·.1)).filter (!g.inlined.contains ·) ++ g.lists.map (·.1))

/-- The symbols of productions that are no rules. -/
def leaves : List String :=
  let isRule := g.ruleNames.foldl (fun (s : Std.HashMap String Unit) r => s.insert r ()) {}
  ((g.opening :: g.productions).flatMap fun p => p.path.steps.map (·.symbol)).filter
    (!isRule.contains ·)

/-- The terminals with their numbers. -/
def terminalNumbering : Table.Numbering :=
  Table.collect (#[], {})
    ([Table.finishName, Table.anyWordName, g.word] ++ g.extras ++ g.leaves ++ g.reserved)

def numbering : Table.Numbering := Table.collect g.terminalNumbering g.ruleNames

def number (name : String) : Nat := g.numbering.2.getD name 0

/-- What each rule can start with. -/
def firsts : Array TokenSet :=
  Table.settle (fun a b => a != b)
    (Table.firstRound g.terminalNumbering.1.size
      ((g.opening :: g.productions).map fun p =>
        (g.number p.rule, p.path.steps.map fun s => (g.number s.symbol, s.unreserved))).toArray
      (g.number Table.anyWordName))
    g.numbering.1.size (Array.replicate g.numbering.1.size TokenSet.empty)

/-- What a symbol can start with. -/
def firstOf (name : String) : TokenSet :=
  if g.number name < g.terminalNumbering.1.size then TokenSet.single (g.number name)
  else g.firsts.getD (g.number name) 0

theorem opening_ofGrammar : (Table.ofGrammar g).opening = 0 := rfl

theorem finish_ofGrammar : (Table.ofGrammar g).finish = g.number Table.finishName := rfl

/-- The step before a whole text asks for what the start rule can start with. -/
theorem stepAt_opening :
    ∃ s, Automaton.stepAt (Table.ofGrammar g) 0 = some s ∧ s.first = g.firstOf g.start := by
  -- both arrays are only added to, so that their first entries are the opening's
  have hproductions : (Table.ofGrammar g).productions[0]? =
      some ⟨g.number Table.wholeName,
        #[⟨g.number g.start, .none, none, g.firstOf g.start⟩], 0, 0⟩ := by
    refine List.foldlRecOn (motive := fun s : Array NumberedProduction × Nat => s.1[0]? = some _)
      g.productions _ rfl fun s hs p _ => ?_
    obtain ⟨hlt, hfirst⟩ := Array.getElem?_eq_some_iff.1 hs
    exact (Array.getElem?_push_lt hlt).trans (congrArg some hfirst)
  have hplaces : (Table.ofGrammar g).places[0]? = some 0 := by
    have hfold : (Table.ofGrammar g).places =
        (Table.ofGrammar g).productions.toList.zipIdx.foldl
          (fun places p => places ++ Array.replicate (p.1.steps.size + 1) p.2) #[] := rfl
    rw [hfold]
    cases hlist : (Table.ofGrammar g).productions.toList with
    | nil => simp [← Array.getElem?_toList, hlist] at hproductions
    | cons p rest =>
      rw [List.zipIdx_cons, List.foldl_cons]
      refine List.foldlRecOn (motive := fun s : Array Nat => s[0]? = some 0)
        _ _ (by simp) fun s hs p _ => ?_
      rw [Array.getElem?_append_left (Array.getElem?_eq_some_iff.1 hs).1, hs]
  refine ⟨⟨g.number g.start, .none, none, g.firstOf g.start⟩, ?_, rfl⟩
  rw [Automaton.stepAt, Automaton.productionAt, Array.getD_eq_getD_getElem?,
    Array.getD_eq_getD_getElem?, hplaces, Option.getD_some, hproductions]
  rfl

theorem validIn_opening (follow : TokenSet) :
    Automaton.validIn (Table.ofGrammar g) [(0, follow)] =
      TokenSet.empty.union (g.firstOf g.start) := by
  obtain ⟨s, hs, hfirst⟩ := g.stepAt_opening
  simp only [Automaton.validIn, List.foldl_cons, List.foldl_nil, hs, hfirst]

/-- Before a terminal that cannot come first there is nothing to do. -/
theorem resolve_opening (follow : TokenSet) {terminal : Nat}
    (h : TokenSet.mem terminal (g.firstOf g.start) = false) :
    Automaton.resolve (Table.ofGrammar g) [(0, follow)] terminal = ⟨[], false⟩ := by
  obtain ⟨s, hs, hfirst⟩ := g.stepAt_opening
  simp only [Automaton.resolve, List.foldl_cons, List.foldl_nil, hs, List.filter_cons, hfirst, h,
    Bool.false_eq_true, if_false, List.filter_nil, List.isEmpty_nil, if_true]

theorem hidden_ofGrammar :
    (Table.ofGrammar g).hidden = g.numbering.1.map fun n =>
      n == Table.wholeName || g.hidden.contains n || (g.lists.lookup n).isSome := rfl

theorem kinds_ofGrammar :
    (Table.ofGrammar g).kinds = g.numbering.1.map fun n => (g.kinds.lookup n).getD n := rfl

/-! ### Names that are never first -/

variable {g} {avoided : List String}

theorem placed_numbering : g.numbering.Placed :=
  Table.placed_collect (Table.placed_collect (fun _ _ h => by simp at h) _) _

theorem number_eq {name : String} {i : Nat} (h : g.numbering.2[name]? = some i) :
    g.number name = i := by
  rw [number, Std.HashMap.getD_eq_getD_getElem?, h, Option.getD_some]

theorem exists_number {name : String} (h : g.numbering.2.contains name = true) :
    g.numbering.2[name]? = some (g.number name) := by
  rw [Std.HashMap.contains_eq_isSome_getElem?, Option.isSome_iff_exists] at h
  obtain ⟨i, hi⟩ := h
  rw [hi, number_eq hi]

theorem contains_foldl_insert {names : List String} {name : String} :
    (names.foldl (fun (s : Std.HashMap String Unit) r => s.insert r ()) {}).contains name = true ↔
      name ∈ names := by
  suffices h : ∀ s : Std.HashMap String Unit,
      (names.foldl (fun s r => s.insert r ()) s).contains name = true ↔
        s.contains name = true ∨ name ∈ names by
    simpa using h {}
  induction names with
  | nil => simp
  | cons head rest ih =>
    intro s
    rw [List.foldl_cons, ih, Std.HashMap.contains_insert, Bool.or_eq_true, beq_iff_eq,
      List.mem_cons, or_comm (a := head = name), or_assoc, eq_comm (a := head)]

theorem contains_rule {p : Production} (h : p ∈ g.opening :: g.productions) :
    g.numbering.2.contains p.rule = true := by
  refine (Table.contains_collect _ _ _).2 (.inr ?_)
  rcases List.mem_cons.1 h with rfl | h
  · exact List.mem_cons_self
  · refine List.mem_cons_of_mem _ (List.mem_append.2 ?_)
    rcases List.mem_append.1 h with h | h
    · obtain ⟨⟨name, r⟩, hr, hp⟩ := List.mem_flatMap.1 h
      obtain ⟨path, -, rfl⟩ := List.mem_map.1 hp
      obtain ⟨hrule, hkept⟩ := List.mem_filter.1 hr
      exact .inl (List.mem_filter.2 ⟨List.mem_map.2 ⟨_, hrule, rfl⟩, hkept⟩)
    · obtain ⟨⟨name, r⟩, hr, hp⟩ := List.mem_flatMap.1 h
      obtain ⟨path, -, hp⟩ := List.mem_flatMap.1 hp
      refine .inr (List.mem_map.2 ⟨_, hr, ?_⟩)
      rcases List.mem_cons.1 hp with rfl | hp
      · rfl
      · rw [List.mem_singleton.1 hp]

theorem contains_symbol {p : Production} (h : p ∈ g.opening :: g.productions) {s : Step}
    (hs : s ∈ p.path.steps) : g.numbering.2.contains s.symbol = true := by
  refine (Table.contains_collect _ _ _).2 ?_
  by_cases hrule : s.symbol ∈ g.ruleNames
  · exact .inr hrule
  · refine .inl ((Table.contains_collect _ _ _).2 (.inr ?_))
    have hleaf : s.symbol ∈ g.leaves := by
      refine List.mem_filter.2
        ⟨List.mem_flatMap.2 ⟨p, h, List.mem_map.2 ⟨s, hs, rfl⟩⟩, ?_⟩
      rw [Bool.not_eq_true', Bool.eq_false_iff]
      exact fun hcontains => hrule (contains_foldl_insert.1 hcontains)
    simp only [List.mem_append, hleaf, or_true, true_or]

theorem number_finish : g.numbering.2[Table.finishName]? = some 0 := by
  have hfirst : g.terminalNumbering = Table.collect (#[], {}) (Table.finishName ::
      ([Table.anyWordName, g.word] ++ g.extras ++ g.leaves ++ g.reserved)) := rfl
  rw [numbering, hfirst, Table.collect_cons, if_neg (by simp)]
  exact Table.getElem?_collect (Table.getElem?_collect (by simp) _) _

theorem contains_anyWord : g.numbering.2.contains Table.anyWordName = true :=
  (Table.contains_collect _ _ _).2 (.inl ((Table.contains_collect _ _ _).2 (.inr (by simp))))

theorem contains_start : g.numbering.2.contains g.start = true :=
  contains_symbol (p := g.opening) List.mem_cons_self List.mem_cons_self

theorem name_start : g.numbering.1[(Table.ofGrammar g).start]? = some g.start :=
  placed_numbering _ _ (exists_number contains_start)

theorem hidden_start :
    (Table.ofGrammar g).hidden.getD (Table.ofGrammar g).start false =
      (g.start == Table.wholeName || g.hidden.contains g.start
        || (g.lists.lookup g.start).isSome) := by
  rw [hidden_ofGrammar, Array.getD_eq_getD_getElem?, Array.getElem?_map, name_start,
    Option.map_some, Option.getD_some]

theorem kind_start :
    (Table.ofGrammar g).kinds.getD (Table.ofGrammar g).start "" =
      (g.kinds.lookup g.start).getD g.start := by
  rw [kinds_ofGrammar, Array.getD_eq_getD_getElem?, Array.getElem?_map, name_start,
    Option.map_some, Option.getD_some]

/-- Only terminals with other names than the avoided ones are in a set. -/
def Avoids (g : Grammar) (avoided : List String) (set : TokenSet) : Prop :=
  ∀ i, TokenSet.mem i set = true → ∃ name, name ∉ avoided ∧ g.numbering.2[name]? = some i

theorem Avoids.union {a b : TokenSet} (ha : g.Avoids avoided a) (hb : g.Avoids avoided b) :
    g.Avoids avoided (a.union b) := by
  intro i hi
  rw [TokenSet.mem, TokenSet.union, Nat.testBit_or, Bool.or_eq_true] at hi
  exact hi.elim (ha i) (hb i)

/-- A name without a number is taken for the end of the text. -/
theorem Avoids.not_mem {set : TokenSet} (h : g.Avoids avoided set)
    (hfinish : Table.finishName ∈ avoided) {name : String} (hname : name ∈ avoided) :
    TokenSet.mem (g.number name) set = false := by
  rw [Bool.eq_false_iff]
  intro hmem
  obtain ⟨other, hother, hnumber⟩ := h _ hmem
  by_cases hknown : g.numbering.2.contains name = true
  · exact hother (placed_numbering.inj hnumber (exists_number hknown) ▸ hname)
  · rw [number, Std.HashMap.getD_eq_fallback_of_contains_eq_false (by simpa using hknown)]
      at hnumber
    exact hother (placed_numbering.inj hnumber number_finish ▸ hfinish)

theorem avoids_empty : g.Avoids avoided TokenSet.empty := by
  intro i hi
  simp [TokenSet.mem, TokenSet.empty] at hi

theorem avoids_single {name : String} (hname : name ∉ avoided)
    (h : g.numbering.2.contains name = true) :
    g.Avoids avoided (TokenSet.single (g.number name)) := by
  intro i hi
  rw [TokenSet.mem, TokenSet.single, Nat.one_shiftLeft, Nat.testBit_two_pow,
    decide_eq_true_eq] at hi
  exact ⟨name, hname, hi ▸ exists_number h⟩

theorem avoids_first {firsts : Array TokenSet} {name : String} (terminals : Nat)
    (hname : name ∉ avoided) (h : g.numbering.2.contains name = true)
    (hfirsts : g.Avoids avoided (firsts.getD (g.number name) 0)) :
    g.Avoids avoided (if g.number name < terminals then TokenSet.single (g.number name)
      else firsts.getD (g.number name) 0) := by
  split
  · exact avoids_single hname h
  · exact hfirsts

/-- A rule or list that is not avoided has no avoided name at the left edge of a way through it. -/
def LeftFree (g : Grammar) (avoided : List String) : Prop :=
  g.start ∉ avoided ∧
  (∀ r ∈ g.rules.filter fun r => !g.inlined.contains r.1, r.1 ∉ avoided →
    ∀ p ∈ r.2.paths (g.expand inlineDepth) {} true,
      ∀ s ∈ p.steps.head?, s.symbol ∉ avoided) ∧
  ∀ l ∈ g.lists, l.1 ∉ avoided → ∀ p ∈ l.2.paths (g.expand inlineDepth) {} true,
    ∀ s ∈ p.steps.head?, s.symbol ∉ avoided

instance : Decidable (g.LeftFree avoided) := by
  unfold LeftFree
  infer_instance

theorem LeftFree.head (h : g.LeftFree avoided) {p : Production}
    (hp : p ∈ g.opening :: g.productions) (hrule : p.rule ∉ avoided) {s : Step}
    (hs : p.path.steps.head? = some s) : s.symbol ∉ avoided := by
  obtain ⟨hstart, hrules, hlists⟩ := h
  rcases List.mem_cons.1 hp with rfl | hp
  · cases hs
    exact hstart
  · rcases List.mem_append.1 hp with hp | hp
    · obtain ⟨r, hr, hp⟩ := List.mem_flatMap.1 hp
      obtain ⟨path, hpath, rfl⟩ := List.mem_map.1 hp
      exact hrules r hr hrule path (List.mem_eraseDups.1 hpath) s hs
    · obtain ⟨l, hl, hp⟩ := List.mem_flatMap.1 hp
      obtain ⟨path, hpath, hp⟩ := List.mem_flatMap.1 hp
      rcases List.mem_cons.1 hp with rfl | hp
      · exact hlists l hl hrule path (List.mem_eraseDups.1 hpath) s hs
      · cases List.mem_singleton.1 hp
        cases hs
        exact hrule

/-- The rules that are not avoided start with terminals that are not avoided. -/
def Free (g : Grammar) (avoided : List String) (firsts : Array TokenSet) : Prop :=
  ∀ name, name ∉ avoided → g.numbering.2.contains name = true →
    g.Avoids avoided (firsts.getD (g.number name) 0)

theorem Free.firstRound (hword : Table.anyWordName ∉ avoided) (hfree : g.LeftFree avoided)
    (terminals : Nat) {firsts : Array TokenSet} (h : g.Free avoided firsts) :
    g.Free avoided (Table.firstRound terminals
      ((g.opening :: g.productions).map fun p =>
        (g.number p.rule, p.path.steps.map fun s => (g.number s.symbol, s.unreserved))).toArray
      (g.number Table.anyWordName) firsts) := by
  rw [Table.firstRound, List.foldl_toArray, List.foldl_map]
  refine List.foldlRecOn (motive := g.Free avoided) _ _ h fun firsts h p hp => ?_
  cases hsteps : p.path.steps with
  | nil => exact h
  | cons s rest =>
    intro name hname hknown
    have hold := h name hname hknown
    rw [Array.getD_eq_getD_getElem?] at hold
    simp only [List.map_cons]
    rw [Array.getD_eq_getD_getElem?, Array.getElem?_modify]
    split
    · next hsame =>
      have hrule : p.rule = name := placed_numbering.inj (exists_number (contains_rule hp))
        (hsame ▸ exists_number hknown)
      have hsymbol : s.symbol ∉ avoided :=
        hfree.head hp (hrule ▸ hname) (by rw [hsteps, List.head?_cons])
      have hsymbolKnown : g.numbering.2.contains s.symbol = true :=
        contains_symbol hp (by rw [hsteps]; exact List.mem_cons_self)
      have hstart := avoids_first terminals hsymbol hsymbolKnown (h _ hsymbol hsymbolKnown)
      cases hfirsts : firsts[g.number name]? with
      | none => exact avoids_empty
      | some set =>
        rw [hfirsts] at hold
        refine Avoids.union hold ?_
        split
        · exact hstart.union (avoids_single hword contains_anyWord)
        · exact hstart
    · exact hold

theorem free_firsts (hword : Table.anyWordName ∉ avoided) (hfree : g.LeftFree avoided) :
    g.Free avoided g.firsts := by
  refine Table.settle_induction _ (fun _ h => h.firstRound hword hfree _) _ ?_
  intro name _ _
  rw [Array.getD_eq_getD_getElem?, Array.getElem?_replicate]
  split <;> exact avoids_empty

/-- What a text can start with has none of the names that are never first. -/
theorem avoids_start (hword : Table.anyWordName ∉ avoided) (hfree : g.LeftFree avoided) :
    g.Avoids avoided (g.firstOf g.start) :=
  avoids_first _ hfree.1 contains_start (free_firsts hword hfree _ hfree.1 contains_start)

end Grammar

/-! ### Texts without tokens -/

section

variable {lang : Language}

/-- The places at which a text starts. -/
def Language.opening (lang : Language) : Kernel :=
  [(lang.table.opening, TokenSet.single lang.table.finish)]

/-- In the first state there is nothing to do before the end of the text. -/
theorem actionsAt_finish {p : Progress} (hp : p.automaton = lang.automaton)
    (h : Automaton.resolve lang.table lang.opening lang.table.finish = ⟨[], false⟩) :
    ∃ after, withAutomaton (Automaton.actionsAt lang.table 0 lang.table.finish) p =
      (⟨[], false⟩, after) := by
  have hnone : lang.automaton.actions[Automaton.key 0 lang.table.finish]? = none :=
    Std.HashMap.getElem?_empty
  have hkernel : lang.automaton.kernels.getD 0 [] = lang.opening := rfl
  rw [withAutomaton, hp, Automaton.actionsAt, hnone, hkernel, h]
  exact ⟨_, rfl⟩

/-- The start rule is empty when a text ends where it starts. -/
theorem takeToken_finish (fuel id : Nat) {token : Token} {p : Progress}
    (hsymbol : token.symbol = lang.table.finish) (hp : p.automaton = lang.automaton)
    (h : Automaton.resolve lang.table lang.opening lang.table.finish = ⟨[], false⟩) :
    ∃ after, takeToken lang (fuel + 1) token (.node id 0 .none) p =
      ({ accepted :=
        [⟨.node id 0 .none, reduceParts lang ⟨lang.table.start, #[], 0, 0⟩ [], []⟩] }, after) := by
  obtain ⟨after, hat⟩ := actionsAt_finish hp h
  refine ⟨after, ?_⟩
  rw [takeToken]
  simp only [bind, StateT.bind, Stack.state, hsymbol, hat]
  rfl

theorem trees_reduceParts_nil {rule : Nat} (h : lang.table.hidden.getD rule false = false) :
    (reduceParts lang ⟨rule, #[], 0, 0⟩ []).trees =
      [Tree.branch (lang.table.kinds.getD rule "") 0 0 []] := by
  simp [reduceParts, h, joinTrees]

theorem best_parse_of_finish {text : List Char} {token : Token}
    (hlex : lang.lex (Automaton.validIn lang.table lang.opening) ⟨0, text⟩ = some token)
    (hsymbol : token.symbol = lang.table.finish)
    (h : Automaton.resolve lang.table lang.opening lang.table.finish = ⟨[], false⟩) :
    (parse lang text).best = some (reduceParts lang ⟨lang.table.start, #[], 0, 0⟩ []) := by
  have hvalid : withAutomaton (Automaton.validAt 0) ⟨lang.automaton, 1⟩ =
      (Automaton.validIn lang.table lang.opening, ⟨lang.automaton, 1⟩) := rfl
  obtain ⟨after, htake⟩ := takeToken_finish 999 0 (p := ⟨lang.automaton, 1⟩) hsymbol rfl h
  rw [parse, parseFrom, follow]
  simp only [List.foldl_cons, List.foldl_nil, Nat.min_self, beq_self_eq_true, List.filter_cons,
    if_true, List.filter_nil, bne_self_eq_false, Bool.false_eq_true, if_false, List.forIn_cons,
    List.forIn_nil, Stack.state, bind, StateT.bind, hvalid, hlex]
  rw [htake]
  rfl

end

end CodeIndex.Parsing
