import CodeIndex.JavaScript.Parser
import CodeIndex.Proofs.Parsing.Start

/-! Texts without tokens.  White space and the marks that count as such are a program: the lexer
finds nothing but the end of the text, and the start rule may be empty. -/

namespace CodeIndex.JavaScript

open CodeIndex.Parsing CodeIndex.Syntax

/-! ### The start of a text -/

/-- The end of the text and terminals that stand inside others, with the lists of these. -/
def inside : List String := [
  Table.finishName, "automatic_semicolon", "template_chars", "regex_pattern", "double_fragment",
  "single_fragment", "jsx_text", "jsx_double_fragment", "jsx_single_fragment", "_double_quoted",
  "_single_quoted", "_template_parts", "_jsx_children", "_jsx_double_quoted",
  "_jsx_single_quoted"]

theorem leftFree_inside : grammar.LeftFree inside := by decide +kernel

theorem avoids_start : grammar.Avoids inside (grammar.firstOf grammar.start) :=
  Grammar.avoids_start (by decide) leftFree_inside

theorem opening_language : language.opening = [(0, TokenSet.single table.finish)] := by
  have hopening : language.opening = [(table.opening, TokenSet.single table.finish)] := rfl
  rw [hopening, table, grammar.opening_ofGrammar]

/-- The terminals that are allowed at the start of a text. -/
def startSet : TokenSet := Automaton.validIn table language.opening

/-- Nothing that stands inside other tokens starts a text, nor does its end. -/
theorem not_mem_startSet {name : String} (h : name ∈ inside) :
    TokenSet.mem (grammar.number name) startSet = false := by
  rw [startSet, opening_language, table, grammar.validIn_opening]
  exact (Grammar.avoids_empty.union avoids_start).not_mem (by decide) h

theorem resolve_finish :
    Automaton.resolve table language.opening table.finish = ⟨[], false⟩ := by
  rw [opening_language, table, grammar.finish_ofGrammar]
  exact grammar.resolve_opening _ (avoids_start.not_mem (by decide) (by decide))

/-! ### Gaps -/

/-- A character of a gap is none of those that tokens are made of. -/
theorem ne_of_isGap {c d : Char} (hc : isGap c = true) (hd : isGap d = false) : c ≠ d := by
  rintro rfl
  rw [hc] at hd
  cases hd

theorem isLetter_of_isGap {c : Char} (hc : isGap c = true) : ¬ ('a' ≤ c && c ≤ 'z') = true := by
  have hletters : ∀ n < 123, 97 ≤ n → isGap (Char.ofNat n) = false := by decide
  rw [Bool.and_eq_true, decide_eq_true_eq, decide_eq_true_eq]
  rintro ⟨hlow, hhigh⟩
  have hletter := hletters c.toNat (Nat.lt_succ_of_le hhigh) hlow
  rw [Char.ofNat_toNat, hc] at hletter
  cases hletter

section

variable {t : Terminals} {valid : TokenSet} {c : Cursor} {cs : List Char}

theorem rest_skipWhile_gap (p : Char → Bool) (h : ∀ d ∈ c.rest, isGap d = true) :
    ∀ d ∈ (skipWhile p c).rest, isGap d = true :=
  fun d hd => h d (List.mem_of_mem_drop hd)

theorem ternaryAt_gap (h : ∀ d ∈ c.rest, isGap d = true) : ternaryAt t c = none := by
  have hrest := rest_skipWhile_gap isPlainSpace h
  rw [ternaryAt]
  cases hcs : (skipWhile isPlainSpace c).rest with
  | nil => rfl
  | cons d rest =>
    have hd : d ≠ '?' := ne_of_isGap (hrest d (hcs ▸ List.mem_cons_self)) (by decide)
    simp [hd]

theorem htmlCommentAt_gap (h : ∀ d ∈ c.rest, isGap d = true) : htmlCommentAt t c = none := by
  rw [htmlCommentAt]
  have hrest := rest_skipWhile_gap
    (fun d => isPlainSpace d || d == '\u2028' || d == '\u2029') h
  cases hcs : (skipWhile (fun d => isPlainSpace d || d == '\u2028' || d == '\u2029') c).rest with
  | nil => simp
  | cons d rest =>
    have hd := hrest d (hcs ▸ List.mem_cons_self)
    have hless : d ≠ '<' := ne_of_isGap hd (by decide)
    have hdash : d ≠ '-' := ne_of_isGap hd (by decide)
    simp [hless.symm, hdash.symm]

/-- None of the terminals that stand inside others is allowed. -/
structure Outside (t : Terminals) (valid : TokenSet) : Prop where
  semicolon : valid.mem t.semicolon = false
  templateChars : valid.mem t.templateChars = false
  regexPattern : valid.mem t.regexPattern = false
  doubleFragment : valid.mem t.doubleFragment = false
  singleFragment : valid.mem t.singleFragment = false
  jsxText : valid.mem t.jsxText = false
  jsxDouble : valid.mem t.jsxDouble = false
  jsxSingle : valid.mem t.jsxSingle = false

theorem contextToken_gap (hout : Outside t valid) (h : ∀ d ∈ c.rest, isGap d = true) :
    contextToken t valid c = none := by
  simp only [contextToken, hout.templateChars, hout.jsxText, hout.semicolon, ternaryAt_gap h,
    htmlCommentAt_gap h, Bool.false_eq_true, if_false, ite_self]

theorem escapeLength_gap (h : ∀ d ∈ cs, isGap d = true) : escapeLength cs = none := by
  unfold escapeLength
  split
  · next d rest =>
    exact absurd rfl (ne_of_isGap (h _ List.mem_cons_self) (by decide))
  · rfl

theorem immediate_gap (hout : Outside t valid) (h : ∀ d ∈ cs, isGap d = true) :
    immediate t valid cs = [] := by
  have hslash : cs.head? ≠ some '/' := fun hhead =>
    ne_of_isGap (h _ (List.mem_of_mem_head? hhead)) (by decide) rfl
  have hflags : cs.takeWhile (fun c => 'a' ≤ c && c ≤ 'z') = [] := by
    cases cs with
    | nil => rfl
    | cons d rest =>
      exact List.takeWhile_cons_of_neg (isLetter_of_isGap (h d List.mem_cons_self))
  simp only [immediate, candidate, hout.doubleFragment, hout.singleFragment, hout.jsxDouble,
    hout.jsxSingle, hout.regexPattern, escapeLength_gap h, if_neg hslash, hflags, List.length_nil,
    positive, if_true, Option.bind_none, Bool.false_eq_true, if_false, ite_self,
    List.filterMap_cons_none, List.filterMap_nil, id]

theorem nextToken_gap (hout : Outside t valid) (hne : cs ≠ []) (h : ∀ d ∈ cs, isGap d = true) :
    nextToken t valid ⟨0, cs⟩ = some (tokenAt t.table.finish ⟨cs.length, []⟩ 0) := by
  have hafter : skipWhile isGap ⟨0, cs⟩ = ⟨cs.length, []⟩ := by
    have hall : cs.takeWhile isGap = cs := by
      rw [← List.append_nil cs, List.takeWhile_append_of_pos h, List.takeWhile_nil]
    rw [skipWhile, hall, skip, List.drop_length, Nat.zero_add]
  have hmoved : cs.length ≠ 0 := fun hlength => hne (List.length_eq_zero_iff.1 hlength)
  rw [nextToken, contextToken_gap hout h, Option.none_or, plainToken]
  simp only [hafter, immediate_gap hout h, if_neg hmoved, best, List.isEmpty_nil, if_true]

end

/-! ### Texts of gaps -/

theorem symbol_tokenAt (symbol : Nat) (c : Cursor) (n : Nat) :
    (tokenAt symbol c n).symbol = symbol := rfl

theorem table_language : language.table = table := rfl

theorem lex_language : language.lex = nextToken terminals := rfl

theorem table_ofTable (t : Table) : (Terminals.ofTable t).table = t := rfl

theorem table_terminals : terminals.table = table := table_ofTable table

theorem outside_ofGrammar {g : Grammar} {valid : TokenSet}
    (h : ∀ name ∈ inside, TokenSet.mem (g.number name) valid = false) :
    Outside (Terminals.ofTable (Table.ofGrammar g)) valid where
  semicolon := h "automatic_semicolon" (by decide)
  templateChars := h "template_chars" (by decide)
  regexPattern := h "regex_pattern" (by decide)
  doubleFragment := h "double_fragment" (by decide)
  singleFragment := h "single_fragment" (by decide)
  jsxText := h "jsx_text" (by decide)
  jsxDouble := h "jsx_double_fragment" (by decide)
  jsxSingle := h "jsx_single_fragment" (by decide)

theorem outside_start : Outside terminals startSet :=
  outside_ofGrammar fun _ => not_mem_startSet

theorem hidden_start : table.hidden.getD table.start false = false := by
  rw [table, Grammar.hidden_start]
  decide +kernel

theorem kind_start : table.kinds.getD table.start "" = "program" := by
  rw [table, Grammar.kind_start]
  decide +kernel

/-- The node of a program without statements. -/
def emptyProgram : Tree := Tree.branch "program" 0 0 []

/-- Stated of the function: at a text the kernel would run the parser to compare the two sides. -/
theorem parse_eq : parse = fun text =>
    match (Parsing.parse language text).best.bind (·.trees.head?) with
    | some tree => .ok tree
    | none => .error (.of text (faultOffset text)) := rfl

theorem parse_of_best {text : List Char} {top : Subtree} {tree : Tree}
    (hbest : (Parsing.parse language text).best = some top) (htrees : top.trees = [tree]) :
    parse text = .ok tree := by
  rw [parse_eq]
  simp only [hbest, Option.bind_some, htrees, List.head?_cons]

/-- A text of gaps is a program without statements. -/
theorem parse_gap {text : List Char} (hne : text ≠ []) (h : ∀ c ∈ text, isGap c = true) :
    parse text = .ok emptyProgram := by
  have hlex : language.lex (Automaton.validIn language.table language.opening) ⟨0, text⟩ =
      some (tokenAt terminals.table.finish ⟨text.length, []⟩ 0) := by
    rw [lex_language, table_language, ← startSet, nextToken_gap outside_start hne h]
  have hsymbol : (tokenAt terminals.table.finish ⟨text.length, []⟩ 0).symbol =
      language.table.finish := by
    rw [symbol_tokenAt, table_terminals, table_language]
  have hbest := best_parse_of_finish hlex hsymbol (by rw [table_language, resolve_finish])
  rw [table_language] at hbest
  refine parse_of_best hbest ?_
  rw [trees_reduceParts_nil (by rw [table_language, hidden_start]), table_language, kind_start,
    emptyProgram]

end CodeIndex.JavaScript
