import CodeIndex.Text.Lines

/-! The laws of lines.  Splitting a text into its lines and joining lines are inverse to each other,
and a part of a text without line feeds lies in one of its lines. -/

namespace CodeIndex.Text

variable {cs ds line : List Char} {lines : List (List Char)}

theorem splitLines_ne_nil (cs : List Char) : splitLines cs ≠ [] := by
  cases cs with
  | nil => exact List.cons_ne_nil _ _
  | cons c rest =>
    unfold splitLines
    split
    · exact List.cons_ne_nil _ _
    · split <;> exact List.cons_ne_nil _ _

theorem splitLines_newline (cs : List Char) : splitLines ('\n' :: cs) = [] :: splitLines cs := by
  rw [splitLines, if_pos rfl]

theorem splitLines_cons {c : Char} (hc : c ≠ '\n') {first : List Char}
    (h : splitLines cs = first :: lines) : splitLines (c :: cs) = (c :: first) :: lines := by
  rw [splitLines, if_neg hc, h]

/-- A line feed ends the lines before it. -/
theorem splitLines_append_newline (cs ds : List Char) :
    splitLines (cs ++ '\n' :: ds) = splitLines cs ++ splitLines ds := by
  induction cs with
  | nil => exact splitLines_newline ds
  | cons c cs ih =>
    by_cases hc : c = '\n'
    · subst hc
      rw [List.cons_append, splitLines_newline, splitLines_newline, ih, List.cons_append]
    · obtain ⟨first, rest, hsplit⟩ := List.exists_cons_of_ne_nil (splitLines_ne_nil cs)
      have hboth : splitLines (cs ++ '\n' :: ds) = first :: (rest ++ splitLines ds) := by
        rw [ih, hsplit, List.cons_append]
      rw [List.cons_append, splitLines_cons hc hboth, splitLines_cons hc hsplit,
        List.cons_append]

theorem splitLines_of_not_mem (h : '\n' ∉ line) : splitLines line = [line] := by
  induction line with
  | nil => rfl
  | cons c rest ih =>
    have hc : c ≠ '\n' := fun hsame => h (hsame ▸ List.mem_cons_self)
    exact splitLines_cons hc (ih fun hmem => h (List.mem_cons_of_mem _ hmem))

theorem not_mem_of_mem_splitLines (h : line ∈ splitLines cs) : '\n' ∉ line := by
  induction cs generalizing line with
  | nil =>
    obtain rfl := List.mem_singleton.1 h
    exact List.not_mem_nil
  | cons c rest ih =>
    by_cases hc : c = '\n'
    · subst hc
      rw [splitLines_newline] at h
      rcases List.mem_cons.1 h with rfl | h
      · exact List.not_mem_nil
      · exact ih h
    · obtain ⟨first, lines, hsplit⟩ := List.exists_cons_of_ne_nil (splitLines_ne_nil rest)
      rw [splitLines_cons hc hsplit] at h
      rcases List.mem_cons.1 h with rfl | h
      · intro hmem
        rcases List.mem_cons.1 hmem with hsame | hmem
        · exact hc hsame.symm
        · exact ih (hsplit ▸ List.mem_cons_self) hmem
      · exact ih (hsplit ▸ List.mem_cons_of_mem _ h)

@[simp] theorem joinLines_nil : joinLines [] = [] := rfl

@[simp] theorem joinLines_singleton (line : List Char) : joinLines [line] = line := by
  simp [joinLines, List.intercalate]

theorem joinLines_cons (line next : List Char) (lines : List (List Char)) :
    joinLines (line :: next :: lines) = line ++ '\n' :: joinLines (next :: lines) := by
  simp [joinLines, List.intercalate]

/-- Two groups of lines, neither of them empty, are joined by one more line feed. -/
theorem joinLines_append {more : List (List Char)} (hlines : lines ≠ []) (hmore : more ≠ []) :
    joinLines (lines ++ more) = joinLines lines ++ '\n' :: joinLines more := by
  induction lines with
  | nil => exact absurd rfl hlines
  | cons first rest ih =>
    cases rest with
    | nil =>
      obtain ⟨next, more, rfl⟩ := List.exists_cons_of_ne_nil hmore
      rw [joinLines_singleton]
      exact joinLines_cons first next more
    | cons next rest =>
      rw [List.cons_append, List.cons_append, joinLines_cons, joinLines_cons, ← List.cons_append,
        ih (List.cons_ne_nil _ _), List.append_assoc, List.cons_append]

/-- Lines that are joined can be told apart again, if there are any. -/
theorem splitLines_joinLines (hne : lines ≠ []) (h : ∀ line ∈ lines, '\n' ∉ line) :
    splitLines (joinLines lines) = lines := by
  induction lines with
  | nil => exact absurd rfl hne
  | cons first rest ih =>
    have hfirst := splitLines_of_not_mem (h first List.mem_cons_self)
    cases rest with
    | nil => rw [joinLines_singleton, hfirst]
    | cons next rest =>
      have hrest := ih (List.cons_ne_nil _ _) fun line hline => h line (List.mem_cons_of_mem _ hline)
      rw [joinLines_cons, splitLines_append_newline, hfirst, hrest]
      rfl

theorem joinLines_splitLines (cs : List Char) : joinLines (splitLines cs) = cs := by
  induction cs with
  | nil => rfl
  | cons c rest ih =>
    obtain ⟨first, lines, hsplit⟩ := List.exists_cons_of_ne_nil (splitLines_ne_nil rest)
    rw [hsplit] at ih
    by_cases hc : c = '\n'
    · subst hc
      rw [splitLines_newline, hsplit, joinLines_cons, ih]
      rfl
    · rw [splitLines_cons hc hsplit]
      cases lines with
      | nil => rw [joinLines_singleton] at ih ⊢; rw [ih]
      | cons next lines =>
        rw [joinLines_cons] at ih ⊢
        rw [List.cons_append, ih]

/-- A text is the lines joined exactly if those are its lines. -/
theorem eq_joinLines_iff (hne : lines ≠ []) (h : ∀ line ∈ lines, '\n' ∉ line) :
    cs = joinLines lines ↔ splitLines cs = lines := by
  constructor
  · rintro rfl
    exact splitLines_joinLines hne h
  · rintro rfl
    exact (joinLines_splitLines cs).symm

theorem isInfix_joinLines (h : line ∈ lines) : line <:+: joinLines lines := by
  induction lines with
  | nil => exact absurd h List.not_mem_nil
  | cons first rest ih =>
    cases rest with
    | nil =>
      obtain rfl := List.mem_singleton.1 h
      simp
    | cons next rest =>
      rw [joinLines_cons]
      rcases List.mem_cons.1 h with rfl | h
      · exact (List.prefix_append _ _).isInfix
      · have hrest : joinLines (next :: rest) <:+ first ++ '\n' :: joinLines (next :: rest) :=
          (List.suffix_cons _ _).trans (List.suffix_append _ _)
        exact (ih h).trans hrest.isInfix

theorem isInfix_of_mem_splitLines (h : line ∈ splitLines cs) : line <:+: cs := by
  have hjoined := isInfix_joinLines h
  rwa [joinLines_splitLines] at hjoined

/-- A text that starts without line feeds has that start in its first line. -/
theorem splitLines_append_of_not_mem (h : '\n' ∉ line) (ds : List Char) :
    ∃ first lines, splitLines (line ++ ds) = first :: lines ∧ line <+: first := by
  induction line with
  | nil =>
    obtain ⟨first, lines, hsplit⟩ := List.exists_cons_of_ne_nil (splitLines_ne_nil ds)
    exact ⟨first, lines, hsplit, List.nil_prefix⟩
  | cons c line ih =>
    have hc : c ≠ '\n' := fun hsame => h (hsame ▸ List.mem_cons_self)
    obtain ⟨first, lines, hsplit, hstart⟩ := ih fun hmem => h (List.mem_cons_of_mem _ hmem)
    refine ⟨c :: first, lines, splitLines_cons hc hsplit, ?_⟩
    exact List.prefix_cons_inj c |>.2 hstart

/-- A part of a text without line feeds lies in one of the lines. -/
theorem exists_line_of_isInfix (h : line <:+: cs) (hline : '\n' ∉ line) :
    ∃ whole ∈ splitLines cs, line <:+: whole := by
  obtain ⟨before, after, rfl⟩ := h
  induction before with
  | nil =>
    obtain ⟨first, lines, hsplit, hstart⟩ := splitLines_append_of_not_mem hline after
    rw [List.nil_append, hsplit]
    exact ⟨first, List.mem_cons_self, hstart.isInfix⟩
  | cons c before ih =>
    obtain ⟨whole, hwhole, hpart⟩ := ih
    rw [List.cons_append, List.cons_append]
    by_cases hc : c = '\n'
    · subst hc
      rw [splitLines_newline]
      exact ⟨whole, List.mem_cons_of_mem _ hwhole, hpart⟩
    · obtain ⟨first, lines, hsplit⟩ :=
        List.exists_cons_of_ne_nil (splitLines_ne_nil (before ++ line ++ after))
      rw [splitLines_cons hc hsplit]
      rw [hsplit] at hwhole
      rcases List.mem_cons.1 hwhole with rfl | hwhole
      · exact ⟨c :: whole, List.mem_cons_self, hpart.trans (List.suffix_cons _ _).isInfix⟩
      · exact ⟨whole, List.mem_cons_of_mem _ hwhole, hpart⟩

/-! ### Places of lines -/

@[simp] theorem newlines_nil : newlines [] = 0 := rfl

@[simp] theorem newlines_append (cs ds : List Char) :
    newlines (cs ++ ds) = newlines cs + newlines ds :=
  List.count_append

theorem newlines_newline (cs : List Char) : newlines ('\n' :: cs) = newlines cs + 1 :=
  List.count_cons_self

theorem newlines_cons {c : Char} (hc : c ≠ '\n') (cs : List Char) :
    newlines (c :: cs) = newlines cs :=
  List.count_cons_of_ne hc

theorem length_splitLines (cs : List Char) : (splitLines cs).length = newlines cs + 1 := by
  induction cs with
  | nil => rfl
  | cons c cs ih =>
    by_cases hc : c = '\n'
    · subst hc
      rw [splitLines_newline, List.length_cons, ih, newlines_newline]
    · obtain ⟨first, lines, hsplit⟩ := List.exists_cons_of_ne_nil (splitLines_ne_nil cs)
      rw [splitLines_cons hc hsplit, newlines_cons hc, ← ih, hsplit, List.length_cons,
        List.length_cons]

/-- A line stays where it is when more text follows; the last one may become longer. -/
theorem exists_line_append {n : Nat} (h : (splitLines cs)[n]? = some line) (ds : List Char) :
    ∃ whole, (splitLines (cs ++ ds))[n]? = some whole ∧ line <+: whole := by
  induction cs generalizing n line with
  | nil =>
    obtain ⟨first, lines, hsplit⟩ := List.exists_cons_of_ne_nil (splitLines_ne_nil ds)
    cases n with
    | zero =>
      obtain rfl := Option.some.inj h
      exact ⟨first, by rw [List.nil_append, hsplit]; rfl, List.nil_prefix⟩
    | succ n => cases h
  | cons c cs ih =>
    rw [List.cons_append]
    by_cases hc : c = '\n'
    · subst hc
      rw [splitLines_newline] at h ⊢
      cases n with
      | zero => exact ⟨line, h, List.prefix_rfl⟩
      | succ n => exact ih h
    · obtain ⟨first, lines, hsplit⟩ := List.exists_cons_of_ne_nil (splitLines_ne_nil cs)
      obtain ⟨first', lines', hsplit'⟩ := List.exists_cons_of_ne_nil (splitLines_ne_nil (cs ++ ds))
      rw [splitLines_cons hc hsplit] at h
      rw [splitLines_cons hc hsplit']
      rw [hsplit, hsplit'] at ih
      cases n with
      | zero =>
        obtain rfl := Option.some.inj h
        obtain ⟨whole, hwhole, hstart⟩ := ih (n := 0) rfl
        obtain rfl := Option.some.inj hwhole
        exact ⟨c :: first', rfl, (List.prefix_cons_inj c).2 hstart⟩
      | succ n => exact ih (n := n + 1) h

/-- A line moves down by the line feeds of the text before it; the first one may become longer. -/
theorem exists_line_prepend {n : Nat} (h : (splitLines ds)[n]? = some line) (cs : List Char) :
    ∃ whole, (splitLines (cs ++ ds))[newlines cs + n]? = some whole ∧ line <:+ whole := by
  induction cs with
  | nil => exact ⟨line, by rw [newlines_nil, Nat.zero_add]; exact h, List.suffix_rfl⟩
  | cons c cs ih =>
    obtain ⟨whole, hwhole, hend⟩ := ih
    rw [List.cons_append]
    by_cases hc : c = '\n'
    · subst hc
      rw [splitLines_newline, newlines_newline, Nat.add_right_comm]
      exact ⟨whole, hwhole, hend⟩
    · obtain ⟨first, lines, hsplit⟩ := List.exists_cons_of_ne_nil (splitLines_ne_nil (cs ++ ds))
      rw [splitLines_cons hc hsplit, newlines_cons hc]
      rw [hsplit] at hwhole
      cases hplace : newlines cs + n with
      | zero =>
        rw [hplace] at hwhole
        obtain rfl := Option.some.inj hwhole
        exact ⟨c :: first, rfl, hend.trans (List.suffix_cons _ _)⟩
      | succ m =>
        rw [hplace] at hwhole
        exact ⟨whole, hwhole, hend⟩

/-- Each line of a part of a text lies in a line of the text, as far down as the line feeds before
the part. -/
theorem exists_line_of_part {n : Nat} (h : (splitLines cs)[n]? = some line)
    (before after : List Char) :
    ∃ whole, (splitLines (before ++ cs ++ after))[newlines before + n]? = some whole ∧
      line <:+: whole := by
  obtain ⟨middle, hmiddle, hend⟩ := exists_line_prepend h before
  obtain ⟨whole, hwhole, hstart⟩ := exists_line_append hmiddle after
  exact ⟨whole, hwhole, hend.isInfix.trans hstart.isInfix⟩

end CodeIndex.Text
