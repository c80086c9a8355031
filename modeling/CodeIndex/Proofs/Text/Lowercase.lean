import CodeIndex.Proofs.Text.Ranges
import CodeIndex.Proofs.Text.Words
import CodeIndex.Text.Lowercase

/-! Lower-casing.  A text can be lower-cased part by part, where each part has to know whether a cased
letter stands before it and what stands after it.  Lower-casing keeps apart what belongs to words and
what does not, so it makes words of words; and no letter looks across a line feed. -/

namespace CodeIndex.Text

variable {cased other : Bool} {cs ds before word after rest : List Char} {c : Char}

/-! ### Parts of texts -/

/-- The lower case of a character between two parts of a text. -/
def lowerLetter (cased : Bool) (after : List Char) (c : Char) : List Char :=
  if c = 'Σ' then [if cased && !startsCased after then 'ς' else 'σ'] else lowerChar c

/-- The lower case of a part of a text; `cased` tells whether a cased letter stands before it, and
`after` is what stands after it. -/
def lowerWithin (cased : Bool) (after : List Char) : List Char → List Char
  | [] => []
  | c :: rest =>
    lowerLetter cased (rest ++ after) c ++ lowerWithin (casedAfter cased c) after rest

/-- Whether the last character that is not ignorable is cased. -/
def endsCased (cs : List Char) : Bool := cs.foldl casedAfter false

theorem lowerOnto_eq (done : List Char) :
    lowerOnto cased done cs = done.reverse ++ lowerWithin cased [] cs := by
  induction cs generalizing cased done with
  | nil => rw [lowerOnto.eq_def, lowerWithin, List.append_nil]
  | cons c rest ih =>
    rw [lowerOnto.eq_def]
    dsimp only
    rw [ih, lowerWithin, List.append_nil, lowerLetter, List.reverse_append, List.reverse_reverse,
      List.append_assoc]

theorem lowercase_eq (cs : List Char) : lowercase cs = lowerWithin false [] cs :=
  lowerOnto_eq []

theorem lowerWithin_append (cs ds : List Char) :
    lowerWithin cased after (cs ++ ds) =
      lowerWithin cased (ds ++ after) cs ++ lowerWithin (cs.foldl casedAfter cased) after ds := by
  induction cs generalizing cased with
  | nil => rfl
  | cons c rest ih =>
    rw [List.cons_append, lowerWithin, ih, lowerWithin, List.append_assoc, List.append_assoc,
      List.foldl_cons]

theorem lowercase_append (before word after : List Char) :
    lowercase (before ++ (word ++ after)) = lowerWithin false (word ++ after) before ++
      (lowerWithin (endsCased before) after word ++
        lowerWithin (endsCased (before ++ word)) [] after) := by
  rw [lowercase_eq, lowerWithin_append, lowerWithin_append, List.append_nil, List.append_nil,
    endsCased, endsCased, List.foldl_append]

/-! ### Words -/

theorem wordRanges_ascending : wordRanges.toList.Pairwise Precedes :=
  List.isChain_iff_pairwise.1 (by decide +kernel)

/-- No range of words holds a surrogate. -/
theorem isValidChar_of_mem_wordRanges :
    ∀ r ∈ wordRanges.toList, r.2 < 0xD800 ∨ 0xDFFF < r.1 ∧ r.2 < 0x110000 := by
  decide +kernel

theorem isWord_of_inRanges (h : inRanges wordRanges c = true) : isWord c = true := by
  have hascii : ∀ n < 128, inRanges wordRanges (Char.ofNat n) = true →
      isWord (Char.ofNat n) = true := by
    decide +kernel
  by_cases hc : c.toNat < 128
  · rw [← Char.ofNat_toNat c]
    exact hascii _ hc (by rwa [Char.ofNat_toNat])
  · rwa [isWord, if_neg hc]

theorem isWord_ofNat {first last n : Nat} (h : spans wordRanges.toList first last = true)
    (hfirst : first ≤ n) (hlast : n ≤ last) : isWord (Char.ofNat n) = true := by
  have hvalid : n.isValidChar := by
    obtain ⟨r, hr, hheld⟩ := List.any_eq_true.1 h
    simp only [Bool.and_eq_true, Nat.ble_eq] at hheld
    have := isValidChar_of_mem_wordRanges r hr
    unfold Nat.isValidChar
    omega
  have hn : (Char.ofNat n).toNat = n := by
    rw [Char.ofNat, dif_pos hvalid]
    rfl
  exact isWord_of_inRanges (inRanges_of_spans wordRanges_ascending h (hn.symm ▸ hfirst)
    (hn.symm ▸ hlast))

/-- The letters of a run lie in a range of words, and so do their lower cases. -/
def CaseRun.inWords (run : CaseRun) : Bool :=
  spans wordRanges.toList run.first run.last
    && spans wordRanges.toList (run.first + run.shift).toNat (run.last + run.shift).toNat

/-- The run of one letter of a run. -/
def CaseRun.letter (run : CaseRun) (k : Nat) : CaseRun :=
  ⟨run.first + k * run.step, run.first + k * run.step, run.step, run.shift⟩

/-- Between the letters of a run there may be characters that are not in words. -/
theorem inWords_of_mem_lowerRuns : ∀ run ∈ lowerRuns.toList, run.inWords = true ∨
    ∀ k ≤ (run.last - run.first) / run.step, (run.letter k).inWords = true := by
  decide +kernel

/-- A character is a letter of a run: it lies in it, at a multiple of the step. -/
structure CaseRun.Has (run : CaseRun) (c : Char) : Prop where
  first : run.first ≤ c.toNat
  last : c.toNat ≤ run.last
  step : (c.toNat - run.first) % run.step = 0

/-- The lower case of a letter of a run. -/
def CaseRun.lower (run : CaseRun) (c : Char) : Char := Char.ofNat (c.toNat + run.shift).toNat

theorem CaseRun.Has.words {run : CaseRun} (h : run.Has c) (hrun : run ∈ lowerRuns.toList) :
    isWord c = true ∧ isWord (run.lower c) = true := by
  have hwords : ∀ run : CaseRun, run.first ≤ c.toNat → c.toNat ≤ run.last → run.inWords = true →
      isWord c = true ∧ isWord (run.lower c) = true := by
    intro run hfirst hlast hin
    obtain ⟨hplace, hshifted⟩ := Bool.and_eq_true_iff.1 hin
    refine ⟨?_, isWord_ofNat hshifted ?_ ?_⟩
    · rw [← Char.ofNat_toNat c]
      exact isWord_ofNat hplace hfirst hlast
    · omega
    · omega
  rcases inWords_of_mem_lowerRuns run hrun with hin | hin
  · exact hwords run h.first h.last hin
  · have hplace : run.first + (c.toNat - run.first) / run.step * run.step = c.toNat := by
      rw [Nat.div_mul_cancel (Nat.dvd_of_mod_eq_zero h.step), Nat.add_sub_cancel' h.first]
    have hle := Nat.sub_le_sub_right h.last run.first
    exact hwords (run.letter ((c.toNat - run.first) / run.step)) hplace.le hplace.ge
      (hin _ (Nat.div_le_div_right hle))

theorem findCaseRun_eq_some {table : Array CaseRun} {n depth lo hi : Nat} {run : CaseRun}
    (h : findCaseRun table n depth lo hi = some run) :
    run ∈ table.toList ∧ run.first ≤ n ∧ n ≤ run.last := by
  induction depth generalizing lo hi with
  | zero => cases h
  | succ depth ih =>
    rw [findCaseRun] at h
    split at h
    · dsimp only at h
      split at h
      · cases h
      · next found hfound =>
        split at h
        · exact ih h
        · split at h
          · exact ih h
          · obtain rfl := Option.some.inj h
            refine ⟨Array.mem_toList_iff.2 (Array.mem_of_getElem? hfound), ?_, ?_⟩ <;> omega
    · cases h

/-- How a character is lower-cased outside any context. -/
theorem lowerChar_cases (c : Char) :
    (c.toNat < 128 ∧ lowerChar c = [c.toLower]) ∨ (c = 'İ' ∧ lowerChar c = ['i', '\u0307']) ∨
      (∃ run ∈ lowerRuns.toList, run.Has c ∧ lowerChar c = [run.lower c]) ∨ lowerChar c = [c] := by
  unfold lowerChar
  split
  · next hc => exact .inl ⟨hc, rfl⟩
  · split
    · next hc => exact .inr (.inl ⟨hc, rfl⟩)
    · split
      · next run hrun =>
        obtain ⟨hmem, hfirst, hlast⟩ := findCaseRun_eq_some hrun
        split
        · next hstep => exact .inr (.inr (.inl ⟨run, hmem, ⟨hfirst, hlast, hstep⟩, rfl⟩))
        · exact .inr (.inr (.inr rfl))
      · exact .inr (.inr (.inr rfl))

/-- In ASCII, too, the letters with a lower case and their lower cases are in words. -/
theorem ascii_toLower (hc : c.toNat < 128) :
    isWord c.toLower = isWord c ∧ (isWord c = false → c.toLower = c) := by
  have hascii : ∀ n < 128, isWord (Char.ofNat n).toLower = isWord (Char.ofNat n) ∧
      (isWord (Char.ofNat n) = false → (Char.ofNat n).toLower = Char.ofNat n) := by
    decide +kernel
  have hchar := hascii _ hc
  rwa [Char.ofNat_toNat] at hchar

/-- A character outside of words is left as it is. -/
theorem lowerChar_of_outside (hc : isWord c = false) : lowerChar c = [c] := by
  rcases lowerChar_cases c with ⟨hascii, h⟩ | ⟨rfl, -⟩ | ⟨run, hrun, hhas, -⟩ | h
  · rw [h, (ascii_toLower hascii).2 hc]
  · exact absurd hc (by decide +kernel)
  · rw [(hhas.words hrun).1] at hc
    cases hc
  · exact h

/-- A character of a word becomes characters of a word. -/
theorem lowerChar_of_word (hc : isWord c = true) :
    lowerChar c ≠ [] ∧ ∀ d ∈ lowerChar c, isWord d = true := by
  rcases lowerChar_cases c with ⟨hascii, h⟩ | ⟨-, h⟩ | ⟨run, hrun, hhas, h⟩ | h <;> rw [h]
  · simpa [(ascii_toLower hascii).1] using hc
  · refine ⟨List.cons_ne_nil _ _, List.forall_mem_cons.2 ⟨?_, List.forall_mem_singleton.2 ?_⟩⟩ <;>
      decide +kernel
  · simpa using (hhas.words hrun).2
  · simpa using hc

/-! ### Words in lower-cased texts -/

theorem lowerLetter_of_outside (hc : isWord c = false) : lowerLetter cased after c = [c] := by
  have hsigma : c ≠ 'Σ' := by
    rintro rfl
    exact absurd hc (by decide +kernel)
  rw [lowerLetter, if_neg hsigma, lowerChar_of_outside hc]

theorem lowerLetter_of_word (hc : isWord c = true) :
    lowerLetter cased after c ≠ [] ∧ ∀ d ∈ lowerLetter cased after c, isWord d = true := by
  rw [lowerLetter]
  split
  · refine ⟨List.cons_ne_nil _ _, List.forall_mem_singleton.2 ?_⟩
    split <;> decide +kernel
  · exact lowerChar_of_word hc

theorem lowerWithin_of_words (h : ∀ c ∈ cs, isWord c = true) :
    ∀ d ∈ lowerWithin cased after cs, isWord d = true := by
  induction cs generalizing cased with
  | nil => exact fun d hd => (List.not_mem_nil hd).elim
  | cons c rest ih =>
    intro d hd
    rcases List.mem_append.1 hd with hd | hd
    · exact (lowerLetter_of_word (h c List.mem_cons_self)).2 d hd
    · exact ih (fun a ha => h a (List.mem_cons_of_mem _ ha)) d hd

/-- Whatever stands around the parts, they stay apart. -/
theorem IsRun.lowered (h : IsRun isWord before word after) (b₁ b₂ b₃ : Bool)
    (a₁ a₂ a₃ : List Char) :
    IsRun isWord (lowerWithin b₁ a₁ before) (lowerWithin b₂ a₂ word) (lowerWithin b₃ a₃ after) where
  ne_nil := by
    obtain ⟨c, more, rfl⟩ := List.exists_cons_of_ne_nil h.ne_nil
    exact List.append_ne_nil_of_left_ne_nil
      (lowerLetter_of_word (h.inside c List.mem_cons_self)).1 _
  inside := lowerWithin_of_words h.inside
  left := by
    rcases List.eq_nil_or_concat' before with rfl | ⟨first, c, rfl⟩
    · exact fun d hd => by cases hd
    · have hc : isWord c = false := h.left c (by simp)
      rw [lowerWithin_append, lowerWithin, lowerWithin, List.append_nil, lowerLetter_of_outside hc]
      simpa using hc
  right := by
    cases after with
    | nil => exact fun d hd => by cases hd
    | cons c more =>
      have hc : isWord c = false := h.right c rfl
      rw [lowerWithin, lowerLetter_of_outside hc]
      simpa using hc

/-- The words of a lower-cased text are as many as those of the text. -/
theorem length_words_lowerWithin (cased : Bool) (after cs : List Char) :
    (words (lowerWithin cased after cs)).length = (words cs).length := by
  induction cs using runs.induct (p := isWord) generalizing cased with
  | case1 => rfl
  | case2 c rest hc ih =>
    have hparts : lowerWithin cased after (c :: rest) =
        lowerWithin cased (rest.dropWhile isWord ++ after) (c :: rest.takeWhile isWord) ++
          lowerWithin ((c :: rest.takeWhile isWord).foldl casedAfter cased) after
            (rest.dropWhile isWord) := by
      rw [← lowerWithin_append, List.cons_append, List.takeWhile_append_dropWhile]
    have hruns := ((isRun_takeWhile hc rest).lowered cased cased
      ((c :: rest.takeWhile isWord).foldl casedAfter cased) [] (rest.dropWhile isWord ++ after)
      after).runs_eq
    rw [lowerWithin, runs_nil, List.nil_append, List.nil_append] at hruns
    rw [hparts, words, hruns, List.length_cons, words, runs_cons_of_inside hc, List.length_cons]
    exact congrArg (· + 1) (ih _)
  | case3 c rest hc ih =>
    rw [lowerWithin, lowerLetter_of_outside (by simpa using hc), words, words, List.singleton_append,
      runs_cons_of_outside (by simpa using hc), runs_cons_of_outside (by simpa using hc)]
    exact ih _

/-- A word of a text becomes the word in its place of the lower-cased text. -/
theorem getElem?_words_lowercase (h : IsRun isWord before word after) :
    (words (lowercase (before ++ (word ++ after))))[(words before).length]? =
      some (lowerWithin (endsCased before) after word) := by
  have hruns := (h.lowered false (endsCased before) (endsCased (before ++ word)) (word ++ after)
    after []).runs_eq
  have hlength := length_words_lowerWithin false (word ++ after) before
  rw [words] at hlength
  rw [lowercase_append, words, hruns, ← hlength, List.getElem?_append_right (le_refl _),
    Nat.sub_self, List.getElem?_cons_zero]

/-! ### Capital sigmas -/

/-- Whether a capital sigma between two parts of a text becomes a final sigma. -/
def isFinal (before after : List Char) : Bool := endsCased before && !startsCased after

theorem forall_split_cons {P : List Char → List Char → Prop} {d : Char} :
    (∀ first last, c :: rest = first ++ d :: last → P first last) ↔
      (c = d → P [] rest) ∧ ∀ first last, rest = first ++ d :: last → P (c :: first) last := by
  constructor
  · exact fun h => ⟨fun hc => h [] rest (hc ▸ rfl), fun first last hrest =>
      h (c :: first) last (hrest ▸ rfl)⟩
  · rintro ⟨hhead, htail⟩ first last hsplit
    cases first with
    | nil =>
      obtain ⟨hc, rfl⟩ := List.cons.inj hsplit
      exact hhead hc
    | cons a first =>
      obtain ⟨rfl, hrest⟩ := List.cons.inj hsplit
      exact htail first last hrest

theorem smallSigma_inj {final other : Bool} :
    ((if final then 'ς' else 'σ') = if other then 'ς' else 'σ') ↔ final = other := by
  cases final <;> cases other <;> decide

theorem lowerLetter_append_inj {es xs ys : List Char} :
    lowerLetter cased ds c ++ xs = lowerLetter other es c ++ ys ↔
      (c = 'Σ' → (cased && !startsCased ds) = (other && !startsCased es)) ∧ xs = ys := by
  by_cases hc : c = 'Σ'
  · rw [lowerLetter, lowerLetter, if_pos hc, if_pos hc, List.singleton_append, List.singleton_append,
      List.cons.injEq]
    exact and_congr_left' ⟨fun h _ => smallSigma_inj.1 h, fun h => smallSigma_inj.2 (h hc)⟩
  · rw [lowerLetter, lowerLetter, if_neg hc, if_neg hc, List.append_cancel_left_eq]
    exact ⟨fun h => ⟨fun hsame => absurd hsame hc, h⟩, And.right⟩

/-- What stands around a part of a text makes no difference exactly if it makes none to the capital
sigmas in the part. -/
theorem lowerWithin_eq_iff {es : List Char} :
    lowerWithin cased ds cs = lowerWithin other es cs ↔ ∀ first last, cs = first ++ 'Σ' :: last →
      (first.foldl casedAfter cased && !startsCased (last ++ ds)) =
        (first.foldl casedAfter other && !startsCased (last ++ es)) := by
  induction cs generalizing cased other with
  | nil => exact ⟨fun _ first last h => by simp at h, fun _ => rfl⟩
  | cons c rest ih =>
    rw [lowerWithin, lowerWithin, lowerLetter_append_inj, ih, forall_split_cons]
    simp only [List.foldl_nil, List.foldl_cons]

/-- Every capital sigma of a part of a text takes the form there that it takes if the part stands
alone. -/
def SigmasAgree (before word after : List Char) : Prop :=
  ∀ first last, word = first ++ 'Σ' :: last →
    isFinal (before ++ first) (last ++ after) = isFinal first last

theorem lowerWithin_eq_lowercase_iff :
    lowerWithin (endsCased before) after word = lowercase word ↔ SigmasAgree before word after := by
  rw [lowercase_eq, lowerWithin_eq_iff]
  refine forall₃_congr fun first last _ => ?_
  rw [isFinal, isFinal, endsCased, endsCased, endsCased, List.foldl_append, List.append_nil]

/-! ### Line feeds -/

theorem isWord_newline : isWord '\n' = false := by decide +kernel

theorem isCaseIgnorable_newline : isCaseIgnorable '\n' = false := by decide +kernel

theorem isCased_newline : isCased '\n' = false := by decide +kernel

theorem startsCased_append_newline (cs ds : List Char) :
    startsCased (cs ++ '\n' :: ds) = startsCased cs := by
  rw [startsCased, startsCased, dropWhile_append_outside isCaseIgnorable_newline]
  cases cs.dropWhile isCaseIgnorable with
  | nil => exact isCased_newline
  | cons c rest => rfl

theorem lowerWithin_newline (cased : Bool) (cs ds : List Char) :
    lowerWithin cased ('\n' :: ds) cs = lowerWithin cased [] cs := by
  induction cs generalizing cased with
  | nil => rfl
  | cons c rest ih =>
    rw [lowerWithin, lowerWithin, ih, lowerLetter, lowerLetter, startsCased_append_newline,
      List.append_nil]

/-- No letter looks across a line feed. -/
theorem lowercase_append_newline (cs ds : List Char) :
    lowercase (cs ++ '\n' :: ds) = lowercase cs ++ '\n' :: lowercase ds := by
  have hcased : casedAfter (cs.foldl casedAfter false) '\n' = false := by
    rw [casedAfter, isCaseIgnorable_newline, isCased_newline, if_neg Bool.false_ne_true]
  rw [lowercase_eq, lowerWithin_append, List.append_nil, lowerWithin_newline, lowerWithin,
    lowerLetter_of_outside isWord_newline, hcased, lowercase_eq, lowercase_eq, List.singleton_append]

end CodeIndex.Text
