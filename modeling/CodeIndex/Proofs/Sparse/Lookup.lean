import CodeIndex.Proofs.Sparse.Counting
import CodeIndex.Proofs.Text.Lowercase

/-! Looking up the words of a text.  A word is lower-cased in its text when the text is counted and alone
when it is looked up.  These are the same but for capital sigmas whose form depends on what stands
around the word, and a word without such a sigma is found. -/

namespace CodeIndex.SparseVector

open Text (IsRun SigmasAgree)

variable {text : String} {before word after : List Char}

theorem countOf_of_mem_tokens (hbound : (tokens text.toList).length < 2 ^ 32)
    (hmem : Text.lowercase word ∈ tokens text.toList) :
    ∃ n, (ofText text).countOf word = some n ∧ 1 ≤ n.toNat := by
  have hfit := countsFit_tokenHashes hbound
  have hhash : tokenHash (Text.lowercase word) ∈ tokenHashes text.toList :=
    List.mem_map_of_mem hmem
  have hcount := hfit.toNat_count (tokenHash (Text.lowercase word))
  have hpos := List.count_pos_iff.2 hhash
  rw [← hcount] at hpos
  exact ⟨_, (count?_eq_some_iff hfit).2 ⟨hpos, hcount⟩, hpos⟩

/-- In the place of each word of a text, the word in its lower case is counted.  This is the lower case
of the word alone exactly if its capital sigmas take the same forms in the text as alone, and then a
look-up of the word finds it. -/
theorem countOf_word (htext : text.toList = before ++ (word ++ after))
    (hword : IsRun Text.isWord before word after) :
    ∃ token, (tokens text.toList)[(Text.words before).length]? = some token ∧
      (token = Text.lowercase word ↔ SigmasAgree before word after) ∧
      (SigmasAgree before word after → (tokens text.toList).length < 2 ^ 32 →
        ∃ n, (ofText text).countOf word = some n ∧ 1 ≤ n.toNat) := by
  have hplace := Text.getElem?_words_lowercase hword
  rw [← htext] at hplace
  refine ⟨_, hplace, Text.lowerWithin_eq_lowercase_iff, fun hsigmas hbound => ?_⟩
  refine countOf_of_mem_tokens hbound ?_
  rw [← Text.lowerWithin_eq_lowercase_iff.2 hsigmas]
  exact List.mem_of_getElem? hplace

/-- At the end of a word before a comma the sigma is final, as it is alone. -/
theorem countOf_word_comma :
    "ΟΔΟΣ, name".toList = [] ++ ("ΟΔΟΣ".toList ++ ", name".toList) ∧
      IsRun Text.isWord [] "ΟΔΟΣ".toList ", name".toList ∧
      ∃ n, (ofText "ΟΔΟΣ, name").countOf "ΟΔΟΣ".toList = some n ∧ 1 ≤ n.toNat := by
  have htext : "ΟΔΟΣ, name".toList = [] ++ ("ΟΔΟΣ".toList ++ ", name".toList) := by decide
  have hword : IsRun Text.isWord [] "ΟΔΟΣ".toList ", name".toList := by decide +kernel
  have hsigmas : SigmasAgree [] "ΟΔΟΣ".toList ", name".toList :=
    Text.lowerWithin_eq_lowercase_iff.1 (by decide +kernel)
  obtain ⟨-, -, -, hfound⟩ := countOf_word htext hword
  exact ⟨htext, hword, hfound hsigmas (by decide +kernel)⟩

/-- Across a dot the sigma has a letter after it and is not final; alone it is, and so the word is not
found. -/
theorem countOf_word_not_dot :
    "ΟΔΟΣ.name".toList = [] ++ ("ΟΔΟΣ".toList ++ ".name".toList) ∧
      IsRun Text.isWord [] "ΟΔΟΣ".toList ".name".toList ∧
      (ofText "ΟΔΟΣ.name").countOf "ΟΔΟΣ".toList = none := by
  have habsent : tokenHash (Text.lowercase "ΟΔΟΣ".toList) ∉ tokenHashes "ΟΔΟΣ.name".toList := by
    decide +kernel
  refine ⟨by decide, by decide +kernel, ?_⟩
  exact (count?_ofHashes countsUp_ofNat _ _).trans (if_neg habsent)

end CodeIndex.SparseVector
