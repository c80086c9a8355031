import CodeIndex.Text.Word
import Mathlib.Data.List.Basic
import Mathlib.Data.List.TakeWhile

/-! The runs of a text.  A character outside of all runs divides them into those before it and those
after it, and a part that stands alone among such characters is a run of its own. -/

namespace CodeIndex.Text

variable {p : Char → Bool} {cs ds before word after : List Char} {c : Char}

@[simp] theorem runs_nil (p : Char → Bool) : runs p [] = [] := by rw [runs]

theorem runs_cons_of_outside (hc : p c = false) : runs p (c :: cs) = runs p cs := by
  rw [runs, hc, if_neg Bool.false_ne_true]

theorem runs_cons_of_inside (hc : p c = true) :
    runs p (c :: cs) = (c :: cs.takeWhile p) :: runs p (cs.dropWhile p) := by
  rw [runs, if_pos hc]

theorem takeWhile_append_outside (hc : p c = false) (cs ds : List Char) :
    (cs ++ c :: ds).takeWhile p = cs.takeWhile p := by
  rw [List.takeWhile_append]
  split
  · next hall => rw [List.takeWhile_cons_of_neg (by simp [hc]), List.append_nil,
      (List.takeWhile_prefix p).eq_of_length hall]
  · rfl

theorem dropWhile_append_outside (hc : p c = false) (cs ds : List Char) :
    (cs ++ c :: ds).dropWhile p = cs.dropWhile p ++ c :: ds := by
  rw [List.dropWhile_append]
  split
  · next hall => rw [List.dropWhile_cons_of_neg (by simp [hc]), List.isEmpty_iff.1 hall,
      List.nil_append]
  · rfl

/-- A character that belongs to no run divides the runs. -/
theorem runs_append_outside (hc : p c = false) (cs ds : List Char) :
    runs p (cs ++ c :: ds) = runs p cs ++ runs p ds := by
  induction cs using runs.induct (p := p) with
  | case1 => rw [List.nil_append, runs_cons_of_outside hc, runs_nil, List.nil_append]
  | case2 a rest ha ih =>
    rw [List.cons_append, runs_cons_of_inside ha, takeWhile_append_outside hc,
      dropWhile_append_outside hc, ih, runs_cons_of_inside ha, List.cons_append]
  | case3 a rest ha ih =>
    rw [List.cons_append, runs_cons_of_outside (by simpa using ha), ih,
      runs_cons_of_outside (by simpa using ha)]

/-- A part of a text with characters of runs only, and none of them next to it. -/
structure IsRun (p : Char → Bool) (before word after : List Char) : Prop where
  ne_nil : word ≠ []
  inside : ∀ c ∈ word, p c = true
  left : ∀ c ∈ before.getLast?, p c = false
  right : ∀ c ∈ after.head?, p c = false

theorem forall_mem_option_iff {o : Option Char} : (∀ c ∈ o, p c = false) ↔ o.any p = false := by
  cases o <;> simp

instance : Decidable (IsRun p before word after) :=
  decidable_of_iff (word ≠ [] ∧ word.all p = true ∧ before.getLast?.any p = false ∧
    after.head?.any p = false)
    ⟨fun ⟨hne, hinside, hleft, hright⟩ => ⟨hne, List.all_eq_true.1 hinside,
      forall_mem_option_iff.2 hleft, forall_mem_option_iff.2 hright⟩,
    fun h => ⟨h.ne_nil, List.all_eq_true.2 h.inside, forall_mem_option_iff.1 h.left,
      forall_mem_option_iff.1 h.right⟩⟩

theorem isRun_takeWhile (hc : p c = true) (cs : List Char) :
    IsRun p [] (c :: cs.takeWhile p) (cs.dropWhile p) where
  ne_nil := List.cons_ne_nil _ _
  inside a ha := by
    rcases List.mem_cons.1 ha with rfl | ha
    · exact hc
    · exact List.mem_takeWhile_imp ha
  left a ha := by cases ha
  right a ha := by
    have hhead := List.head?_dropWhile_not p cs
    rw [Option.mem_def.1 ha] at hhead
    simpa using hhead

theorem IsRun.runs_word (h : IsRun p before word after) : runs p word = [word] := by
  obtain ⟨c, rest, rfl⟩ := List.exists_cons_of_ne_nil h.ne_nil
  have hrest : ∀ a ∈ rest, p a = true := fun a ha => h.inside a (List.mem_cons_of_mem _ ha)
  rw [runs_cons_of_inside (h.inside c List.mem_cons_self), List.takeWhile_eq_self_iff.2 hrest,
    List.dropWhile_eq_nil_iff.2 hrest, runs_nil]

/-- The runs of a text around one of them. -/
theorem IsRun.runs_eq (h : IsRun p before word after) :
    runs p (before ++ (word ++ after)) = runs p before ++ word :: runs p after := by
  have hright : runs p (word ++ after) = word :: runs p after := by
    cases hafter : after with
    | nil => rw [List.append_nil, h.runs_word, runs_nil]
    | cons c rest =>
      have hc : p c = false := h.right c (by rw [hafter]; rfl)
      rw [runs_append_outside hc, h.runs_word, runs_cons_of_outside hc, List.singleton_append]
  rcases List.eq_nil_or_concat' before with hbefore | ⟨rest, c, hbefore⟩
  · rw [hbefore, List.nil_append, hright, runs_nil, List.nil_append]
  · have hc : p c = false := h.left c (by rw [hbefore]; simp)
    rw [hbefore, List.append_assoc, List.singleton_append, runs_append_outside hc,
      runs_append_outside hc, runs_nil, List.append_nil, hright]

end CodeIndex.Text
