import CodeIndex.Json.Decoding
import Mathlib.Data.List.Basic
import Mathlib.Data.List.Induction

/-! The members of objects, and records that are written as objects or as arrays of their fields.
Of several members of one name the last counts.  A record keeps its fields when members under other
names come or go, and when it is given as the array of its fields in their order. -/

namespace CodeIndex.Json

/-! ### Members -/

/-- The member of that name that counts: no member after it has the name. -/
def LastMember (ms : List (String × Value)) (name : String) (v : Value) : Prop :=
  ∃ before after, ms = before ++ (name, v) :: after ∧ ∀ e ∈ after, e.1 ≠ name

theorem get?_append_of_ne {before after : List (String × Value)} {name : String}
    (h : ∀ e ∈ after, e.1 ≠ name) :
    (Value.object (before ++ after)).get? name = (Value.object before).get? name := by
  have hnone : after.reverse.lookup name = none := by
    rw [List.lookup_eq_none_iff]
    intro e he
    exact bne_iff_ne.2 (Ne.symm (h e (List.mem_reverse.1 he)))
  rw [Value.get?, Value.get?, Value.members, Value.members, List.reverse_append,
    List.lookup_append, hnone, Option.none_or]

theorem get?_append_self (before : List (String × Value)) (name : String) (v : Value) :
    (Value.object (before ++ [(name, v)])).get? name = some v := by
  rw [Value.get?, Value.members, List.reverse_append]
  simp

theorem get?_eq_some_iff {ms : List (String × Value)} {name : String} {v : Value} :
    (Value.object ms).get? name = some v ↔ LastMember ms name v := by
  constructor
  · intro h
    induction ms using List.reverseRecOn with
    | nil => cases h
    | append_singleton ms e ih =>
      by_cases hname : e.1 = name
      · subst hname
        rw [get?_append_self, Option.some.injEq] at h
        subst h
        exact ⟨ms, [], rfl, fun _ he => absurd he List.not_mem_nil⟩
      · have hlast : ∀ e' ∈ [e], e'.1 ≠ name := by simpa using hname
        rw [get?_append_of_ne hlast] at h
        obtain ⟨before, after, rfl, hafter⟩ := ih h
        refine ⟨before, after ++ [e], by simp, fun e' he' => ?_⟩
        rcases List.mem_append.1 he' with he' | he'
        · exact hafter e' he'
        · exact hlast e' he'
  · rintro ⟨before, after, rfl, hafter⟩
    have happend : before ++ (name, v) :: after = before ++ [(name, v)] ++ after := by simp
    rw [happend, get?_append_of_ne hafter, get?_append_self]

theorem get?_append_cons_of_ne {before after : List (String × Value)} {e : String × Value}
    {name : String} (h : e.1 ≠ name) :
    (Value.object (before ++ e :: after)).get? name =
      (Value.object (before ++ after)).get? name := by
  have hskip : List.lookup name [e] = none := by
    rw [List.lookup_cons, beq_eq_false_iff_ne.2 (Ne.symm h), List.lookup_nil]
  simp only [Value.get?, Value.members, List.reverse_append, List.reverse_cons,
    List.lookup_append, hskip, Option.or_none]

theorem lookup_filter_of_mem {names : List String} {name : String} (hname : name ∈ names)
    (ms : List (String × Value)) :
    (ms.filter fun e => decide (e.1 ∈ names)).lookup name = ms.lookup name := by
  induction ms with
  | nil => rfl
  | cons e rest ih =>
    obtain ⟨key, v⟩ := e
    by_cases hkey : name = key
    · subst hkey
      rw [List.filter_cons_of_pos (by simpa using hname), List.lookup_cons_self,
        List.lookup_cons_self]
    · have hskip : ∀ tail, List.lookup name ((key, v) :: tail) = tail.lookup name := by
        intro tail
        rw [List.lookup_cons, beq_eq_false_iff_ne.2 hkey]
      rw [List.filter_cons, hskip]
      split
      · rw [hskip, ih]
      · exact ih

/-! ### Records -/

/-- The value of a field of a record with these fields: the member of its name, or the item at its
place in an array of the right length. -/
def Value.field? (names : List String) (v : Value) (name : String) : Option Value :=
  match v with
  | .object _ => v.get? name
  | .array items => if items.length = names.length then items[names.idxOf name]? else none
  | _ => none

theorem field?_array_iff {names : List String} {items : List Value} {name : String} {v : Value} :
    (Value.array items).field? names name = some v ↔
      items.length = names.length ∧ items[names.idxOf name]? = some v := by
  rw [Value.field?]
  split <;> simp_all

/-- The same record in other words: with other members beside its fields, or as the array of its
fields in their order. -/
inductive Respelled (names : List String) : Value → Value → Prop where
  | members {ms ms' : List (String × Value)}
      (same : (ms'.filter fun e => decide (e.1 ∈ names)) = ms.filter fun e => decide (e.1 ∈ names)) :
      Respelled names (.object ms) (.object ms')
  | listed {ms : List (String × Value)} {items : List Value}
      (fields : names.map (Value.object ms).get? = items.map some) :
      Respelled names (.object ms) (.array items)

theorem Respelled.field? {names : List String} {v w : Value} (h : Respelled names v w)
    {name : String} (hname : name ∈ names) : w.field? names name = v.field? names name := by
  cases h with
  | @members ms ms' same =>
    show ms'.reverse.lookup name = ms.reverse.lookup name
    rw [← lookup_filter_of_mem hname, ← lookup_filter_of_mem hname ms.reverse,
      List.filter_reverse, List.filter_reverse, same]
  | @listed ms items fields =>
    have hlength : items.length = names.length := by
      simpa using (congrArg List.length fields).symm
    have hplace : names[names.idxOf name]? = some name :=
      List.getElem?_idxOf hname
    have hitem := congrArg (fun values => values[names.idxOf name]?) fields
    simp only [List.getElem?_map, hplace, Option.map_some] at hitem
    show (if items.length = names.length then items[names.idxOf name]? else none) =
      (Value.object ms).get? name
    rw [if_pos hlength]
    cases hfound : items[names.idxOf name]? with
    | none => rw [hfound] at hitem; cases hitem
    | some w =>
      rw [hfound] at hitem
      exact (Option.some.inj hitem).symm

end CodeIndex.Json
