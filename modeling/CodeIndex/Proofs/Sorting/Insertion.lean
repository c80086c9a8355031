import CodeIndex.Sorting.Small
import Mathlib.Data.List.Nodup
import Mathlib.Data.List.Pairwise
import Mathlib.Data.List.Perm.Subperm
import Mathlib.Order.Lattice

/-! Sorting by insertion rearranges the items of a list.  Where preceding orders them it puts each
before all that it precedes, and there is only one list of these items that is in this order. -/

namespace CodeIndex.Sorting

variable {α : Type} {before : α → α → Bool}

/-! ### Orders -/

/-- One of two items precedes the other. -/
def Linked (before : α → α → Bool) (a b : α) : Prop := before a b = true ∨ before b a = true

theorem Linked.symm {a b : α} (h : Linked before a b) : Linked before b a := Or.symm h

instance : Std.Symm (Linked before) := ⟨fun _ _ => Linked.symm⟩

/-- Preceding goes on over a third item, among the items with a property. -/
def GoesOn (before : α → α → Bool) (p : α → Prop) : Prop :=
  ∀ a b c, p a → p b → p c → before a b = true → before b c = true → before a c = true

/-- Each item precedes all that come after it. -/
def Ascends (before : α → α → Bool) (as : List α) : Prop :=
  as.Pairwise fun a b => before a b = true

/-- Of any two items of a list exactly one precedes the other, and preceding goes on. -/
structure Orders (before : α → α → Bool) (as : List α) : Prop where
  asymm : ∀ a ∈ as, ∀ b ∈ as, before a b = true → before b a = false
  goesOn : GoesOn before (· ∈ as)
  linked : as.Pairwise (Linked before)

section

variable {as bs cs : List α} {a b : α}

theorem Orders.of_subperm (h : Orders before as) (hsub : bs.Subperm as) : Orders before bs := by
  obtain ⟨cs, hperm, hsublist⟩ := hsub
  have hmem : ∀ b ∈ bs, b ∈ as := fun b hb => hsublist.subset (hperm.mem_iff.2 hb)
  exact ⟨fun a ha b hb => h.asymm a (hmem a ha) b (hmem b hb),
    fun a b c ha hb hc => h.goesOn a b c (hmem a ha) (hmem b hb) (hmem c hc),
    (hperm.pairwise_iff Linked.symm).1 (h.linked.sublist hsublist)⟩

theorem Orders.of_perm (h : Orders before as) (hperm : bs.Perm as) : Orders before bs :=
  h.of_subperm hperm.subperm

theorem Orders.sublist (h : Orders before as) (hsub : bs.Sublist as) : Orders before bs :=
  h.of_subperm hsub.subperm

theorem Orders.irrefl (h : Orders before as) (ha : a ∈ as) : before a a = false :=
  Bool.eq_false_iff.2 fun haa => ne_true_of_eq_false (h.asymm a ha a ha haa) haa

theorem Orders.nodup (h : Orders before as) : as.Nodup := by
  refine h.linked.imp_of_mem ?_
  rintro a _ ha - hlinked rfl
  exact hlinked.elim (ne_true_of_eq_false (h.irrefl ha)) (ne_true_of_eq_false (h.irrefl ha))

/-- What another item does not precede precedes this one. -/
theorem Orders.before_of_not (h : Orders before as) (ha : a ∈ as) (hb : b ∈ as) (hne : a ≠ b)
    (hnot : before b a = false) : before a b = true :=
  (h.linked.forall ha hb hne).resolve_right (ne_true_of_eq_false hnot)

/-- The items of a list stand in their order in one way only. -/
theorem Orders.eq_of_ascends (h : Orders before as) (hbs : bs.Perm as) (hcs : cs.Perm as)
    (hbsAscends : Ascends before bs) (hcsAscends : Ascends before cs) : bs = cs := by
  refine List.Perm.eq_of_pairwise ?_ hbsAscends hcsAscends (hbs.trans hcs.symm)
  intro a b ha hb hab hba
  exact absurd hba (ne_true_of_eq_false (h.asymm a (hbs.mem_iff.1 ha) b (hcs.mem_iff.1 hb) hab))

theorem ascends_reverse : Ascends before as.reverse ↔ Ascends (fun a b => before b a) as :=
  List.pairwise_reverse

/-- Turned round, preceding orders the same items. -/
theorem Orders.turned (h : Orders before as) : Orders (fun a b => before b a) as :=
  ⟨fun a ha b hb => h.asymm b hb a ha,
    fun a b c ha hb hc hba hcb => h.goesOn c b a hc hb ha hcb hba,
    h.linked.imp Linked.symm⟩

end

/-! ### Insertion -/

theorem insertLast_perm (a : α) (as : List α) : (insertLast before a as).Perm (a :: as) := by
  induction as with
  | nil => exact List.Perm.refl _
  | cons b rest ih =>
    rw [insertLast]
    split
    · exact (ih.cons b).trans (List.Perm.swap a b rest)
    · exact List.Perm.refl _

theorem insertAll_perm (done as : List α) : (insertAll before done as).Perm (as ++ done) := by
  induction as generalizing done with
  | nil => exact List.Perm.refl _
  | cons a rest ih =>
    exact (ih _).trans (((insertLast_perm a done).append_left rest).trans List.perm_middle)

theorem insertionSort_perm (as : List α) : (insertionSort before as).Perm as := by
  refine (List.reverse_perm _).trans ((insertAll_perm [] as).trans ?_)
  rw [List.append_nil]

section

variable {p : α → Prop} (hgoes : GoesOn before p)
include hgoes

theorem insertLast_pairwise {a : α} {done : List α} (ha : p a) (hp : ∀ b ∈ done, p b)
    (hlinked : ∀ b ∈ done, Linked before a b)
    (hdone : done.Pairwise fun x y => before y x = true) :
    (insertLast before a done).Pairwise fun x y => before y x = true := by
  induction done with
  | nil => exact List.pairwise_singleton _ _
  | cons b rest ih =>
    obtain ⟨hb, hrest⟩ := List.pairwise_cons.1 hdone
    rw [insertLast]
    split
    · next hbefore =>
      refine List.pairwise_cons.2 ⟨fun y hy => ?_, ih (fun y hy => hp y (.tail _ hy))
        (fun y hy => hlinked y (.tail _ hy)) hrest⟩
      rcases List.mem_cons.1 ((insertLast_perm a rest).mem_iff.1 hy) with rfl | hy
      · exact hbefore
      · exact hb y hy
    · next hafter =>
      have hba : before b a = true := (hlinked b (.head _)).resolve_left hafter
      refine List.pairwise_cons.2 ⟨fun y hy => ?_, hdone⟩
      rcases List.mem_cons.1 hy with rfl | hy
      · exact hba
      · exact hgoes y b a (hp y (.tail _ hy)) (hp b (.head _)) ha (hb y hy) hba

theorem insertAll_pairwise {as done : List α} (hp : ∀ a ∈ as ++ done, p a)
    (hlinked : (as ++ done).Pairwise (Linked before))
    (hdone : done.Pairwise fun x y => before y x = true) :
    (insertAll before done as).Pairwise fun x y => before y x = true := by
  induction as generalizing done with
  | nil => exact hdone
  | cons a rest ih =>
    have hperm : (rest ++ insertLast before a done).Perm (a :: rest ++ done) :=
      ((insertLast_perm a done).append_left rest).trans List.perm_middle
    refine ih (fun b hb => hp b (hperm.mem_iff.1 hb))
      ((hperm.pairwise_iff Linked.symm).2 hlinked) ?_
    refine insertLast_pairwise hgoes (hp a (.head _))
      (fun b hb => hp b (.tail _ (List.mem_append_right rest hb))) (fun b hb => ?_) hdone
    exact (List.pairwise_cons.1 hlinked).1 b (List.mem_append_right rest hb)

end

/-- Inserting goes on with the order of what was inserted before. -/
theorem Orders.insertAll_ascends {as done : List α} (h : Orders before (as ++ done))
    (hdone : Ascends before done.reverse) : Ascends before (insertAll before done as).reverse :=
  ascends_reverse.2 <|
    insertAll_pairwise h.goesOn (fun _ ha => ha) h.linked (ascends_reverse.1 hdone)

theorem Orders.insertionSort_ascends {as : List α} (h : Orders before as) :
    Ascends before (insertionSort before as) :=
  Orders.insertAll_ascends (by rwa [List.append_nil]) List.Pairwise.nil

/-! Where preceding compares keys, of which several items may have the same, the keys ascend after
sorting. -/

section

variable {β : Type} [LinearOrder β] {key : α → β}
  (hkey : ∀ a b, before a b = true ↔ key a < key b)
include hkey

theorem insertLast_keys (a : α) {done : List α} (hdone : done.Pairwise fun x y => key y ≤ key x) :
    (insertLast before a done).Pairwise fun x y => key y ≤ key x := by
  induction done with
  | nil => exact List.pairwise_singleton _ _
  | cons b rest ih =>
    obtain ⟨hb, hrest⟩ := List.pairwise_cons.1 hdone
    rw [insertLast]
    split
    · next hbefore =>
      refine List.pairwise_cons.2 ⟨fun y hy => ?_, ih hrest⟩
      rcases List.mem_cons.1 ((insertLast_perm a rest).mem_iff.1 hy) with rfl | hy
      · exact le_of_lt ((hkey _ _).1 hbefore)
      · exact hb y hy
    · next hafter =>
      have hba : key b ≤ key a := not_lt.1 fun hlt => hafter ((hkey a b).2 hlt)
      refine List.pairwise_cons.2 ⟨fun y hy => ?_, hdone⟩
      rcases List.mem_cons.1 hy with rfl | hy
      · exact hba
      · exact le_trans (hb y hy) hba

theorem insertAll_keys (as : List α) {done : List α}
    (hdone : done.Pairwise fun x y => key y ≤ key x) :
    (insertAll before done as).Pairwise fun x y => key y ≤ key x := by
  induction as generalizing done with
  | nil => exact hdone
  | cons a rest ih => exact ih (insertLast_keys hkey a hdone)

theorem insertionSort_keys (as : List α) :
    (insertionSort before as).Pairwise fun a b => key a ≤ key b := by
  rw [insertionSort, List.pairwise_reverse]
  exact insertAll_keys hkey as List.Pairwise.nil

end

end CodeIndex.Sorting
