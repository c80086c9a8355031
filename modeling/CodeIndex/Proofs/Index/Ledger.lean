import CodeIndex.Proofs.Store.Contents
import Mathlib.Logic.Function.Basic

/-! Who stored what.  Clients take turns at the files of a store; the records of a file are those that
the last of its clients has stored.  As long as a client is busy with a file nobody else takes a turn
at it, so that the client finds the records as they were when its turn began. -/

namespace CodeIndex.Index

open Store (Latest Memory Record)

/-- What was stored last for each file.  Of the clients who took a turn the last one comes first;
`effect` tells what a client has stored in place of what it found. -/
def latest (slot : Nat → String × String) (effect : Nat → Option (List Record))
    (taken : List Nat) : Latest := fun name path =>
  taken.findSome? fun k => if slot k = (name, path) then effect k else none

section

variable {slot : Nat → String × String} {effect other : Nat → Option (List Record)}
  {taken : List Nat} {name path : String} {k : Nat} {rs : List Record}

theorem latest_cons_of_ne (h : slot k ≠ (name, path)) :
    latest slot effect (k :: taken) name path = latest slot effect taken name path := by
  rw [latest, List.findSome?_cons, if_neg h]
  rfl

theorem latest_cons_of_none (h : effect k = none) :
    latest slot effect (k :: taken) = latest slot effect taken := by
  funext name path
  rw [latest, List.findSome?_cons, h, ite_self]
  rfl

theorem latest_cons_of_some (h : effect k = some rs) :
    latest slot effect (k :: taken) =
      (latest slot effect taken).update (slot k).1 (slot k).2 rs := by
  funext name path
  by_cases hslot : slot k = (name, path)
  · rw [latest, List.findSome?_cons, if_pos hslot, h, hslot]
    simp [Latest.update]
  · rw [latest_cons_of_ne hslot, Latest.update, if_neg]
    rintro ⟨rfl, rfl⟩
    exact hslot rfl

theorem latest_congr (h : ∀ k ∈ taken, slot k = (name, path) → effect k = other k) :
    latest slot effect taken name path = latest slot other taken name path := by
  induction taken with
  | nil => rfl
  | cons k taken ih =>
    have hrest := ih fun j hj => h j (List.mem_cons_of_mem _ hj)
    by_cases hslot : slot k = (name, path)
    · rw [latest, latest, List.findSome?_cons, List.findSome?_cons, if_pos hslot, if_pos hslot,
        h k List.mem_cons_self hslot]
      cases other k with
      | none => exact hrest
      | some rs => rfl
    · rw [latest_cons_of_ne hslot, latest_cons_of_ne hslot, hrest]

theorem exists_of_latest_eq_some (h : latest slot effect taken name path = some rs) :
    ∃ k ∈ taken, slot k = (name, path) ∧ effect k = some rs := by
  obtain ⟨k, hk, hstored⟩ := List.exists_of_findSome?_eq_some h
  by_cases hslot : slot k = (name, path)
  · rw [if_pos hslot] at hstored
    exact ⟨k, hk, hslot, hstored⟩
  · rw [if_neg hslot] at hstored
    cases hstored

/-- Those who came later at other files make no difference. -/
theorem latest_append {later : List Nat} (h : ∀ k ∈ later, slot k ≠ (name, path)) :
    latest slot effect (later ++ taken) name path = latest slot effect taken name path := by
  induction later with
  | nil => rfl
  | cons k later ih =>
    rw [List.cons_append, latest_cons_of_ne (h k List.mem_cons_self)]
    exact ih fun j hj => h j (List.mem_cons_of_mem _ hj)

theorem exists_latest (hk : k ∈ taken) (hslot : slot k = (name, path))
    (heffect : effect k = some rs) : ∃ last, latest slot effect taken name path = some last := by
  refine Option.isSome_iff_exists.1 (List.findSome?_isSome_iff.2 ⟨k, hk, ?_⟩)
  rw [if_pos hslot, heffect]
  rfl

/-- What was stored by those who came later counts. -/
theorem latest_append_of_some {later : List Nat}
    (h : latest slot effect later name path = some rs) :
    latest slot effect (later ++ taken) name path = some rs := by
  unfold latest at h ⊢
  rw [List.findSome?_append, h]
  rfl

end

/-- The turns that clients took at the files of a store.  A client is busy from the beginning of its
turn to the end; `prior` tells the records that it found. -/
structure Ledger (start m : Memory) (slot : Nat → String × String) (busy : Nat → Prop)
    (prior : Nat → List Record) (effect : Nat → Option (List Record)) (taken : List Nat) :
    Prop where
  nodup : taken.Nodup
  mem_of_busy : ∀ k, busy k → k ∈ taken
  none_of_not_mem : ∀ k, k ∉ taken → effect k = none
  /-- Whoever comes later at a file finds that those before have left. -/
  alone : taken.Pairwise fun j k => slot j = slot k → ¬ busy k
  prior_eq : ∀ k later earlier, taken = later ++ k :: earlier →
    prior k = (latest slot effect earlier (slot k).1 (slot k).2).getD
      (start.fileRecords (slot k).1 (slot k).2)
  follows : start.Follows m (latest slot effect taken)

namespace Ledger

variable {start m n : Memory} {slot : Nat → String × String} {busy : Nat → Prop}
  {prior : Nat → List Record} {effect : Nat → Option (List Record)} {taken : List Nat}
  {k : Nat} {rs : List Record}

theorem init (start : Memory) (slot : Nat → String × String) (prior : Nat → List Record) :
    Ledger start start slot (fun _ => False) prior (fun _ => none) [] where
  nodup := List.nodup_nil
  mem_of_busy _ h := h.elim
  none_of_not_mem _ _ := rfl
  alone := List.Pairwise.nil
  prior_eq k later earlier h := by simp at h
  follows := Memory.Follows.refl start

/-- Those who came after a busy client are at other files. -/
theorem split (h : Ledger start m slot busy prior effect taken) (hk : busy k) :
    ∃ later earlier, taken = later ++ k :: earlier ∧ k ∉ later ∧ k ∉ earlier ∧
      ∀ j ∈ later, slot j ≠ slot k := by
  obtain ⟨later, earlier, rfl⟩ := List.append_of_mem (h.mem_of_busy k hk)
  obtain ⟨-, hearlier, hapart⟩ := List.nodup_append.1 h.nodup
  refine ⟨later, earlier, rfl, fun hmem => ?_, (List.nodup_cons.1 hearlier).1, fun j hj hslot => ?_⟩
  · exact hapart k hmem k List.mem_cons_self rfl
  · exact (List.pairwise_append.1 h.alone).2.2 j hj k List.mem_cons_self hslot hk

/-- A client that has not stored anything yet finds what was there when its turn began. -/
theorem fileRecords_of_none (h : Ledger start m slot busy prior effect taken) (hk : busy k)
    (hnone : effect k = none) :
    (m.fileRecords (slot k).1 (slot k).2).Perm (prior k) := by
  obtain ⟨later, earlier, hsplit, -, -, hlater⟩ := h.split hk
  have hrecords := h.follows.records (slot k).1 (slot k).2
  rw [hsplit, latest_append hlater, latest_cons_of_none hnone] at hrecords
  rwa [h.prior_eq k later earlier hsplit]

/-- What a busy client has stored is still there. -/
theorem fileRecords_of_some (h : Ledger start m slot busy prior effect taken) (hk : busy k)
    (hsome : effect k = some rs) : (m.fileRecords (slot k).1 (slot k).2).Perm rs := by
  obtain ⟨later, earlier, hsplit, -, -, hlater⟩ := h.split hk
  have hrecords := h.follows.records (slot k).1 (slot k).2
  rw [hsplit, latest_append hlater, latest_cons_of_some hsome] at hrecords
  simpa [Latest.update] using hrecords

theorem enter (h : Ledger start m slot busy prior effect taken) (hk : k ∉ taken)
    (hfree : ∀ j, busy j → slot k ≠ slot j) :
    Ledger start m slot (fun j => j = k ∨ busy j)
      (Function.update prior k ((latest slot effect taken (slot k).1 (slot k).2).getD
        (start.fileRecords (slot k).1 (slot k).2))) effect (k :: taken) where
  nodup := List.nodup_cons.2 ⟨hk, h.nodup⟩
  mem_of_busy j hj := by
    rcases hj with rfl | hj
    · exact List.mem_cons_self
    · exact List.mem_cons_of_mem _ (h.mem_of_busy j hj)
  none_of_not_mem j hj := h.none_of_not_mem j fun hmem => hj (List.mem_cons_of_mem _ hmem)
  alone := by
    refine List.pairwise_cons.2 ⟨fun j hj hslot hbusy => ?_, ?_⟩
    · rcases hbusy with rfl | hbusy
      · exact hk hj
      · exact hfree j hbusy hslot
    · refine List.Pairwise.imp_of_mem ?_ h.alone
      rintro i j - hj himp hslot (rfl | hbusy)
      · exact hk hj
      · exact himp hslot hbusy
  prior_eq j later earlier hsplit := by
    cases later with
    | nil =>
      obtain ⟨rfl, rfl⟩ := List.cons.inj hsplit
      rw [Function.update_self]
    | cons first later =>
      obtain ⟨rfl, rfl⟩ := List.cons.inj hsplit
      have hjk : j ≠ k := by
        rintro rfl
        exact hk (List.mem_append_right _ List.mem_cons_self)
      rw [Function.update_of_ne hjk]
      exact h.prior_eq j later earlier rfl
  follows := by
    rw [latest_cons_of_none (h.none_of_not_mem k hk)]
    exact h.follows

theorem leave (h : Ledger start m slot busy prior effect taken) {still : Nat → Prop}
    (hstill : ∀ j, still j → busy j) : Ledger start m slot still prior effect taken where
  nodup := h.nodup
  mem_of_busy j hj := h.mem_of_busy j (hstill j hj)
  none_of_not_mem := h.none_of_not_mem
  alone := h.alone.imp fun himp hslot hj => himp hslot (hstill _ hj)
  prior_eq := h.prior_eq
  follows := h.follows

theorem latest_store (h : Ledger start m slot busy prior effect taken) (hk : busy k)
    (rs : List Record) :
    latest slot (Function.update effect k (some rs)) taken =
      (latest slot effect taken).update (slot k).1 (slot k).2 rs := by
  obtain ⟨later, earlier, rfl, -, hearlier, hlater⟩ := h.split hk
  funext name path
  by_cases hslot : slot k = (name, path)
  · have hother : ∀ j ∈ later, slot j ≠ (name, path) := fun j hj => hslot ▸ hlater j hj
    rw [latest_append hother, latest_cons_of_some (Function.update_self ..), hslot]
    simp [Latest.update]
  · rw [Latest.update, if_neg]
    · refine latest_congr fun j _ hj => Function.update_of_ne ?_ _ _
      rintro rfl
      exact hslot hj
    · rintro ⟨rfl, rfl⟩
      exact hslot rfl

/-- A busy client stores records in place of those of its file. -/
theorem store (h : Ledger start m slot busy prior effect taken) (hk : busy k)
    (hfollows : start.Follows n
      ((latest slot effect taken).update (slot k).1 (slot k).2 rs)) :
    Ledger start n slot busy prior (Function.update effect k (some rs)) taken where
  nodup := h.nodup
  mem_of_busy := h.mem_of_busy
  none_of_not_mem j hj := by
    have hjk : j ≠ k := by
      rintro rfl
      exact hj (h.mem_of_busy j hk)
    rw [Function.update_of_ne hjk]
    exact h.none_of_not_mem j hj
  alone := h.alone
  prior_eq j later earlier hsplit := by
    rw [h.prior_eq j later earlier hsplit]
    refine congrArg (Option.getD · _) (latest_congr fun i hi hslot => ?_)
    -- the busy client is not among those who were at the file earlier
    have hik : i ≠ k := by
      rintro rfl
      have halone := h.alone
      rw [hsplit] at halone
      exact (List.pairwise_cons.1 (List.pairwise_append.1 halone).2.1).1 i hi hslot.symm hk
    rw [Function.update_of_ne hik]
  follows := by
    rw [h.latest_store hk]
    exact hfollows

end Ledger

end CodeIndex.Index
