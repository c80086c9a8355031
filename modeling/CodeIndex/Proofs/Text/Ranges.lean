import CodeIndex.Text.Ranges
import Mathlib.Data.List.Chain

/-! Searching a table of ranges.  In a table whose ranges ascend and do not overlap, every number that
one of them holds is found. -/

namespace CodeIndex.Text

/-- A range comes before another one. -/
def Precedes (a b : Nat × Nat) : Prop := a.1 ≤ a.2 ∧ a.2 < b.1 ∧ b.1 ≤ b.2

instance (a b : Nat × Nat) : Decidable (Precedes a b) :=
  inferInstanceAs (Decidable (_ ∧ _ ∧ _))

instance : Trans Precedes Precedes Precedes where
  trans := by
    rintro a b c ⟨ha, hab, hb⟩ ⟨-, hbc, hc⟩
    exact ⟨ha, by omega, hc⟩

variable {table : Array (Nat × Nat)} {n : Nat}

/-- The ranges ascend, so that what is not in the middle range lies on the side to which it compares. -/
theorem searchRanges_of_mem (htable : table.toList.Pairwise Precedes) {depth lo hi i : Nat}
    (hdepth : hi < lo + depth) (hsize : hi ≤ table.size) (hlo : lo ≤ i) (hhi : i < hi)
    (hplace : i < table.size) (hfirst : table[i].1 ≤ n) (hlast : n ≤ table[i].2) :
    searchRanges table n depth lo hi = true := by
  have hbefore : ∀ j k (hj : j < table.size) (hk : k < table.size), j < k →
      Precedes table[j] table[k] := fun j k hj hk hjk =>
    List.pairwise_iff_getElem.1 htable j k hj hk hjk
  induction depth generalizing lo hi with
  | zero => omega
  | succ depth ih =>
    have hmid : (lo + hi) / 2 < table.size := by omega
    rw [searchRanges, if_pos (by omega)]
    simp only [Array.getElem?_eq_getElem hmid]
    split
    · next hless =>
      have hside : i < (lo + hi) / 2 := by
        by_contra hge
        rcases Nat.eq_or_lt_of_le (Nat.le_of_not_lt hge) with rfl | hlt
        · omega
        · obtain ⟨hle, hstrict, -⟩ := hbefore _ i hmid (by omega) hlt
          omega
      refine ih ?_ ?_ hlo hside <;> omega
    · split
      · next hgreater =>
        have hside : (lo + hi) / 2 + 1 ≤ i := by
          by_contra hge
          rcases Nat.eq_or_lt_of_le (Nat.le_of_not_lt hge) with heq | hlt
          · obtain rfl : i = (lo + hi) / 2 := by omega
            omega
          · obtain ⟨-, hstrict, hle⟩ := hbefore i _ (by omega) hmid (by omega)
            omega
        refine ih ?_ hsize hside hhi
        omega
      · rfl

/-- Some range holds all numbers from one to another. -/
def spans (ranges : List (Nat × Nat)) (first last : Nat) : Bool :=
  ranges.any fun r => last.ble r.2 && r.1.ble first

theorem inRanges_of_spans (htable : table.toList.Pairwise Precedes) {c : Char} {first last : Nat}
    (hspans : spans table.toList first last = true) (hfirst : first ≤ c.toNat)
    (hlast : c.toNat ≤ last) : inRanges table c = true := by
  obtain ⟨r, hr, hheld⟩ := List.any_eq_true.1 hspans
  obtain ⟨i, hi, rfl⟩ := List.getElem_of_mem hr
  simp only [Bool.and_eq_true, Nat.ble_eq] at hheld
  refine searchRanges_of_mem htable ?_ (le_refl _) (Nat.zero_le i) hi hi (hheld.2.trans hfirst)
    (hlast.trans hheld.1)
  omega

end CodeIndex.Text
