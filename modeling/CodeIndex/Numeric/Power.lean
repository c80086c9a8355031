/-! Powers of two and of ten, and totals of lists. -/

namespace CodeIndex.Numeric

def twoTo (exponent : Nat) : Nat := Nat.pow 2 exponent

def tenTo (exponent : Nat) : Nat := Nat.pow 10 exponent

theorem twoTo_succ (n : Nat) : twoTo (n + 1) = 2 * twoTo n := Nat.mul_comm _ _

/-- The sum of a number for each member. -/
def total {α : Type} (f : α → Nat) (as : List α) : Nat := as.foldl (fun n a => n + f a) 0

theorem foldl_add_eq {α : Type} (f : α → Nat) (as : List α) (start : Nat) :
    as.foldl (fun n a => n + f a) start = start + total f as := by
  induction as generalizing start with
  | nil => rfl
  | cons a rest ih =>
    rw [total, List.foldl_cons, List.foldl_cons, ih, ih (0 + f a), Nat.zero_add, Nat.add_assoc]

theorem total_nil {α : Type} (f : α → Nat) : total f [] = 0 := rfl

theorem total_cons {α : Type} (f : α → Nat) (a : α) (rest : List α) :
    total f (a :: rest) = f a + total f rest := by
  rw [total, List.foldl_cons, foldl_add_eq, Nat.zero_add]

theorem total_append {α : Type} (f : α → Nat) (as bs : List α) :
    total f (as ++ bs) = total f as + total f bs := by
  rw [total, List.foldl_append, foldl_add_eq, foldl_add_eq, Nat.zero_add]

end CodeIndex.Numeric
