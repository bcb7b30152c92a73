/-!
# Sizes

Arithmetic of sizes that several stores share: the least size, which is 1, and sums over lists.
-/

namespace WorkStealing

/-- The sum of a measure over a list. -/
def sumOf {α : Type} (f : α → Nat) : List α → Nat
  | [] => 0
  | a :: rest => f a + sumOf f rest

theorem length_flatMap {α β : Type} (f : α → List β) (as : List α) :
    (as.flatMap f).length = sumOf (fun a => (f a).length) as := by
  induction as with
  | nil => rfl
  | cons a rest ih => rw [List.flatMap_cons, List.length_append, ih, sumOf]

theorem zero_lt_max_one (n : Nat) : 0 < max n 1 := Nat.lt_of_lt_of_le Nat.one_pos (Nat.le_max_right n 1)

theorem replicate_max_one_ne_nil {α : Type} (n : Nat) (a : α) : List.replicate (max n 1) a ≠ [] := by
  rw [ne_eq, List.replicate_eq_nil_iff]
  exact Nat.ne_of_gt (zero_lt_max_one n)

end WorkStealing
