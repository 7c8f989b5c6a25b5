import Mathlib.Data.List.DropRight

/-!
# Bounded trails

A trail keeps the newest entries: an entry that finds it full pushes the oldest
out. What is left after any number of entries is the end of what went in.
-/
namespace Trail

variable {α : Type} {capacity : Nat}

def push (capacity : Nat) (x : α) (trail : List α) : List α :=
  if capacity = 0 then trail
  else (if trail.length = capacity then trail.drop 1 else trail) ++ [x]

@[simp] theorem length_rtake (n : Nat) (xs : List α) : (xs.rtake n).length = min n xs.length := by
  rw [List.rtake, List.length_drop]
  omega

/-- One entry more. -/
theorem push_rtake (x : α) (xs : List α) :
    push capacity x (xs.rtake capacity) = (xs ++ [x]).rtake capacity := by
  cases capacity with
  | zero => rw [push, if_pos rfl, List.rtake_zero, List.rtake_zero]
  | succ n =>
    rw [push, if_neg (Nat.succ_ne_zero n), length_rtake, List.rtake_concat_succ]
    congr 1
    split
    · rw [List.rtake, List.rtake, List.drop_drop]
      congr 1
      omega
    · rw [List.rtake, List.rtake]
      congr 1
      omega

theorem foldl_push (xs done : List α) :
    xs.foldl (fun trail x => push capacity x trail) (done.rtake capacity) =
      (done ++ xs).rtake capacity := by
  induction xs generalizing done with
  | nil => rw [List.foldl_nil, List.append_nil]
  | cons x xs ih =>
    rw [List.foldl_cons, push_rtake, ih, List.append_assoc]
    rfl

end Trail
