import Mathlib.Data.List.Nodup

/-!
# Insert or ignore under a bound

Values are added to a collection one after another; a value that is there
already is ignored and uses up no room. What is added are the first values that
are new.
-/
namespace Merge

variable {α : Type} [DecidableEq α]

/-- The values that are not stored, each once, in the order in which they come. -/
def fresh (stored values : List α) : List α := (values.filter (· ∉ stored)).eraseDups

@[simp] theorem fresh_nil (stored : List α) : fresh stored [] = [] := rfl

@[simp] theorem fresh_cons_of_mem {stored : List α} {x : α} (h : x ∈ stored) (values : List α) :
    fresh stored (x :: values) = fresh stored values := by
  simp [fresh, h]

@[simp] theorem fresh_cons_of_not_mem {stored : List α} {x : α} (h : x ∉ stored) (values : List α) :
    fresh stored (x :: values) = x :: fresh (stored ++ [x]) values := by
  simp only [fresh, List.filter_cons, h, not_false_eq_true, decide_true, if_true,
    List.eraseDups_cons, List.filter_filter]
  congr 2
  apply List.filter_congr
  intro y _
  simp [and_comm, beq_eq_decide]

theorem mem_fresh {stored values : List α} {x : α} :
    x ∈ fresh stored values ↔ x ∈ values ∧ x ∉ stored := by
  simp [fresh]

theorem nodup_append_fresh {stored : List α} (h : stored.Nodup) (values : List α) :
    (stored ++ fresh stored values).Nodup := by
  induction values generalizing stored with
  | nil => simpa using h
  | cons x values ih =>
    by_cases hx : x ∈ stored
    · rw [fresh_cons_of_mem hx]
      exact ih h
    · rw [fresh_cons_of_not_mem hx]
      have hnext : (stored ++ [x]).Nodup := by
        rw [List.nodup_append_comm, List.singleton_append, List.nodup_cons]
        exact ⟨hx, h⟩
      simpa using ih hnext

/-- New values that are distinct are all added. -/
theorem fresh_of_nodup {stored values : List α} (hnodup : values.Nodup)
    (hnew : ∀ x ∈ values, x ∉ stored) : fresh stored values = values := by
  induction values generalizing stored with
  | nil => rfl
  | cons x values ih =>
    rw [List.nodup_cons] at hnodup
    rw [fresh_cons_of_not_mem (hnew x List.mem_cons_self), ih hnodup.2]
    intro y hy hmem
    rcases List.mem_append.mp hmem with hmem | hmem
    · exact hnew y (List.mem_cons_of_mem x hy) hmem
    · obtain rfl := List.mem_singleton.mp hmem
      exact hnodup.1 hy

/-- The stored values, extended by the first new ones up to a bound. -/
def merge (bound : Nat) (stored values : List α) : List α :=
  stored ++ (fresh stored values).take (bound - stored.length)

theorem nodup_merge {stored : List α} (h : stored.Nodup) (bound : Nat) (values : List α) :
    (merge bound stored values).Nodup := by
  refine (nodup_append_fresh h values).sublist ?_
  exact (List.Sublist.refl stored).append (List.take_sublist _ _)

theorem length_merge_le {bound : Nat} {stored : List α} (h : stored.length ≤ bound)
    (values : List α) : (merge bound stored values).length ≤ bound := by
  rw [merge, List.length_append, List.length_take]
  omega

theorem mem_merge {bound : Nat} {stored values : List α} {x : α} (h : x ∈ merge bound stored values) :
    x ∈ stored ∨ x ∈ values := by
  rcases List.mem_append.mp h with h | h
  · exact .inl h
  · exact .inr (mem_fresh.mp (List.mem_of_mem_take h)).1

end Merge
