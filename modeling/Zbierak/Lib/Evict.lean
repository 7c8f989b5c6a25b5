import Mathlib.Data.List.Infix
import Mathlib.Algebra.BigOperators.Group.List.Basic
import Mathlib.Algebra.Ring.Nat

/-!
# Eviction from the front

A bounded collection drops its oldest values until the rest meets the bound.
What is left is the longest suffix that fits.
-/
namespace Evict

variable {α : Type} (size : α → Nat) (bound : Nat)

def total (l : List α) : Nat := (l.map size).sum

@[simp] theorem total_nil : total size [] = 0 := rfl

@[simp] theorem total_cons (x : α) (l : List α) : total size (x :: l) = size x + total size l := rfl

@[simp] theorem total_append (l m : List α) :
    total size (l ++ m) = total size l + total size m := by
  simp [total]

theorem total_perm {l m : List α} (h : l.Perm m) : total size l = total size m :=
  (h.map size).sum_eq

/-- Drop values from the front until the rest fits. -/
def fit : List α → List α
  | [] => []
  | x :: l => if total size (x :: l) ≤ bound then x :: l else fit l

/-- The longest suffix within the bound. -/
structure Longest (kept l : List α) : Prop where
  suffix : kept <:+ l
  fits : total size kept ≤ bound
  longest : ∀ other, other <:+ l → total size other ≤ bound → other <:+ kept

theorem fit_suffix (l : List α) : fit size bound l <:+ l := by
  induction l with
  | nil => exact List.suffix_refl _
  | cons x l ih =>
    rw [fit]
    split
    · exact List.suffix_refl _
    · exact ih.trans (List.suffix_cons x l)

theorem total_fit_le (l : List α) : total size (fit size bound l) ≤ bound := by
  induction l with
  | nil => exact Nat.zero_le _
  | cons x l ih =>
    rw [fit]
    split
    · next h => exact h
    · exact ih

theorem suffix_fit {l other : List α} (hsuffix : other <:+ l) (hfits : total size other ≤ bound) :
    other <:+ fit size bound l := by
  induction l with
  | nil => exact hsuffix
  | cons x l ih =>
    rw [fit]
    split
    · exact hsuffix
    · next h =>
      rcases List.suffix_cons_iff.mp hsuffix with rfl | hsuffix
      · exact absurd hfits h
      · exact ih hsuffix

theorem longest_fit (l : List α) : Longest size bound (fit size bound l) l :=
  ⟨fit_suffix size bound l, total_fit_le size bound l, fun _ => suffix_fit size bound⟩

/-- A value stays exactly if it fits together with all that comes after it. -/
theorem mem_fit_iff {before after : List α} {x : α} (hbefore : x ∉ before) (hafter : x ∉ after) :
    x ∈ fit size bound (before ++ x :: after) ↔ total size (x :: after) ≤ bound := by
  induction before with
  | nil =>
    rw [List.nil_append, fit]
    split
    · next h => exact iff_of_true List.mem_cons_self h
    · next h =>
      refine iff_of_false (fun hmem => ?_) h
      exact hafter ((fit_suffix size bound after).subset hmem)
  | cons y before ih =>
    rw [List.cons_append, fit]
    split
    · next h =>
      refine iff_of_true (by simp) ?_
      rw [total_cons, total_append] at h
      omega
    · exact ih fun hmem => hbefore (List.mem_cons_of_mem y hmem)

end Evict
