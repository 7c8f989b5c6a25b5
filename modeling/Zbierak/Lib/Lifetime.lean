import Mathlib.Data.List.Basic
import Mathlib.Data.List.Induction

/-!
# Lifetimes

Some labels of a state machine begin a fact about its state and others end it.
The fact holds after a run when a label of the run began it and none of the
later ones ended it.
-/
namespace Lifetime

variable {σ ι : Type} (step : σ → ι → σ) (begins : σ → ι → Prop) (ends : ι → Prop)

/-- A label of the run began it, and none after that one ended it. -/
def Since (labels : List ι) (s : σ) : Prop :=
  ∃ before a rest, labels = before ++ a :: rest ∧ begins (before.foldl step s) a ∧
    ∀ b ∈ rest, ¬ ends b

variable {step begins ends}

@[simp] theorem since_nil (s : σ) : ¬ Since step begins ends [] s := by
  rintro ⟨before, a, rest, h, -⟩
  simp at h

theorem since_snoc (labels : List ι) (a : ι) (s : σ) :
    Since step begins ends (labels ++ [a]) s ↔
      begins (labels.foldl step s) a ∨ (Since step begins ends labels s ∧ ¬ ends a) := by
  constructor
  · rintro ⟨before, b, rest, h, hbegins, hends⟩
    induction rest using List.reverseRecOn with
    | nil =>
      obtain ⟨rfl, hab⟩ := List.append_inj' h rfl
      obtain rfl : a = b := by simpa using hab
      exact .inl hbegins
    | append_singleton rest c _ =>
      rw [← List.cons_append, ← List.append_assoc] at h
      obtain ⟨rfl, hac⟩ := List.append_inj' h rfl
      obtain rfl : a = c := by simpa using hac
      refine .inr ⟨⟨before, b, rest, rfl, hbegins, fun x hx => hends x ?_⟩, hends a ?_⟩
      · exact List.mem_append_left _ hx
      · simp
  · rintro (hbegins | ⟨⟨before, b, rest, rfl, hbegins, hends⟩, ha⟩)
    · exact ⟨labels, a, [], rfl, hbegins, by simp⟩
    · refine ⟨before, b, rest ++ [a], by simp, hbegins, fun x hx => ?_⟩
      rcases List.mem_append.mp hx with hx | hx
      · exact hends x hx
      · rw [List.mem_singleton.mp hx]
        exact ha

/-- A fact that each step begins, ends or keeps is the one with this lifetime. -/
theorem holds_iff {P : σ → Prop}
    (hstep : ∀ s a, P (step s a) ↔ begins s a ∨ (P s ∧ ¬ ends a)) {s : σ} (hs : ¬ P s)
    (labels : List ι) : P (labels.foldl step s) ↔ Since step begins ends labels s := by
  induction labels using List.reverseRecOn with
  | nil => simpa using hs
  | append_singleton labels a ih =>
    rw [List.foldl_append, List.foldl_cons, List.foldl_nil, hstep, ih, since_snoc]

end Lifetime
