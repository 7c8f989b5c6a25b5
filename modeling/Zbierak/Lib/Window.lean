import Mathlib.Data.List.Basic

/-!
# Rate bounds over sliding windows

`AtMost n span times`: every half-open window of length `span` holds at most `n`
of the recorded times. Bursts of at most `n` that are `span` apart meet the
bound.
-/
namespace Window

def within (start span t : Int) : Bool := start ≤ t ∧ t < start + span

def AtMost (n : Nat) (span : Int) (times : List Int) : Prop :=
  ∀ start, times.countP (within start span) ≤ n

theorem atMost_nil (n : Nat) (span : Int) : AtMost n span [] := fun _ => Nat.zero_le n

/-- A later burst that starts one span after everything before it. -/
theorem AtMost.append {n : Nat} {span limit : Int} {old burst : List Int} (hold : AtMost n span old)
    (hlen : burst.length ≤ n) (hbefore : ∀ t ∈ old, t + span ≤ limit)
    (hafter : ∀ t ∈ burst, limit ≤ t) : AtMost n span (old ++ burst) := by
  intro start
  rw [List.countP_append]
  by_cases hlate : start + span ≤ limit
  · have hzero : burst.countP (within start span) = 0 := by
      rw [List.countP_eq_zero]
      intro t ht
      have := hafter t ht
      simp only [within, decide_eq_true_eq]
      omega
    have := hold start
    omega
  · have hzero : old.countP (within start span) = 0 := by
      rw [List.countP_eq_zero]
      intro t ht
      have := hbefore t ht
      simp only [within, decide_eq_true_eq]
      omega
    have := burst.countP_le_length (p := within start span)
    omega

end Window
