import Mathlib.Data.List.Basic
import Mathlib.Data.List.Induction

/-!
# Lock-out after a series of failures

What a history of attempts says about a lock, without a counter: the failures
since the last reset count, the one that completes the series locks for a span,
and failures in that span change nothing.
-/
namespace Lockout

inductive Attempt where
  | failure | success
  deriving DecidableEq, Repr

/-- Attempts with their times, in the order they were made. -/
abbrev History := List (Int × Attempt)

/-- The times of the failures counted since the last reset, newest first, after
one more attempt. The first failure after a lock starts a new series. -/
def count (limit : Nat) (span : Int) (counted : List Int) : Int × Attempt → List Int
  | (_, .success) => []
  | (time, .failure) =>
    match counted with
    | [] => [time]
    | last :: earlier =>
      if earlier.length + 1 < limit then time :: last :: earlier
      else if time < last + span then last :: earlier
      else [time]

def series (limit : Nat) (span : Int) (history : History) : List Int :=
  history.foldl (count limit span) []

/-- Some failure less than `span` ago completed a series, and no success followed. -/
def Locked (limit : Nat) (span : Int) (history : History) (now : Int) : Prop :=
  ∃ before time after, history = before ++ (time, .failure) :: after ∧
    (series limit span before).length + 1 = limit ∧ (∀ a ∈ after, a.2 = .failure) ∧
    time ≤ now ∧ now < time + span

variable {limit : Nat} {span : Int}

@[simp] theorem series_nil : series limit span [] = [] := rfl

@[simp] theorem series_append (history : History) (a : Int × Attempt) :
    series limit span (history ++ [a]) = count limit span (series limit span history) a := by
  simp [series]

theorem length_count_le (hlimit : 0 < limit) {counted : List Int} (h : counted.length ≤ limit)
    (a : Int × Attempt) : (count limit span counted a).length ≤ limit := by
  obtain ⟨time, _ | _⟩ := a
  · cases counted with
    | nil => exact hlimit
    | cons last earlier =>
      simp only [count]
      split
      · next hroom => exact hroom
      · split
        · exact h
        · exact hlimit
  · exact Nat.zero_le _

theorem length_series_le (hlimit : 0 < limit) (history : History) :
    (series limit span history).length ≤ limit := by
  induction history using List.reverseRecOn with
  | nil => exact Nat.zero_le _
  | append_singleton history a ih =>
    rw [series_append]
    exact length_count_le hlimit ih a

@[simp] theorem not_locked_nil (now : Int) : ¬ Locked limit span [] now := by
  rintro ⟨before, time, after, hsplit, -⟩
  simp at hsplit

/-- The last attempt completes the series, or is a failure during the lock. -/
theorem locked_append {history : History} {a : Int × Attempt} {now : Int} :
    Locked limit span (history ++ [a]) now ↔ a.2 = .failure ∧
      ((series limit span history).length + 1 = limit ∧ a.1 ≤ now ∧ now < a.1 + span ∨
        Locked limit span history now) := by
  constructor
  · rintro ⟨before, time, after, hsplit, hfull, hafter, htime⟩
    rcases List.eq_nil_or_concat' after with rfl | ⟨after, b, rfl⟩
    · obtain ⟨rfl, hlast⟩ := List.append_inj' hsplit rfl
      obtain rfl := List.singleton_inj.mp hlast
      exact ⟨rfl, .inl ⟨hfull, htime⟩⟩
    · rw [← List.cons_append, ← List.append_assoc] at hsplit
      obtain ⟨rfl, hlast⟩ := List.append_inj' hsplit rfl
      obtain rfl := List.singleton_inj.mp hlast
      exact ⟨hafter a (by simp),
        .inr ⟨before, time, after, rfl, hfull, fun b hb => hafter b (by simp [hb]), htime⟩⟩
  · rintro ⟨hfailure, ⟨hfull, htime⟩ | ⟨before, time, after, rfl, hfull, hafter, htime⟩⟩
    · obtain ⟨time, kind⟩ := a
      obtain rfl : kind = .failure := hfailure
      exact ⟨history, time, [], rfl, hfull, by simp, htime⟩
    · refine ⟨before, time, after ++ [a], by simp, hfull, ?_, htime⟩
      intro b hb
      rcases List.mem_append.mp hb with hb | hb
      · exact hafter b hb
      · exact List.mem_singleton.mp hb ▸ hfailure

/-- Whether the lock holds is read off the series: it is full, and its last
failure is less than `span` ago. -/
theorem locked_iff (hlimit : 1 < limit) {history : History} {now : Int}
    (hpast : ∀ a ∈ history, a.1 ≤ now) :
    Locked limit span history now ↔ (series limit span history).length = limit ∧
      ∃ last ∈ (series limit span history).head?, now < last + span := by
  induction history using List.reverseRecOn with
  | nil => simp
  | append_singleton history a ih =>
    have ih := ih fun b hb => hpast b (by simp [hb])
    have hnow : a.1 ≤ now := hpast a (by simp)
    have hlen : (series limit span history).length ≤ limit :=
      length_series_le (by omega) history
    rw [locked_append, series_append, ih]
    obtain ⟨time, _ | _⟩ := a
    · cases hseries : series limit span history with
      | nil =>
        simp only [count, List.length_nil, List.length_singleton]
        omega
      | cons last earlier =>
        rw [hseries] at hlen
        simp only [List.length_cons] at hlen hnow ⊢
        simp only [count]
        split
        · next hroom =>
          simp only [List.length_cons, List.head?_cons, Option.mem_some_iff, exists_eq_left', true_and]
          omega
        · split
          · next hduring =>
            simp only [List.length_cons, List.head?_cons, Option.mem_some_iff, exists_eq_left',
              true_and]
            omega
          · next hover =>
            simp only [List.length_cons, List.head?_cons, Option.mem_some_iff, exists_eq_left',
              true_and, List.length_nil]
            omega
    · simp [count]

end Lockout
