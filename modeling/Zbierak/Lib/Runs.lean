import Mathlib.Data.List.Basic

/-!
# Runs of a labelled partial step

A system is a partial function `step : σ → ι → Option σ`: the label carries
every choice the environment makes, and `none` means that the label is not
enabled. All facts about whole runs follow from facts about one step.
-/
namespace Runs

variable {σ ι : Type} {step : σ → ι → Option σ}

/-- Execute the labels in order; `none` when some label is not enabled. -/
def run (step : σ → ι → Option σ) : List ι → σ → Option σ
  | [], s => some s
  | a :: as, s => (step s a).bind (run step as)

@[simp] theorem run_nil (s : σ) : run step [] s = some s := rfl
@[simp] theorem run_cons (a : ι) (as : List ι) (s : σ) :
    run step (a :: as) s = (step s a).bind (run step as) := rfl

@[simp] theorem run_singleton (a : ι) (s : σ) : run step [a] s = step s a := by
  cases h : step s a <;> simp [run, h]

theorem run_cons_some {a : ι} {as : List ι} {s t : σ} :
    run step (a :: as) s = some t ↔ ∃ u, step s a = some u ∧ run step as u = some t := by
  simp only [run_cons, Option.bind_eq_some_iff]

theorem run_append (as bs : List ι) (s : σ) :
    run step (as ++ bs) s = (run step as s).bind (run step bs) := by
  induction as generalizing s with
  | nil => simp
  | cons a as ih =>
    simp only [List.cons_append, run_cons]
    cases step s a with
    | none => rfl
    | some u => simpa using ih u

theorem run_append_some {as bs : List ι} {s t : σ} :
    run step (as ++ bs) s = some t ↔ ∃ u, run step as s = some u ∧ run step bs u = some t := by
  rw [run_append, Option.bind_eq_some_iff]

/-- A property kept by every step is kept by every run. -/
theorem run_invariant {I : σ → Prop} (keep : ∀ s a t, I s → step s a = some t → I t)
    {as : List ι} {s t : σ} (hr : run step as s = some t) (hs : I s) : I t := by
  induction as generalizing s with
  | nil =>
    obtain rfl : s = t := by simpa using hr
    exact hs
  | cons a as ih =>
    obtain ⟨u, hu, ht⟩ := run_cons_some.mp hr
    exact ih ht (keep s a u hs hu)

/-- A reflexive and transitive relation that every step of an invariant state
keeps holds between the two ends of every run. -/
theorem run_relation_of {I : σ → Prop} {R : σ → σ → Prop} (refl : ∀ s, R s s)
    (trans : ∀ s t u, R s t → R t u → R s u)
    (inv : ∀ s a t, I s → step s a = some t → I t)
    (keep : ∀ s a t, I s → step s a = some t → R s t)
    {as : List ι} {s t : σ} (hr : run step as s = some t) (hs : I s) : R s t := by
  induction as generalizing s with
  | nil =>
    obtain rfl : s = t := by simpa using hr
    exact refl s
  | cons a as ih =>
    obtain ⟨u, hu, ht⟩ := run_cons_some.mp hr
    exact trans s u t (keep s a u hs hu) (ih ht (inv s a u hs hu))

/-- Every step of the run starts in a state that meets `C` for its label. -/
def Along (step : σ → ι → Option σ) (C : σ → ι → Prop) : List ι → σ → Prop
  | [], _ => True
  | a :: as, s => C s a ∧ ∀ t ∈ step s a, Along step C as t

instance decidableAlong (step : σ → ι → Option σ) (C : σ → ι → Prop) [∀ s a, Decidable (C s a)] :
    ∀ as s, Decidable (Along step C as s)
  | [], _ => isTrue trivial
  | a :: as, s =>
    have := decidableAlong step C as
    inferInstanceAs (Decidable (C s a ∧ ∀ t ∈ step s a, Along step C as t))

theorem along_of_forall {C : σ → ι → Prop} (h : ∀ s a, C s a) (as : List ι) (s : σ) :
    Along step C as s := by
  induction as generalizing s with
  | nil => trivial
  | cons a as ih => exact ⟨h s a, fun t _ => ih t⟩

/-- Only what holds of each step matters. -/
theorem along_congr {C D : σ → ι → Prop} (h : ∀ s a, C s a ↔ D s a) (as : List ι) (s : σ) :
    Along step C as s ↔ Along step D as s := by
  induction as generalizing s with
  | nil => exact Iff.rfl
  | cons a as ih => exact and_congr (h s a) (forall₂_congr fun t _ => ih t)

/-- The same under an invariant. -/
theorem along_congr_of {C D : σ → ι → Prop} {I : σ → Prop}
    (keep : ∀ s a t, I s → step s a = some t → I t) (h : ∀ s a, I s → (C s a ↔ D s a))
    (as : List ι) {s : σ} (hs : I s) : Along step C as s ↔ Along step D as s := by
  induction as generalizing s with
  | nil => exact Iff.rfl
  | cons a as ih =>
    exact and_congr (h s a hs) (forall₂_congr fun t ht => ih (keep s a t hs ht))

theorem Along.mono {C D : σ → ι → Prop} (h : ∀ s a, C s a → D s a) {as : List ι} {s : σ}
    (hc : Along step C as s) : Along step D as s := by
  induction as generalizing s with
  | nil => trivial
  | cons a as ih => exact ⟨h s a hc.1, fun t ht => ih (hc.2 t ht)⟩

theorem Along.and {C D : σ → ι → Prop} {as : List ι} {s : σ} (hc : Along step C as s)
    (hd : Along step D as s) : Along step (fun s a => C s a ∧ D s a) as s := by
  induction as generalizing s with
  | nil => trivial
  | cons a as ih => exact ⟨⟨hc.1, hd.1⟩, fun t ht => ih (hc.2 t ht) (hd.2 t ht)⟩

/-- A property kept by every step that meets `C` is kept by every run whose
steps all do. -/
theorem along_invariant {C : σ → ι → Prop} {I : σ → Prop}
    (keep : ∀ s a t, I s → C s a → step s a = some t → I t)
    {as : List ι} {s t : σ} (hr : run step as s = some t) (hc : Along step C as s)
    (hs : I s) : I t := by
  induction as generalizing s with
  | nil =>
    obtain rfl : s = t := by simpa using hr
    exact hs
  | cons a as ih =>
    obtain ⟨u, hu, ht⟩ := run_cons_some.mp hr
    exact ih ht (hc.2 u hu) (keep s a u hs hc.1 hu)

/-- What an invariant says of every step that meets `C` holds along every run
whose steps all do. -/
theorem Along.imp_of {C D : σ → ι → Prop} {I : σ → Prop}
    (keep : ∀ s a t, I s → C s a → step s a = some t → I t) (h : ∀ s a, I s → C s a → D s a)
    {as : List ι} {s : σ} (hc : Along step C as s) (hs : I s) : Along step D as s := by
  induction as generalizing s with
  | nil => trivial
  | cons a as ih =>
    exact ⟨h s a hs hc.1, fun t ht => ih (hc.2 t ht) (keep s a t hs hc.1 ht)⟩

/-- What an invariant says of every enabled step holds along every run. -/
theorem along_of_invariant {C : σ → ι → Prop} {I : σ → Prop}
    (keep : ∀ s a t, I s → step s a = some t → I t) (hC : ∀ s a t, I s → step s a = some t → C s a)
    {as : List ι} {s t : σ} (hr : run step as s = some t) (hs : I s) : Along step C as s := by
  induction as generalizing s with
  | nil => trivial
  | cons a as ih =>
    obtain ⟨u, hu, ht⟩ := run_cons_some.mp hr
    refine ⟨hC s a u hs hu, fun v hv => ?_⟩
    obtain rfl : u = v := Option.some.inj (hu.symm.trans hv)
    exact ih ht (keep s a u hs hu)

/-- A property that fails at the start of a run and holds at its end becomes
true at one of its steps. -/
theorem run_turns {p : σ → Prop} {as : List ι} {s t : σ} (hr : run step as s = some t)
    (hs : ¬ p s) (ht : p t) :
    ∃ bs a cs u v, as = bs ++ a :: cs ∧ run step bs s = some u ∧ step u a = some v ∧
      ¬ p u ∧ p v ∧ run step cs v = some t := by
  induction as generalizing s with
  | nil =>
    obtain rfl : s = t := by simpa using hr
    exact absurd ht hs
  | cons a as ih =>
    obtain ⟨u, hu, hr⟩ := run_cons_some.mp hr
    by_cases hp : p u
    · exact ⟨[], a, as, s, u, rfl, rfl, hu, hs, hp, hr⟩
    · obtain ⟨bs, b, cs, x, y, rfl, hbs, hstep, hx, hy, hcs⟩ := ih hr hp
      exact ⟨a :: bs, b, cs, x, y, rfl, run_cons_some.mpr ⟨u, hu, hbs⟩, hstep, hx, hy, hcs⟩

/-- States a run reaches from a state that satisfies `init`. -/
def Reachable (step : σ → ι → Option σ) (init : σ → Prop) (s : σ) : Prop :=
  ∃ s₀ as, init s₀ ∧ run step as s₀ = some s

theorem Reachable.run {init : σ → Prop} {s t : σ} {as : List ι}
    (h : Reachable step init s) (hr : Runs.run step as s = some t) : Reachable step init t := by
  obtain ⟨s₀, bs, h₀, hs⟩ := h
  exact ⟨s₀, bs ++ as, h₀, run_append_some.mpr ⟨s, hs, hr⟩⟩

/-- An invariant of the initial states that every step keeps holds in every
reachable state. -/
theorem Reachable.invariant {init I : σ → Prop} (start : ∀ s, init s → I s)
    (keep : ∀ s a t, I s → step s a = some t → I t) {s : σ}
    (h : Reachable step init s) : I s := by
  obtain ⟨s₀, as, h₀, hr⟩ := h
  exact run_invariant keep hr (start s₀ h₀)

end Runs
