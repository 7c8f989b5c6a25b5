import Zbierak.Lib.Runs
import Mathlib.Data.List.Infix

/-!
# Facts about what came before

`Once P φ` says that `φ` held in one of the states of `P`, the states so far. A
decision that was taken in an earlier state stays accounted for as more of them
are added.
-/
namespace History

variable {σ ι : Type} {step : σ → ι → Option σ} {P Q : σ → Prop} {φ ψ : σ → Prop}

def Once (P φ : σ → Prop) : Prop := ∃ s, P s ∧ φ s

theorem Once.mono (h : Once P φ) (hsub : ∀ s, P s → Q s) : Once Q φ := by
  obtain ⟨s, hs, hφ⟩ := h
  exact ⟨s, hsub s hs, hφ⟩

theorem Once.imp (h : Once P φ) (himp : ∀ s, P s → φ s → ψ s) : Once P ψ := by
  obtain ⟨s, hs, hφ⟩ := h
  exact ⟨s, hs, himp s hs hφ⟩

/-- The states that a run passes through, both ends included. -/
def Visited (step : σ → ι → Option σ) (labels : List ι) (s t : σ) : Prop :=
  ∃ seen, seen <+: labels ∧ Runs.run step seen s = some t

theorem Visited.append {labels : List ι} {s t : σ} (h : Visited step labels s t) (more : List ι) :
    Visited step (labels ++ more) s t := by
  obtain ⟨seen, hseen, hrun⟩ := h
  exact ⟨seen, hseen.trans (List.prefix_append ..), hrun⟩

theorem visited_last {labels : List ι} {s t : σ} (h : Runs.run step labels s = some t) :
    Visited step labels s t := ⟨labels, List.prefix_rfl, h⟩

/-- An invariant may speak of the states so far, as long as more of them do no
harm. -/
theorem run_since {I : (σ → Prop) → σ → Prop} {s t : σ} {labels : List ι}
    (start : I (Visited step [] s) s)
    (mono : ∀ P Q u, (∀ v, P v → Q v) → I P u → I Q u)
    (keep : ∀ P u a v, P u → P v → I P u → step u a = some v → I P v)
    (hrun : Runs.run step labels s = some t) : I (Visited step labels s) t := by
  induction labels using List.reverseRecOn generalizing t with
  | nil =>
    obtain rfl : s = t := by simpa using hrun
    exact start
  | append_singleton labels a ih =>
    obtain ⟨u, hu, ha⟩ := Runs.run_append_some.mp hrun
    rw [Runs.run_singleton] at ha
    have hsofar : I (Visited step (labels ++ [a]) s) u :=
      mono _ _ u (fun v hv => hv.append [a]) (ih hu)
    exact keep _ u a t ((visited_last hu).append [a]) (visited_last hrun) hsofar ha

end History
