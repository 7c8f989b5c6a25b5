import Mathlib.Data.List.Basic

/-!
# Insert or update

A list of rows of which at most the first that satisfies `p` is ever looked at
is a map, and an upsert overwrites one of its entries.
-/
namespace Upsert

variable {ρ : Type}

/-- Rewrite the rows that satisfy `p`; when there is none, add `new`. -/
def upsert (p : ρ → Bool) (f : ρ → ρ) (new : ρ) (rows : List ρ) : List ρ :=
  if rows.any p then rows.map fun r => if p r then f r else r else rows ++ [new]

variable {p q : ρ → Bool} {f : ρ → ρ} {new : ρ}

/-- An upsert keeps a key unique that the rewriting keeps and `p` tests. -/
theorem upsert_unique {κ : Type} {key : ρ → κ} (hf : ∀ r, key (f r) = key r)
    (hp : ∀ r, p r = true ↔ key r = key new) {rows : List ρ}
    (hunique : ∀ a ∈ rows, ∀ b ∈ rows, key a = key b → a = b) :
    ∀ a ∈ upsert p f new rows, ∀ b ∈ upsert p f new rows, key a = key b → a = b := by
  have hkey : ∀ r, key (if p r then f r else r) = key r := by
    intro r
    split
    · exact hf r
    · rfl
  unfold upsert
  split
  · intro a ha b hb hab
    obtain ⟨r, hr, rfl⟩ := List.mem_map.mp ha
    obtain ⟨s, hs, rfl⟩ := List.mem_map.mp hb
    rw [hkey, hkey] at hab
    rw [hunique r hr s hs hab]
  · next hnone =>
    have hfresh : ∀ r ∈ rows, key r ≠ key new := by
      intro r hr heq
      exact hnone (List.any_eq_true.mpr ⟨r, hr, (hp r).mpr heq⟩)
    intro a ha b hb hab
    rcases List.mem_append.mp ha with ha | ha <;> rcases List.mem_append.mp hb with hb | hb
    · exact hunique a ha b hb hab
    · exact absurd (List.mem_singleton.mp hb ▸ hab) (hfresh a ha)
    · exact absurd (List.mem_singleton.mp ha ▸ hab.symm) (hfresh b hb)
    · rw [List.mem_singleton.mp ha, List.mem_singleton.mp hb]

theorem find?_map_self (hf : ∀ r, p r = true → p (f r) = true) (rows : List ρ) :
    (rows.map fun r => if p r then f r else r).find? p = (rows.find? p).map f := by
  induction rows with
  | nil => rfl
  | cons r rows ih =>
    by_cases hr : p r = true
    · simp [hr, hf r hr]
    · simp only [Bool.not_eq_true] at hr
      simp [hr, ih]

theorem find?_upsert_self (hf : ∀ r, p r = true → p (f r) = true) (hnew : p new = true)
    (rows : List ρ) :
    (upsert p f new rows).find? p = some (((rows.find? p).map f).getD new) := by
  unfold upsert
  split
  · next hany =>
    obtain ⟨r, hr⟩ : ∃ r, rows.find? p = some r := by
      rw [← Option.isSome_iff_exists, List.find?_isSome]
      simpa using hany
    rw [find?_map_self hf, hr, Option.map_some, Option.getD_some]
  · next hnone =>
    have hfind : rows.find? p = none := by simpa using hnone
    simp [hfind, hnew]

theorem filter_map_other (hf : ∀ r, p r = true → q r = false ∧ q (f r) = false) (rows : List ρ) :
    (rows.map fun r => if p r then f r else r).filter q = rows.filter q := by
  induction rows with
  | nil => rfl
  | cons r rows ih =>
    by_cases hr : p r = true
    · obtain ⟨hold, hnew⟩ := hf r hr
      simp [hr, hold, hnew, ih]
    · simp only [Bool.not_eq_true] at hr
      simp [hr, List.filter_cons, ih]

/-- A selection that takes none of the rewritten rows and not the new one. -/
theorem filter_upsert_other (hf : ∀ r, p r = true → q r = false ∧ q (f r) = false)
    (hnew : q new = false) (rows : List ρ) : (upsert p f new rows).filter q = rows.filter q := by
  unfold upsert
  split
  · exact filter_map_other hf rows
  · simp [hnew]

/-- And a look-up. -/
theorem find?_upsert_other (hf : ∀ r, p r = true → q r = false ∧ q (f r) = false)
    (hnew : q new = false) (rows : List ρ) : (upsert p f new rows).find? q = rows.find? q := by
  rw [← List.head?_filter, ← List.head?_filter, filter_upsert_other hf hnew]

end Upsert
