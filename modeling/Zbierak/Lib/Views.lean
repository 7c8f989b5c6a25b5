import Zbierak.Lib.Table

/-!
# Queries on a view

A view lets some rows of a list through, and of a row its key. A query that reads
no other rows, and of a row no more than the key, has the same answer on two
lists with the same view.
-/
namespace Views

variable {α β κ ρ : Type} {xs ys : List α} {p q : α → Bool}

/-- Rows that a view hides contribute nothing. -/
theorem flatMap_filter {f : α → List β} (hidden : ∀ x ∈ xs, p x = false → f x = []) :
    (xs.filter p).flatMap f = xs.flatMap f := by
  induction xs with
  | nil => rfl
  | cons x xs ih =>
    have htail := ih fun y hy => hidden y (List.mem_cons_of_mem x hy)
    by_cases hx : p x = true
    · rw [List.filter_cons_of_pos hx, List.flatMap_cons, List.flatMap_cons, htail]
    · rw [List.filter_cons_of_neg hx, List.flatMap_cons, htail,
        hidden x List.mem_cons_self (by simpa using hx), List.nil_append]

/-- Rows with the same keys contribute the same. -/
theorem flatMap_keys {key : α → κ} {f g : α → List β} (h : xs.map key = ys.map key)
    (same : ∀ x ∈ xs, ∀ y ∈ ys, key x = key y → f x = g y) : xs.flatMap f = ys.flatMap g := by
  induction xs generalizing ys with
  | nil =>
    obtain rfl : ys = [] := by simpa using h.symm
    rfl
  | cons x xs ih =>
    cases ys with
    | nil => cases h
    | cons y ys =>
      obtain ⟨hkey, htail⟩ := List.cons.inj h
      rw [List.flatMap_cons, List.flatMap_cons, same x List.mem_cons_self y List.mem_cons_self hkey,
        ih htail fun a ha b hb => same a (List.mem_cons_of_mem x ha) b (List.mem_cons_of_mem y hb)]

/-- A query that joins and filters, on two lists with the same view. -/
theorem flatMap_congr {key : α → κ} {f g : α → List β}
    (h : (xs.filter p).map key = (ys.filter q).map key)
    (hidden : ∀ x ∈ xs, p x = false → f x = []) (hidden' : ∀ y ∈ ys, q y = false → g y = [])
    (same : ∀ x y, x ∈ xs → p x = true → y ∈ ys → q y = true → key x = key y → f x = g y) :
    xs.flatMap f = ys.flatMap g := by
  rw [← flatMap_filter hidden, ← flatMap_filter hidden']
  refine flatMap_keys h fun x hx y hy hkey => ?_
  obtain ⟨hx, hp⟩ := List.mem_filter.mp hx
  obtain ⟨hy, hq⟩ := List.mem_filter.mp hy
  exact same x y hx hp hy hq hkey

/-- The same on views that show the rows as they are. -/
theorem flatMap_congr_rows {f g : α → List β} (h : xs.filter p = ys.filter q)
    (hidden : ∀ x ∈ xs, p x = false → f x = []) (hidden' : ∀ y ∈ ys, q y = false → g y = [])
    (same : ∀ x ∈ xs, p x = true → f x = g x) : xs.flatMap f = ys.flatMap g := by
  rw [← flatMap_filter hidden, ← flatMap_filter hidden', ← h]
  exact List.flatMap_congr fun x hx => same x (List.mem_filter.mp hx).1 (List.mem_filter.mp hx).2

/-- A join that finds at most one row. -/
theorem filterMap_congr {f g : α → Option β} (h : xs.filter p = ys.filter q)
    (hidden : ∀ x ∈ xs, p x = false → f x = none) (hidden' : ∀ y ∈ ys, q y = false → g y = none)
    (same : ∀ x ∈ xs, p x = true → f x = g x) : xs.filterMap f = ys.filterMap g := by
  rw [List.filterMap_eq_flatMap_toList, List.filterMap_eq_flatMap_toList]
  exact flatMap_congr_rows h (fun x hx hp => by rw [hidden x hx hp]; rfl)
    (fun y hy hq => by rw [hidden' y hy hq]; rfl) fun x hx hp => by rw [same x hx hp]

/-- A selection among the rows of the view. -/
theorem filter_congr {s t : α → Bool} (h : xs.filter p = ys.filter q)
    (hs : ∀ x ∈ xs, s x = true → p x = true) (ht : ∀ y ∈ ys, t y = true → q y = true)
    (same : ∀ x ∈ xs, x ∈ ys → p x = true → s x = t x) : xs.filter s = ys.filter t := by
  have hxs : (xs.filter p).filter s = xs.filter s := by
    rw [List.filter_filter]
    refine List.filter_congr fun x hx => ?_
    cases hsx : s x with
    | false => rfl
    | true => rw [hs x hx hsx, Bool.and_self]
  have hys : (ys.filter q).filter t = ys.filter t := by
    rw [List.filter_filter]
    refine List.filter_congr fun y hy => ?_
    cases hty : t y with
    | false => rfl
    | true => rw [ht y hy hty, Bool.and_self]
  rw [← hxs, ← hys, ← h]
  refine List.filter_congr fun x hx => ?_
  have hy : x ∈ ys := (List.mem_filter.mp (h ▸ hx)).1
  exact same x (List.mem_filter.mp hx).1 hy (List.mem_filter.mp hx).2

/-- A selection among the rows of the view, as far as their keys. -/
theorem map_filter_congr {key : α → κ} {s t : α → Bool}
    (h : (xs.filter p).map key = (ys.filter q).map key)
    (hs : ∀ x ∈ xs, s x = true → p x = true) (ht : ∀ y ∈ ys, t y = true → q y = true)
    (same : ∀ x y, p x = true → q y = true → key x = key y → s x = t y) :
    (xs.filter s).map key = (ys.filter t).map key := by
  have single : ∀ (l : List α) (s : α → Bool), (l.filter s).map key =
      l.flatMap fun x => if s x = true then [key x] else [] := by
    intro l s
    induction l with
    | nil => rfl
    | cons x l ih =>
      rw [List.flatMap_cons, ← ih]
      by_cases hx : s x = true <;> simp [hx]
  rw [single, single]
  refine flatMap_congr h (fun x hx hp => if_neg fun hsx => ?_) (fun y hy hq => if_neg fun hty => ?_)
    fun x y _ hp _ hq hkey => ?_
  · exact absurd (hs x hx hsx) (by simp [hp])
  · exact absurd (ht y hy hty) (by simp [hq])
  · rw [same x y hp hq hkey, hkey]

/-- A row of a table, as far as the view has it. -/
theorem get?_filter {t u : Table ρ} {p q : Int → ρ → Bool} (h : t.select p = u.select q) (id : Int) :
    (t.get? id).filter (p id) = (u.get? id).filter (q id) := by
  have key : ∀ (t : Table ρ) (p : Int → ρ → Bool) (r : ρ),
      (t.get? id).filter (p id) = some r ↔ (id, r) ∈ t.select p := by
    intro t p r
    rw [Option.filter_eq_some_iff, Table.mem_select]
  ext r
  rw [key, key, h]

/-- A row that the view shows whatever it holds. -/
theorem get?_congr {t u : Table ρ} {p q : Int → ρ → Bool} (h : t.select p = u.select q) {id : Int}
    (hp : ∀ r, p id r = true) (hq : ∀ r, q id r = true) : t.get? id = u.get? id := by
  have ht : ∀ r, (id, r) ∈ t.select p ↔ t.get? id = some r := fun r => by
    rw [Table.mem_select, hp r, and_iff_left rfl]
  have hu : ∀ r, (id, r) ∈ u.select q ↔ u.get? id = some r := fun r => by
    rw [Table.mem_select, hq r, and_iff_left rfl]
  ext r
  rw [← ht, ← hu, h]

/-- Deleted rows that the view did not show. -/
theorem select_delete {t : Table ρ} {p q : Int → ρ → Bool}
    (h : ∀ id r, t.get? id = some r → q id r = true → p id r = false) :
    (t.delete q).select p = t.select p := by
  simp only [Table.select, Table.rows_delete, List.filter_filter]
  refine List.filter_congr fun x hx => ?_
  cases hq : q x.1 x.2 with
  | false => simp
  | true => simp [h x.1 x.2 (t.get?_eq_some.mpr hx) hq]

end Views
