import Zbierak.Lib.Table
import Zbierak.Lib.Upsert

/-!
# References between tables

A column refers to a table when each key in it is one that the table has. Rows
that come must bring keys that are there, rows that change must keep theirs, and
the other table must not lose any.
-/
namespace Reference

/-- The table has a row under this key. -/
def Has {ρ : Type} (t : Table ρ) (id : Int) : Prop := (t.get? id).isSome = true

instance {ρ : Type} (t : Table ρ) (id : Int) : Decidable (Has t id) :=
  inferInstanceAs (Decidable ((t.get? id).isSome = true))

section Keys

variable {ρ : Type} {t : Table ρ} {id : Int}

theorem has_of_get? {r : ρ} (h : t.get? id = some r) : Has t id := by
  rw [Has, h]
  rfl

theorem Has.insert (h : Has t id) (r : ρ) : Has (t.insert r) id := by
  obtain ⟨x, hx⟩ := Option.isSome_iff_exists.mp h
  exact has_of_get? (t.get?_insert_of_some r hx)

theorem has_new (t : Table ρ) (r : ρ) : Has (t.insert r) t.nextId := by
  rw [Has, t.get?_insert, if_pos rfl]
  rfl

theorem Has.update (h : Has t id) (p : Int → ρ → Bool) (f : ρ → ρ) : Has (t.update p f) id := by
  rw [Has, t.get?_update, Option.isSome_map]
  exact h

theorem Has.extended {u : Table ρ} (h : Has t id) (hu : Table.Extended t u) : Has u id := by
  obtain ⟨r, hr⟩ := Option.isSome_iff_exists.mp h
  exact has_of_get? (hu.get? hr)

end Keys

variable {ρ κ : Type} {column : ρ → Option κ} {has has' : κ → Prop} {rows : List ρ}

/-- Each key of the column is there. -/
def Holds (column : ρ → Option κ) (has : κ → Prop) (rows : List ρ) : Prop :=
  ∀ r ∈ rows, ∀ k ∈ column r, has k

theorem holds_nil : Holds column has [] := fun _ h => (List.not_mem_nil h).elim

theorem Holds.mono (h : Holds column has rows) (hkept : ∀ k, has k → has' k) :
    Holds column has' rows :=
  fun r hr k hk => hkept k (h r hr k hk)

theorem Holds.subset {rows' : List ρ} (h : Holds column has rows) (hsub : rows' ⊆ rows) :
    Holds column has rows' :=
  fun r hr => h r (hsub hr)

theorem Holds.append {new : List ρ} (h : Holds column has rows) (hnew : Holds column has new) :
    Holds column has (rows ++ new) := by
  intro r hr
  rcases List.mem_append.mp hr with hr | hr
  · exact h r hr
  · exact hnew r hr

theorem holds_singleton {new : ρ} (hnew : ∀ k ∈ column new, has k) : Holds column has [new] := by
  intro r hr
  obtain rfl := List.mem_singleton.mp hr
  exact hnew

/-- A row that is rewritten keeps its key or gets one that is there. -/
theorem Holds.map (h : Holds column has rows) {f : ρ → ρ}
    (hf : ∀ r, ∀ k ∈ column (f r), k ∈ column r ∨ has k) : Holds column has (rows.map f) := by
  intro r hr k hk
  obtain ⟨old, hold, rfl⟩ := List.mem_map.mp hr
  rcases hf old k hk with hk | hk
  · exact h old hold k hk
  · exact hk

theorem Holds.upsert (h : Holds column has rows) {p : ρ → Bool} {f : ρ → ρ} {new : ρ}
    (hf : ∀ r, ∀ k ∈ column (f r), k ∈ column r ∨ has k) (hnew : ∀ k ∈ column new, has k) :
    Holds column has (Upsert.upsert p f new rows) := by
  unfold Upsert.upsert
  split
  · refine h.map fun r k hk => ?_
    split at hk
    · exact hf r k hk
    · exact .inl hk
  · exact h.append (holds_singleton hnew)

section Tables

variable {t : Table ρ} {column : Int × ρ → Option Int} {has : Int → Prop}

theorem Holds.insert (h : Holds column has t.rows) {r : ρ} (hr : ∀ k ∈ column (t.nextId, r), has k) :
    Holds column has (t.insert r).rows := by
  rw [t.rows_insert]
  exact h.append (holds_singleton hr)

theorem Holds.update (h : Holds column has t.rows) (p : Int → ρ → Bool) {f : ρ → ρ}
    (hf : ∀ id r, ∀ k ∈ column (id, f r), k ∈ column (id, r) ∨ has k) :
    Holds column has (t.update p f).rows := by
  rw [t.rows_update]
  refine h.map fun r k hk => ?_
  split at hk
  · exact hf r.1 r.2 k hk
  · exact .inl hk

theorem Holds.delete (h : Holds column has t.rows) (p : Int → ρ → Bool) :
    Holds column has (t.delete p).rows := by
  rw [t.rows_delete]
  exact h.subset (List.filter_subset_self _)

theorem Holds.insertAll (h : Holds column has t.rows) {new : List ρ}
    (hnew : ∀ r ∈ new, ∀ id, ∀ k ∈ column (id, r), has k) :
    Holds column has (t.insertAll new).rows := by
  induction new generalizing t with
  | nil => exact h
  | cons r rest ih =>
    exact ih (h.insert (hnew r (List.mem_cons_self ..) _)) fun s hs =>
      hnew s (List.mem_cons_of_mem r hs)

/-- The keys of the other table that go take the rows that refer to them along. -/
theorem Holds.cascade {id : Int} {key : ρ → Int} {parents : Table κ} {p : Int → κ → Bool}
    (hp : ∀ k r, p k r = true → k = id)
    (h : Holds (fun row : Int × ρ => some (key row.2)) (Has parents) t.rows) :
    Holds (fun row : Int × ρ => some (key row.2)) (Has (parents.delete p))
      (t.delete fun _ r => key r = id).rows := by
  rw [t.rows_delete]
  intro row hrow k hk
  obtain ⟨hmem, hkey⟩ := List.mem_filter.mp hrow
  obtain rfl := Option.mem_some_iff.mp hk
  obtain ⟨r, hr⟩ := Option.isSome_iff_exists.mp (h row hmem _ rfl)
  have hother : key row.2 ≠ id := by simpa using hkey
  have hstays : p (key row.2) r = false := by
    by_contra hgone
    exact hother (hp _ r (by simpa using hgone))
  rw [Has, Table.get?_delete, hr]
  simp [hstays]

end Tables

end Reference
