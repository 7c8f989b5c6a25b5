import Zbierak.Lib.Table
import Zbierak.Lib.Upsert

/-!
# Unique indexes

An index is unique when no key stands in it twice. A row that comes must bring a
new key, and a row that changes must keep its own.
-/
namespace UniqueIndex

variable {ρ κ : Type} {key : ρ → κ} {rows : List ρ}

/-- No key is that of two rows. -/
def Holds (key : ρ → κ) (rows : List ρ) : Prop := (rows.map key).Nodup

theorem holds_nil : Holds key [] := List.nodup_nil

theorem Holds.sublist {rows' : List ρ} (h : Holds key rows) (hsub : rows'.Sublist rows) :
    Holds key rows' := List.Nodup.sublist (hsub.map key) h

theorem Holds.filter (h : Holds key rows) (p : ρ → Bool) : Holds key (rows.filter p) :=
  h.sublist List.filter_sublist

theorem Holds.append (h : Holds key rows) {new : ρ} (hnew : ∀ r ∈ rows, key r ≠ key new) :
    Holds key (rows ++ [new]) := by
  rw [Holds, List.map_append, List.map_singleton, List.nodup_append]
  refine ⟨h, List.nodup_singleton _, ?_⟩
  rintro _ hr _ hk rfl
  obtain ⟨r, hr, hkey⟩ := List.mem_map.mp hr
  exact hnew r hr (hkey.trans (List.mem_singleton.mp hk))

/-- Rows that are rewritten keep their keys. -/
theorem Holds.map (h : Holds key rows) {f : ρ → ρ} (hf : ∀ r, key (f r) = key r) :
    Holds key (rows.map f) := by
  have hkeys : (rows.map f).map key = rows.map key := by
    rw [List.map_map]
    exact List.map_congr_left fun r _ => hf r
  rw [Holds, hkeys]
  exact h

theorem Holds.upsert (h : Holds key rows) {p : ρ → Bool} {f : ρ → ρ} {new : ρ}
    (hf : ∀ r, p r = true → key (f r) = key r) (hp : ∀ r, key r = key new → p r = true) :
    Holds key (Upsert.upsert p f new rows) := by
  unfold Upsert.upsert
  split
  · refine h.map fun r => ?_
    split
    · next hr => exact hf r hr
    · rfl
  · next hnone => exact h.append fun r hr hkey => hnone (List.any_eq_true.mpr ⟨r, hr, hp r hkey⟩)

section Tables

variable {t : Table ρ}

/-- The index on a column of a table. -/
def Column (key : ρ → κ) (t : Table ρ) : Prop := Holds (fun row => key row.2) t.rows

/-- The same said of the rows that are found. -/
theorem column_iff : Column key t ↔
    ∀ a b r s, t.get? a = some r → t.get? b = some s → key r = key s → a = b := by
  constructor
  · intro h a b r s hr hs hkey
    exact congrArg Prod.fst
      (List.inj_on_of_nodup_map h (t.get?_eq_some.mp hr) (t.get?_eq_some.mp hs) hkey)
  · intro h
    rw [Column, Holds, List.Nodup, List.pairwise_map]
    refine t.sorted.imp_of_mem fun {x y} hx hy hlt hkey => ?_
    have := h x.1 y.1 x.2 y.2 (t.get?_eq_some.mpr hx) (t.get?_eq_some.mpr hy) hkey
    omega

theorem Column.insert (h : Column key t) {new : ρ}
    (hnew : ∀ id r, t.get? id = some r → key r ≠ key new) : Column key (t.insert new) := by
  rw [Column, t.rows_insert]
  exact Holds.append h fun row hrow => hnew row.1 row.2 (t.get?_eq_some.mpr hrow)

theorem Column.update (h : Column key t) (p : Int → ρ → Bool) {f : ρ → ρ}
    (hf : ∀ r, key (f r) = key r) : Column key (t.update p f) := by
  rw [Column, t.rows_update]
  refine Holds.map h fun row => ?_
  dsimp only
  split
  · exact hf row.2
  · rfl

theorem Column.delete (h : Column key t) (p : Int → ρ → Bool) : Column key (t.delete p) := by
  rw [Column, t.rows_delete]
  exact Holds.filter h _

end Tables

end UniqueIndex
