import Mathlib.Data.List.Basic
import Mathlib.Data.List.Induction
import Mathlib.Data.List.Nodup
import Mathlib.Data.List.TakeWhile

/-!
# Groups of a stream

Every entry of a stream has a key; some entries open the group of their key.
Groups stand in the order in which they were opened, and the row of a group is
rendered from what the stream says about its key since then. Rows that are
updated in place as the entries come in are the rows rendered in the end.
-/
namespace Groups

variable {κ ε ρ : Type} [DecidableEq κ] (key : ε → κ) (opens : ε → Bool)

/-- The groups, in the order in which they were opened. -/
def keys (entries : List ε) : List κ := ((entries.filter opens).map key).eraseDups

/-- What the stream says about a key since its group was opened. -/
def about (k : κ) (entries : List ε) : List ε :=
  (entries.filter fun e => key e = k).dropWhile fun e => !opens e

/-- One row for each group. -/
def table (render : κ → List ε → ρ) (entries : List ε) : List ρ :=
  (keys key opens entries).map fun k => render k (about key opens k entries)

variable {key opens}

theorem mem_keys {k : κ} {entries : List ε} :
    k ∈ keys key opens entries ↔ ∃ e ∈ entries, opens e = true ∧ key e = k := by
  simp only [keys, List.mem_eraseDups, List.mem_map, List.mem_filter, and_assoc]

theorem keys_snoc (entries : List ε) (e : ε) :
    keys key opens (entries ++ [e]) =
      if opens e = true ∧ key e ∉ keys key opens entries then keys key opens entries ++ [key e]
      else keys key opens entries := by
  by_cases ho : opens e = true
  · by_cases hk : key e ∈ ((entries.filter opens).map key)
    · simp [keys, List.filter_append, ho, List.eraseDups_append, List.removeAll, hk]
    · simp [keys, List.filter_append, ho, List.eraseDups_append, List.removeAll, hk,
        List.eraseDups_cons]
  · simp [keys, List.filter_append, ho]

theorem nodup_keys (entries : List ε) : (keys key opens entries).Nodup := by
  induction entries using List.reverseRecOn with
  | nil => exact List.nodup_nil
  | append_singleton entries e ih =>
    rw [keys_snoc]
    split
    · next h =>
      rw [List.nodup_append]
      refine ⟨ih, List.nodup_singleton _, fun k hk l hl => ?_⟩
      rw [List.mem_singleton.mp hl]
      rintro rfl
      exact h.2 hk
    · exact ih

theorem about_eq_nil {k : κ} {entries : List ε} :
    about key opens k entries = [] ↔ k ∉ keys key opens entries := by
  rw [about, List.dropWhile_eq_nil_iff, mem_keys]
  simp only [List.mem_filter, decide_eq_true_eq, Bool.not_eq_eq_eq_not, Bool.not_true]
  constructor
  · rintro h ⟨e, he, ho, hk⟩
    simp [h e ⟨he, hk⟩] at ho
  · rintro h e ⟨he, hk⟩
    simpa using fun ho => h ⟨e, he, ho, hk⟩

/-- The group of a key begins with the entry that opened it. -/
theorem about_opened {k : κ} {entries : List ε} (hk : k ∈ keys key opens entries) :
    ∃ e rest, about key opens k entries = e :: rest ∧ opens e = true := by
  have hne : about key opens k entries ≠ [] := fun h => about_eq_nil.mp h hk
  obtain ⟨e, rest, h⟩ := List.exists_cons_of_ne_nil hne
  refine ⟨e, rest, h, ?_⟩
  have hhead := List.head?_dropWhile_not (fun e => !opens e) (entries.filter fun e => key e = k)
  change (match (about key opens k entries).head? with | some x => _ | none => _) at hhead
  rw [h] at hhead
  simpa using hhead

/-- An entry about another key. -/
theorem about_snoc_other {k : κ} {entries : List ε} {e : ε} (h : key e ≠ k) :
    about key opens k (entries ++ [e]) = about key opens k entries := by
  simp [about, List.filter_append, h]

/-- An entry about a group that is open. -/
theorem about_snoc_open {k : κ} {entries : List ε} {e : ε} (h : key e = k)
    (hk : k ∈ keys key opens entries) :
    about key opens k (entries ++ [e]) = about key opens k entries ++ [e] := by
  obtain ⟨x, hx, ho, hkey⟩ := mem_keys.mp hk
  have hfound : x ∈ entries.filter fun e => key e = k := by simp [hx, hkey]
  simp only [about, List.filter_append, List.filter_cons, h, decide_true, if_true, List.filter_nil]
  rw [List.dropWhile_append, if_neg]
  rw [List.isEmpty_iff, List.dropWhile_eq_nil_iff]
  exact fun hall => by simpa [ho] using hall x hfound

/-- An entry that opens the group of its key. -/
theorem about_snoc_new {entries : List ε} {e : ε} (ho : opens e = true)
    (hk : key e ∉ keys key opens entries) : about key opens (key e) (entries ++ [e]) = [e] := by
  have hnil := about_eq_nil.mpr hk
  rw [about] at hnil
  simp [about, List.filter_append, List.dropWhile_append, hnil, ho]

variable (render : κ → List ε → ρ)

/-- A new group adds a row and leaves the others. -/
theorem table_snoc_new {entries : List ε} {e : ε} (ho : opens e = true)
    (hk : key e ∉ keys key opens entries) :
    table key opens render (entries ++ [e]) =
      table key opens render entries ++ [render (key e) [e]] := by
  rw [table, keys_snoc, if_pos ⟨ho, hk⟩, List.map_append, List.map_singleton, about_snoc_new ho hk,
    table]
  congr 1
  refine List.map_congr_left fun k hmem => ?_
  rw [about_snoc_other]
  rintro rfl
  exact hk hmem

/-- An entry about an open group rewrites the row of that group. -/
theorem table_snoc_open {entries : List ε} {e : ε} (hk : key e ∈ keys key opens entries) :
    table key opens render (entries ++ [e]) = (keys key opens entries).map fun k =>
      render k (if k = key e then about key opens k entries ++ [e]
        else about key opens k entries) := by
  rw [table, keys_snoc, if_neg (fun h => h.2 hk)]
  refine List.map_congr_left fun k hmem => ?_
  split
  · next h => rw [about_snoc_open h.symm hmem]
  · next h => rw [about_snoc_other (Ne.symm h)]

end Groups
