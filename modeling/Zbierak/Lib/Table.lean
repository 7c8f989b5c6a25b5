import Mathlib.Data.List.Basic
import Mathlib.Data.List.Nodup
import Mathlib.Data.List.Pairwise

/-!
# Tables keyed by an ever growing integer

A table keeps its rows in the order of their keys together with the largest
key it ever handed out, so that a key is never used for a second row. Both
facts are fields: a table that violates them cannot be built.
-/

structure Table (ρ : Type) where
  rows : List (Int × ρ)
  seq : Int
  sorted : rows.Pairwise (fun a b => a.1 < b.1)
  bound : ∀ r ∈ rows, r.1 ≤ seq

namespace Table

variable {ρ : Type}

def empty : Table ρ := ⟨[], 0, List.Pairwise.nil, by simp⟩

/-- The key the next row gets. -/
def nextId (t : Table ρ) : Int := t.seq + 1

def insert (t : Table ρ) (r : ρ) : Table ρ where
  rows := t.rows ++ [(t.nextId, r)]
  seq := t.nextId
  sorted := by
    rw [List.pairwise_append]
    refine ⟨t.sorted, List.pairwise_singleton _ _, ?_⟩
    intro a ha b hb
    have := t.bound a ha
    simp only [List.mem_singleton] at hb
    subst hb
    simp only [nextId]
    omega
  bound := by
    intro a ha
    rcases List.mem_append.mp ha with ha | ha
    · have := t.bound a ha
      simp only [nextId]
      omega
    · simp only [List.mem_singleton] at ha
      simp [ha]

/-- Rewrite every row that satisfies `p`; keys are kept. -/
def update (t : Table ρ) (p : Int → ρ → Bool) (f : ρ → ρ) : Table ρ where
  rows := t.rows.map fun r => (r.1, if p r.1 r.2 then f r.2 else r.2)
  seq := t.seq
  sorted := by simpa only [List.pairwise_map] using t.sorted
  bound := by
    intro a ha
    obtain ⟨b, hb, rfl⟩ := List.mem_map.mp ha
    exact t.bound b hb

/-- Remove every row that satisfies `p`; its key is not used again. -/
def delete (t : Table ρ) (p : Int → ρ → Bool) : Table ρ where
  rows := t.rows.filter fun r => !p r.1 r.2
  seq := t.seq
  sorted := t.sorted.sublist List.filter_sublist
  bound := fun r hr => t.bound r (List.mem_filter.mp hr).1

/-- Insert one row for each element of the list, in its order. -/
def insertAll (t : Table ρ) : List ρ → Table ρ
  | [] => t
  | r :: rs => (t.insert r).insertAll rs

def get? (t : Table ρ) (id : Int) : Option ρ := (t.rows.find? fun r => r.1 = id).map Prod.snd

/-- First row, in key order, that satisfies `p`. -/
def find? (t : Table ρ) (p : Int → ρ → Bool) : Option (Int × ρ) := t.rows.find? fun r => p r.1 r.2

def select (t : Table ρ) (p : Int → ρ → Bool) : List (Int × ρ) := t.rows.filter fun r => p r.1 r.2

@[simp] theorem rows_empty : (empty : Table ρ).rows = [] := rfl
@[simp] theorem seq_empty : (empty : Table ρ).seq = 0 := rfl
@[simp] theorem get?_empty (id : Int) : (empty : Table ρ).get? id = none := rfl
@[simp] theorem rows_insert (t : Table ρ) (r : ρ) :
    (t.insert r).rows = t.rows ++ [(t.nextId, r)] := rfl
@[simp] theorem seq_insert (t : Table ρ) (r : ρ) : (t.insert r).seq = t.seq + 1 := rfl
@[simp] theorem rows_update (t : Table ρ) (p : Int → ρ → Bool) (f : ρ → ρ) :
    (t.update p f).rows = t.rows.map fun r => (r.1, if p r.1 r.2 then f r.2 else r.2) := rfl
@[simp] theorem seq_update (t : Table ρ) (p : Int → ρ → Bool) (f : ρ → ρ) :
    (t.update p f).seq = t.seq := rfl
@[simp] theorem rows_delete (t : Table ρ) (p : Int → ρ → Bool) :
    (t.delete p).rows = t.rows.filter fun r => !p r.1 r.2 := rfl
@[simp] theorem seq_delete (t : Table ρ) (p : Int → ρ → Bool) : (t.delete p).seq = t.seq := rfl

theorem eq_of_rows {t u : Table ρ} (hrows : t.rows = u.rows) (hseq : t.seq = u.seq) : t = u := by
  cases t
  cases u
  cases hrows
  cases hseq
  rfl

theorem keys_nodup (t : Table ρ) : (t.rows.map Prod.fst).Nodup := by
  rw [List.Nodup, List.pairwise_map]
  exact t.sorted.imp fun h => by omega

theorem row_unique (t : Table ρ) {id : Int} {a b : ρ} (ha : (id, a) ∈ t.rows)
    (hb : (id, b) ∈ t.rows) : a = b :=
  congrArg Prod.snd (List.inj_on_of_nodup_map t.keys_nodup ha hb rfl)

theorem get?_eq_some (t : Table ρ) {id : Int} {r : ρ} :
    t.get? id = some r ↔ (id, r) ∈ t.rows := by
  constructor
  · intro h
    obtain ⟨x, hx, rfl⟩ := Option.map_eq_some_iff.mp h
    have he := List.find?_some hx
    have hm := List.mem_of_find?_eq_some hx
    simp only [decide_eq_true_eq] at he
    subst he
    exact hm
  · intro h
    obtain ⟨x, hx⟩ : ∃ x, (t.rows.find? fun r => r.1 = id) = some x := by
      rw [← Option.isSome_iff_exists, List.find?_isSome]
      exact ⟨(id, r), h, by simp⟩
    have he := List.find?_some hx
    have hm := List.mem_of_find?_eq_some hx
    simp only [decide_eq_true_eq] at he
    subst he
    simp only [get?, hx, Option.map_some]
    rw [t.row_unique hm h]

theorem get?_eq_none (t : Table ρ) {id : Int} : t.get? id = none ↔ ∀ r, (id, r) ∉ t.rows := by
  rw [← not_iff_not, ← ne_eq, Option.ne_none_iff_exists']
  simp only [get?_eq_some, not_forall, not_not]

theorem le_seq_of_get? (t : Table ρ) {id : Int} {r : ρ} (h : t.get? id = some r) : id ≤ t.seq :=
  t.bound _ (t.get?_eq_some.mp h)

theorem get?_of_seq_lt (t : Table ρ) {id : Int} (h : t.seq < id) : t.get? id = none := by
  rw [get?_eq_none]
  intro r hr
  have := t.bound _ hr
  simp only at this
  omega

@[simp] theorem get?_nextId (t : Table ρ) : t.get? t.nextId = none :=
  t.get?_of_seq_lt (by simp only [nextId]; omega)

@[simp] theorem get?_insert (t : Table ρ) (r : ρ) (id : Int) :
    (t.insert r).get? id = if id = t.nextId then some r else t.get? id := by
  ext x
  rw [get?_eq_some, rows_insert, List.mem_append, List.mem_singleton, Prod.mk.injEq]
  by_cases h : id = t.nextId
  · subst h
    have hn := t.get?_eq_none.mp t.get?_nextId
    simp [hn, eq_comm]
  · simp [h, get?_eq_some]

theorem get?_insert_of_some (t : Table ρ) (r : ρ) {id : Int} {x : ρ} (h : t.get? id = some x) :
    (t.insert r).get? id = some x := by
  have hne : id ≠ t.nextId := by
    rintro rfl
    simp at h
  simp [hne, h]

/-- The table, or the table with one row more. -/
def Extended (t u : Table ρ) : Prop := u = t ∨ ∃ r, u = t.insert r

theorem Extended.refl (t : Table ρ) : Extended t t := .inl rfl

theorem Extended.get? {t u : Table ρ} (h : Extended t u) {id : Int} {r : ρ} (hr : t.get? id = some r) :
    u.get? id = some r := by
  rcases h with rfl | ⟨x, rfl⟩
  · exact hr
  · exact t.get?_insert_of_some x hr

theorem Extended.keys {t u : Table ρ} (h : Extended t u) :
    t.rows.map Prod.fst <+: u.rows.map Prod.fst := by
  rcases h with rfl | ⟨x, rfl⟩
  · exact List.prefix_rfl
  · rw [rows_insert, List.map_append]
    exact List.prefix_append _ _

/-- Updated rows keep their keys. -/
theorem keys_update (t : Table ρ) (p : Int → ρ → Bool) (f : ρ → ρ) :
    (t.update p f).rows.map Prod.fst = t.rows.map Prod.fst := by
  rw [rows_update, List.map_map]
  rfl

/-- The smallest key is the first. -/
theorem min?_keys (t : Table ρ) : (t.rows.map Prod.fst).min? = (t.rows.map Prod.fst).head? := by
  have hsorted := t.sorted
  cases hrows : t.rows with
  | nil => rfl
  | cons x xs =>
    rw [hrows, List.pairwise_cons] at hsorted
    rw [List.map_cons, List.head?_cons, List.min?_eq_some_iff]
    refine ⟨List.mem_cons_self, fun b hb => ?_⟩
    rcases List.mem_cons.mp hb with rfl | hb
    · exact Int.le_refl _
    · obtain ⟨y, hy, rfl⟩ := List.mem_map.mp hb
      exact Int.le_of_lt (hsorted.1 y hy)

@[simp] theorem get?_update (t : Table ρ) (p : Int → ρ → Bool) (f : ρ → ρ) (id : Int) :
    (t.update p f).get? id = (t.get? id).map fun r => if p id r then f r else r := by
  simp only [get?, rows_update, List.find?_map, Function.comp_def, Option.map_map]
  cases h : t.rows.find? fun r => r.1 = id with
  | none => rfl
  | some x =>
    have he := List.find?_some h
    simp only [decide_eq_true_eq] at he
    simp [he]

@[simp] theorem get?_delete (t : Table ρ) (p : Int → ρ → Bool) (id : Int) :
    (t.delete p).get? id = (t.get? id).filter fun r => !p id r := by
  ext x
  rw [get?_eq_some, rows_delete, List.mem_filter, Option.filter_eq_some_iff, get?_eq_some]

theorem find?_some (t : Table ρ) {p : Int → ρ → Bool} {id : Int} {r : ρ}
    (h : t.find? p = some (id, r)) : t.get? id = some r ∧ p id r = true :=
  ⟨t.get?_eq_some.mpr (List.mem_of_find?_eq_some h), by simpa using List.find?_some h⟩

/-- The row that is found has the smallest key of those that qualify. -/
theorem find?_le (t : Table ρ) {p : Int → ρ → Bool} {id other : Int} {r s : ρ}
    (h : t.find? p = some (id, r)) (hother : t.get? other = some s) (hp : p other s = true) :
    id ≤ other := by
  obtain ⟨-, xs, ys, hrows, hxs⟩ := List.find?_eq_some_iff_append.mp h
  have hmem := t.get?_eq_some.mp hother
  have hsorted := t.sorted
  rw [hrows] at hmem hsorted
  rcases List.mem_append.mp hmem with hmem | hmem
  · have hnot := hxs _ hmem
    simp [hp] at hnot
  · rcases List.mem_cons.mp hmem with heq | hmem
    · exact Int.le_of_eq (congrArg Prod.fst heq).symm
    · exact Int.le_of_lt ((List.pairwise_cons.mp (List.pairwise_append.mp hsorted).2.1).1 _ hmem)

theorem find?_none (t : Table ρ) {p : Int → ρ → Bool} (h : t.find? p = none)
    {id : Int} {r : ρ} (hr : t.get? id = some r) : p id r = false := by
  have := List.find?_eq_none.mp h (id, r) (t.get?_eq_some.mp hr)
  simpa using this

@[simp] theorem mem_select (t : Table ρ) (p : Int → ρ → Bool) {id : Int} {r : ρ} :
    (id, r) ∈ t.select p ↔ t.get? id = some r ∧ p id r = true := by
  rw [select, List.mem_filter, get?_eq_some]

/-- Selecting by key finds the one row. -/
theorem select_key (t : Table ρ) {id : Int} {r : ρ} (h : t.get? id = some r) :
    t.select (fun i _ => i = id) = [(id, r)] := by
  obtain ⟨xs, ys, hrows⟩ := List.append_of_mem (t.get?_eq_some.mp h)
  have hsorted := t.sorted
  rw [hrows, List.pairwise_append, List.pairwise_cons] at hsorted
  obtain ⟨-, ⟨hys, -⟩, hxs⟩ := hsorted
  have hbefore : xs.filter (fun r => r.1 = id) = [] := by
    rw [List.filter_eq_nil_iff]
    intro x hx
    have := hxs x hx _ List.mem_cons_self
    simp only [decide_eq_true_eq]
    omega
  have hafter : ys.filter (fun r => r.1 = id) = [] := by
    rw [List.filter_eq_nil_iff]
    intro y hy
    have := hys y hy
    simp only [decide_eq_true_eq]
    omega
  simp [select, hrows, List.filter_append, hbefore, hafter]

theorem select_insert (t : Table ρ) (r : ρ) {p : Int → ρ → Bool} (h : p t.nextId r = false) :
    (t.insert r).select p = t.select p := by
  simp [select, List.filter_append, h]

/-- A selection none of whose rows are rewritten, before or after. -/
theorem select_update (t : Table ρ) {p q : Int → ρ → Bool} {f : ρ → ρ}
    (h : ∀ id r, t.get? id = some r → q id r = true → p id r = false ∧ p id (f r) = false) :
    (t.update q f).select p = t.select p := by
  have hrow : ∀ x ∈ t.rows, q x.1 x.2 = true → p x.1 x.2 = false ∧ p x.1 (f x.2) = false :=
    fun x hx => h x.1 x.2 (t.get?_eq_some.mpr hx)
  simp only [select, rows_update]
  generalize t.rows = rows at hrow
  induction rows with
  | nil => rfl
  | cons x xs ih =>
    have htail := ih fun y hy => hrow y (List.mem_cons_of_mem x hy)
    by_cases hx : q x.1 x.2 = true
    · obtain ⟨h₁, h₂⟩ := hrow x List.mem_cons_self hx
      simp [hx, h₁, h₂, htail]
    · simp only [Bool.not_eq_true] at hx
      simp [hx, List.filter_cons, htail]

@[simp] theorem seq_insertAll (t : Table ρ) (rs : List ρ) :
    (t.insertAll rs).seq = t.seq + rs.length := by
  induction rs generalizing t with
  | nil => simp [insertAll]
  | cons r rs ih =>
    simp only [insertAll, ih, seq_insert, List.length_cons]
    omega

/-- Inserting rows leaves the rows that were there. -/
theorem prefix_insertAll (t : Table ρ) (rs : List ρ) : t.rows <+: (t.insertAll rs).rows := by
  induction rs generalizing t with
  | nil => exact List.prefix_rfl
  | cons r rs ih => exact (List.prefix_append _ _).trans (ih (t.insert r))

theorem get?_insertAll_of_some (t : Table ρ) (rs : List ρ) {id : Int} {r : ρ}
    (h : t.get? id = some r) : (t.insertAll rs).get? id = some r :=
  (get?_eq_some _).mpr ((t.prefix_insertAll rs).subset (t.get?_eq_some.mp h))

/-- A row of the longer table is an old row or one of the inserted ones. -/
theorem get?_insertAll_cases (t : Table ρ) (rs : List ρ) {id : Int} {r : ρ}
    (h : (t.insertAll rs).get? id = some r) :
    t.get? id = some r ∨ (t.seq < id ∧ r ∈ rs) := by
  induction rs generalizing t with
  | nil => exact .inl h
  | cons x rs ih =>
    rcases ih (t.insert x) h with hold | ⟨hlt, hr⟩
    · rw [get?_insert] at hold
      split at hold
      · next he =>
        refine .inr ⟨by simp only [he, nextId]; omega, ?_⟩
        simp only [Option.some.injEq] at hold
        simp [hold]
      · exact .inl hold
    · refine .inr ⟨?_, List.mem_cons_of_mem _ hr⟩
      simp only [seq_insert] at hlt
      omega

/-- Rows whose keys were handed out after `seq`. -/
def newer (t : Table ρ) (seq : Int) : List ρ := (t.rows.filter fun r => seq < r.1).map Prod.snd

theorem newer_eq_nil (t : Table ρ) {seq : Int} (h : ∀ r ∈ t.rows, r.1 ≤ seq) : t.newer seq = [] := by
  rw [newer, List.map_eq_nil_iff, List.filter_eq_nil_iff]
  intro r hr
  have := h r hr
  simp only [decide_eq_true_eq]
  omega

@[simp] theorem newer_self (t : Table ρ) : t.newer t.seq = [] := t.newer_eq_nil t.bound

@[simp] theorem newer_update (t : Table ρ) (p : Int → ρ → Bool) (f : ρ → ρ) :
    (t.update p f).newer t.seq = [] :=
  (t.update p f).newer_eq_nil (t.update p f).bound

@[simp] theorem newer_delete (t : Table ρ) (p : Int → ρ → Bool) : (t.delete p).newer t.seq = [] :=
  (t.delete p).newer_eq_nil (t.delete p).bound

theorem newer_insertAll_of_le (t : Table ρ) (rs : List ρ) {seq : Int} (h : seq ≤ t.seq) :
    (t.insertAll rs).newer seq = t.newer seq ++ rs := by
  induction rs generalizing t with
  | nil => simp [insertAll]
  | cons r rs ih =>
    have hnew : seq < t.nextId := by
      simp only [nextId]
      omega
    rw [insertAll, ih (t.insert r) (by simp only [seq_insert]; omega)]
    simp [newer, List.filter_append, hnew]

@[simp] theorem newer_insertAll (t : Table ρ) (rs : List ρ) : (t.insertAll rs).newer t.seq = rs := by
  rw [newer_insertAll_of_le t rs (Int.le_refl _), newer_self, List.nil_append]

end Table
