import Zbierak.Lib.Table

/-!
# Keyrings

A keyring is a table of secrets, kept by their digests. A row has an owner, is
never deleted, and stops being live when it is revoked. A unique index on the
digests makes the lookup of a live secret a partial function.
-/
namespace Keyring

structure Columns (ρ : Type) where
  owner : ρ → Int
  hash : ρ → String
  revokedAt : ρ → Option Int

variable {ρ : Type} (c : Columns ρ)

/-- The row with this key is a live secret of this owner. -/
def Live (id owner : Int) (hash : String) (t : Table ρ) : Prop :=
  ∃ r, t.get? id = some r ∧ c.owner r = owner ∧ c.hash r = hash ∧ c.revokedAt r = none

/-- No row has this digest. -/
def Fresh (hash : String) (t : Table ρ) : Prop := ∀ id r, t.get? id = some r → c.hash r ≠ hash

/-- The unique index on the digests. -/
def Unique (t : Table ρ) : Prop :=
  ∀ a b r s, t.get? a = some r → t.get? b = some s → c.hash r = c.hash s → a = b

variable {c} {id owner : Int} {hash : String} {t : Table ρ}

theorem not_live_empty : ¬ Live c id owner hash (.empty) := by
  rintro ⟨r, hr, -⟩
  cases hr

theorem unique_empty : Unique c (.empty) := by
  intro a b r s hr
  cases hr

theorem fresh_of_find? {p : Int → ρ → Bool} (hp : ∀ i r, p i r = true ↔ c.hash r = hash) :
    ¬ (t.find? p).isSome = true ↔ Fresh c hash t := by
  constructor
  · intro hnone i r hr heq
    have hmiss := t.find?_none (Option.not_isSome_iff_eq_none.mp hnone) hr
    rw [(hp i r).mpr heq] at hmiss
    cases hmiss
  · intro hfresh hsome
    obtain ⟨⟨i, r⟩, hfind⟩ := Option.isSome_iff_exists.mp hsome
    obtain ⟨hr, hrow⟩ := t.find?_some hfind
    exact hfresh i r hr ((hp i r).mp hrow)

/-- A new secret. -/
theorem live_insert {new : ρ} (hnew : c.revokedAt new = none) :
    Live c id owner hash (t.insert new) ↔
      (id = t.nextId ∧ c.owner new = owner ∧ c.hash new = hash) ∨ Live c id owner hash t := by
  unfold Live
  rw [Table.get?_insert]
  by_cases hid : id = t.nextId
  · subst hid
    simp [hnew]
  · simp [hid]

/-- A write to other columns. -/
theorem live_touch {p : Int → ρ → Bool} {f : ρ → ρ}
    (hf : ∀ r, c.owner (f r) = c.owner r ∧ c.hash (f r) = c.hash r ∧ c.revokedAt (f r) = c.revokedAt r) :
    Live c id owner hash (t.update p f) ↔ Live c id owner hash t := by
  have hrow : ∀ r, c.owner (if p id r then f r else r) = c.owner r ∧
      c.hash (if p id r then f r else r) = c.hash r ∧
      c.revokedAt (if p id r then f r else r) = c.revokedAt r := by
    intro r
    split
    · exact hf r
    · exact ⟨rfl, rfl, rfl⟩
  unfold Live
  rw [Table.get?_update]
  cases t.get? id with
  | none => simp
  | some r => simp [hrow r]

/-- The revocation of one secret of one owner. -/
theorem live_revoke {target user : Int} {p : Int → ρ → Bool}
    (hp : ∀ i r, p i r = true ↔ i = target ∧ c.owner r = user ∧ c.revokedAt r = none) {f : ρ → ρ}
    (hf : ∀ r, (c.revokedAt (f r)).isSome = true) :
    Live c id owner hash (t.update p f) ↔
      Live c id owner hash t ∧ ¬ (target = id ∧ user = owner) := by
  unfold Live
  rw [Table.get?_update]
  cases t.get? id with
  | none => simp
  | some r =>
    simp only [Option.map_some, Option.some.injEq, exists_eq_left']
    by_cases hrow : p id r = true
    · obtain ⟨hid, howner, hlive⟩ := (hp id r).mp hrow
      have hsome := hf r
      rw [if_pos hrow]
      constructor
      · rintro ⟨-, -, hnone⟩
        rw [hnone] at hsome
        cases hsome
      · rintro ⟨⟨ho, -, -⟩, hother⟩
        exact absurd ⟨hid.symm, howner.symm.trans ho⟩ hother
    · rw [if_neg hrow, hp] at *
      refine ⟨fun h => ⟨h, ?_⟩, fun h => h.1⟩
      rintro ⟨rfl, rfl⟩
      exact hrow ⟨rfl, h.1, h.2.2⟩

theorem Unique.insert (h : Unique c t) {new : ρ} (hnew : Fresh c (c.hash new) t) :
    Unique c (t.insert new) := by
  intro a b r s hr hs heq
  rw [Table.get?_insert] at hr hs
  split at hr <;> split at hs
  · next ha hb => rw [ha, hb]
  · cases hr
    exact absurd heq.symm (hnew b s hs)
  · cases hs
    exact absurd heq (hnew a r hr)
  · exact h a b r s hr hs heq

theorem Unique.update (h : Unique c t) {p : Int → ρ → Bool} {f : ρ → ρ}
    (hf : ∀ r, c.hash (f r) = c.hash r) : Unique c (t.update p f) := by
  have hold : ∀ i r, (t.update p f).get? i = some r → ∃ old, t.get? i = some old ∧
      c.hash r = c.hash old := by
    intro i r hr
    rw [Table.get?_update, Option.map_eq_some_iff] at hr
    obtain ⟨old, hold, rfl⟩ := hr
    refine ⟨old, hold, ?_⟩
    split
    · exact hf old
    · rfl
  intro a b r s hr hs heq
  obtain ⟨r', hr', hkr⟩ := hold a r hr
  obtain ⟨s', hs', hks⟩ := hold b s hs
  exact h a b r' s' hr' hs' (by rw [← hkr, ← hks, heq])

/-- One live secret at most has the digest. -/
theorem Unique.live (h : Unique c t) {id' owner' : Int} (ha : Live c id owner hash t)
    (hb : Live c id' owner' hash t) : id = id' ∧ owner = owner' := by
  obtain ⟨r, hr, rfl, hhash, -⟩ := ha
  obtain ⟨s, hs, rfl, hhash', -⟩ := hb
  obtain rfl := h id id' r s hr hs (hhash.trans hhash'.symm)
  obtain rfl : r = s := Option.some.inj (hr.symm.trans hs)
  exact ⟨rfl, rfl⟩

end Keyring
