import Mathlib.Data.List.Lex
import Mathlib.Algebra.Group.Nat.Defs

/-!
# Decimal numerals

Numerals of one width are in the order of their values, and a numeral stands for
one number.
-/
namespace Digits

theorem value_cons (c : Char) (cs : List Char) :
    Nat.ofDigitChars 10 (c :: cs) 0 =
      10 ^ cs.length * (c.toNat - '0'.toNat) + Nat.ofDigitChars 10 cs 0 := by
  rw [Nat.ofDigitChars_cons, Nat.ofDigitChars_eq_ofDigitChars_zero, Nat.mul_zero, Nat.zero_add]

theorem value_lt {cs : List Char} (h : ∀ c ∈ cs, c.isDigit = true) :
    Nat.ofDigitChars 10 cs 0 < 10 ^ cs.length := by
  induction cs with
  | nil => simp
  | cons c cs ih =>
    rw [List.forall_mem_cons] at h
    have hrest := ih h.2
    have hdigit : c.toNat - '0'.toNat ≤ 9 := by
      have := (Char.isDigit_iff_toNat.mp h.1).2
      have hnine : '9'.toNat = 57 := rfl
      have hzero : '0'.toNat = 48 := rfl
      omega
    have hmul := Nat.mul_le_mul_left (10 ^ cs.length) hdigit
    rw [value_cons, List.length_cons, Nat.pow_succ]
    omega

/-- Among numerals of one width the smaller value comes first. -/
theorem lt_of_value_lt {cs ds : List Char} (hlength : cs.length = ds.length)
    (hcs : ∀ c ∈ cs, c.isDigit = true) (hds : ∀ d ∈ ds, d.isDigit = true)
    (h : Nat.ofDigitChars 10 cs 0 < Nat.ofDigitChars 10 ds 0) : cs < ds := by
  induction cs generalizing ds with
  | nil =>
    rw [List.length_eq_zero_iff.mp hlength.symm] at h
    exact absurd h (Nat.lt_irrefl _)
  | cons c cs ih =>
    cases ds with
    | nil => cases hlength
    | cons d ds =>
      rw [List.forall_mem_cons] at hcs hds
      have hlength' : cs.length = ds.length := Nat.succ.inj hlength
      have hc := (Char.isDigit_iff_toNat.mp hcs.1).1
      have hd := (Char.isDigit_iff_toNat.mp hds.1).1
      rw [value_cons, value_cons, hlength'] at h
      rw [List.cons_lt_cons_iff]
      rcases Nat.lt_trichotomy c.toNat d.toNat with hlt | heq | hgt
      · exact .inl hlt
      · have hsame : c = d := Char.toNat_inj.mp heq
        subst hsame
        exact .inr ⟨rfl, ih hlength' hcs.2 hds.2 (by omega)⟩
      · have hstep : d.toNat - '0'.toNat + 1 ≤ c.toNat - '0'.toNat := by omega
        have hmul := Nat.mul_le_mul_left (10 ^ ds.length) hstep
        have hbound := value_lt hds.2
        rw [Nat.mul_add, Nat.mul_one] at hmul
        omega

/-- What follows the first difference of two texts of one length is without
influence on their order. -/
theorem append_lt_append {α : Type} [LT α] {a b : List α} (hlength : a.length = b.length) (h : a < b)
    (s t : List α) : a ++ s < b ++ t := by
  induction a generalizing b with
  | nil =>
    rw [List.length_eq_zero_iff.mp hlength.symm] at h
    cases h
  | cons x a ih =>
    cases b with
    | nil => cases hlength
    | cons y b =>
      rw [List.cons_lt_cons_iff] at h
      rw [List.cons_append, List.cons_append, List.cons_lt_cons_iff]
      rcases h with h | ⟨heq, h⟩
      · exact .inl h
      · exact .inr ⟨heq, ih (Nat.succ.inj hlength) h⟩

theorem append_lt_append_left {α : Type} [LT α] (p : List α) {a b : List α} (h : a < b) :
    p ++ a < p ++ b := by
  induction p with
  | nil => exact h
  | cons x p ih => exact List.cons_lt_cons_iff.mpr (.inr ⟨rfl, ih⟩)

theorem repr_inj {m n : Nat} (h : m.repr = n.repr) : m = n := by
  have hdigits := congrArg String.toList h
  rw [Nat.toList_repr, Nat.toList_repr] at hdigits
  rw [← Nat.ofDigitChars_ten_toDigits (n := m), hdigits, Nat.ofDigitChars_ten_toDigits]

/-- A sign is no digit. -/
theorem negSucc_ne_ofNat (m n : Nat) : toString (Int.negSucc m) ≠ toString (Int.ofNat n) := by
  intro h
  have hchars := congrArg String.toList h
  change ("-" ++ Nat.repr (m + 1)).toList = (Nat.repr n).toList at hchars
  rw [Nat.toList_repr, String.toList_append] at hchars
  have hmem : '-' ∈ Nat.toDigits 10 n := hchars ▸ by simp
  exact absurd (Nat.isDigit_of_mem_toDigits (by decide) (by decide) hmem) (by decide)

theorem toString_inj {a b : Int} (h : toString a = toString b) : a = b := by
  cases a with
  | ofNat m =>
    cases b with
    | ofNat n => rw [repr_inj (m := m) (n := n) h]
    | negSucc n => exact absurd h.symm (negSucc_ne_ofNat n m)
  | negSucc m =>
    cases b with
    | ofNat n => exact absurd h (negSucc_ne_ofNat m n)
    | negSucc n =>
      have hchars := congrArg String.toList h
      change ("-" ++ Nat.repr (m + 1)).toList = ("-" ++ Nat.repr (n + 1)).toList at hchars
      rw [String.toList_append, String.toList_append] at hchars
      have hrepr := repr_inj (String.toList_injective (List.append_cancel_left hchars))
      obtain rfl : m = n := by omega
      rfl

end Digits
