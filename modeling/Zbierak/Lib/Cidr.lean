import Mathlib.Data.Nat.Bitwise

/-!
# Networks by prefix length

Addresses are numbers of a fixed number of bits. A network is an address with
a prefix length and holds the addresses that agree with it on the prefix.
-/
namespace Cidr

/-- `address/length` among the addresses of `width` bits. -/
structure Network (width : Nat) where
  address : Nat
  length : Nat
  fits : length ≤ width := by decide

variable {width : Nat}

/-- The prefix of an address under this network's length. -/
def Network.prefixOf (n : Network width) (address : Nat) : Nat := address / 2 ^ (width - n.length)

def Network.Contains (n : Network width) (address : Nat) : Prop :=
  n.prefixOf address = n.prefixOf n.address

instance (n : Network width) (address : Nat) : Decidable (n.Contains address) :=
  inferInstanceAs (Decidable (_ = _))

/-- Membership in numerals: `k` addresses to a prefix, and the prefix is `x`. -/
theorem Network.contains_iff (n : Network width) (k x address : Nat)
    (hk : 2 ^ (width - n.length) = k) (hx : n.address / k = x) :
    n.Contains address ↔ address / k = x := by
  rw [Network.Contains, Network.prefixOf, Network.prefixOf, hk, hx]

/-- Whether one of the networks holds the address. -/
def InAny (networks : List (Network width)) (address : Nat) : Prop :=
  ∃ n ∈ networks, n.Contains address

instance (networks : List (Network width)) (address : Nat) : Decidable (InAny networks address) :=
  inferInstanceAs (Decidable (∃ n ∈ networks, n.Contains address))

@[simp] theorem not_inAny_nil (address : Nat) : ¬ InAny ([] : List (Network width)) address := by
  simp [InAny]

@[simp] theorem inAny_cons (n : Network width) (networks : List (Network width)) (address : Nat) :
    InAny (n :: networks) address ↔ n.Contains address ∨ InAny networks address := by
  simp [InAny]

/-- Masking off the low `k` bits of a number of `n` bits keeps its prefix. -/
theorem and_mask {x n k : Nat} (hx : x < 2 ^ n) (hk : k ≤ n) :
    x &&& (2 ^ n - 2 ^ k) = x / 2 ^ k * 2 ^ k := by
  have hmask : 2 ^ n - 2 ^ k = (2 ^ (n - k) - 1) <<< k := by
    rw [Nat.shiftLeft_eq, Nat.sub_mul, ← Nat.pow_add, Nat.sub_add_cancel hk, Nat.one_mul]
  rw [hmask, ← Nat.shiftLeft_eq, ← Nat.shiftRight_eq_div_pow]
  apply Nat.eq_of_testBit_eq
  intro i
  simp only [Nat.testBit_and, Nat.testBit_shiftLeft, Nat.testBit_shiftRight,
    Nat.testBit_two_pow_sub_one]
  by_cases hi : k ≤ i
  · have hsum : k + (i - k) = i := by omega
    by_cases hn : i - k < n - k
    · simp [hi, hn, hsum]
    · have hpow : 2 ^ n ≤ 2 ^ i := Nat.pow_le_pow_right (by decide) (by omega)
      have hbit : x.testBit i = false := Nat.testBit_lt_two_pow (hx.trans_le hpow)
      simp [hbit, hsum]
  · simp [hi]

/-- A masked comparison is a comparison of prefixes. -/
theorem and_mask_eq_iff {x n k c : Nat} (hx : x < 2 ^ n) (hk : k ≤ n) :
    x &&& (2 ^ n - 2 ^ k) = c * 2 ^ k ↔ x / 2 ^ k = c := by
  rw [and_mask hx hk]
  exact Nat.mul_left_inj (Nat.two_pow_pos k).ne'

end Cidr
