import Zbierak.Lib.Text

/-!
# Base64

Three bytes are four digits of six bits; one or two bytes at the end are two or three
digits, whose unused bits are zero. A decoder that insists on the zeros reads exactly
the texts that the encoder writes.
-/
namespace Base64

/-- The digits of an alphabet and the numbers they stand for. -/
structure Alphabet where
  digit : Nat → Char
  value : Char → Option Nat
  value_digit : ∀ n < 64, value (digit n) = some n
  digit_value : ∀ c n, value c = some n → n < 64 ∧ digit n = c

/-- Letters, digits and two symbols. -/
def digitOf (symbol₁ symbol₂ : Char) (n : Nat) : Char :=
  if n < 26 then Char.ofNat (65 + n)
  else if n < 52 then Char.ofNat (71 + n)
  else if n < 62 then Char.ofNat (n - 4)
  else if n = 62 then symbol₁ else symbol₂

def valueOf (symbol₁ symbol₂ c : Char) : Option Nat :=
  if 65 ≤ c.toNat ∧ c.toNat ≤ 90 then some (c.toNat - 65)
  else if 97 ≤ c.toNat ∧ c.toNat ≤ 122 then some (c.toNat - 71)
  else if 48 ≤ c.toNat ∧ c.toNat ≤ 57 then some (c.toNat + 4)
  else if c = symbol₁ then some 62
  else if c = symbol₂ then some 63 else none

def IsAlphanumeric (n : Nat) : Prop :=
  (65 ≤ n ∧ n ≤ 90) ∨ (97 ≤ n ∧ n ≤ 122) ∨ (48 ≤ n ∧ n ≤ 57)

instance (n : Nat) : Decidable (IsAlphanumeric n) := inferInstanceAs (Decidable (_ ∨ _ ∨ _))

section Symbols

variable {symbol₁ symbol₂ : Char}

theorem valueOf_digitOf (h₁ : ¬ IsAlphanumeric symbol₁.toNat) (h₂ : ¬ IsAlphanumeric symbol₂.toNat)
    (hne : symbol₂ ≠ symbol₁) (n : Nat) (hn : n < 64) :
    valueOf symbol₁ symbol₂ (digitOf symbol₁ symbol₂ n) = some n := by
  unfold IsAlphanumeric at h₁ h₂
  unfold digitOf valueOf
  by_cases hupper : n < 26
  · rw [if_pos hupper, Text.toNat_ofNat (by omega), if_pos (by omega), Nat.add_sub_cancel_left]
  · rw [if_neg hupper]
    by_cases hlower : n < 52
    · rw [if_pos hlower, Text.toNat_ofNat (by omega), if_neg (by omega), if_pos (by omega),
        Nat.add_sub_cancel_left]
    · rw [if_neg hlower]
      by_cases hdigit : n < 62
      · rw [if_pos hdigit, Text.toNat_ofNat (by omega), if_neg (by omega), if_neg (by omega),
          if_pos (by omega), Nat.sub_add_cancel (by omega)]
      · rw [if_neg hdigit]
        by_cases hlast : n = 62
        · rw [if_pos hlast, if_neg (by omega), if_neg (by omega), if_neg (by omega), if_pos rfl, hlast]
        · rw [if_neg hlast, if_neg (by omega), if_neg (by omega), if_neg (by omega), if_neg hne,
            if_pos rfl]
          exact congrArg some (by omega)

theorem digitOf_valueOf (c : Char) (n : Nat) (h : valueOf symbol₁ symbol₂ c = some n) :
    n < 64 ∧ digitOf symbol₁ symbol₂ n = c := by
  unfold valueOf at h
  unfold digitOf
  split at h
  · next hupper =>
    obtain rfl := Option.some.inj h
    rw [if_pos (by omega), Nat.add_sub_cancel' hupper.1, Char.ofNat_toNat]
    exact ⟨by omega, rfl⟩
  · split at h
    · next hlower =>
      obtain rfl := Option.some.inj h
      rw [if_neg (by omega), if_pos (by omega), Nat.add_sub_cancel' (by omega), Char.ofNat_toNat]
      exact ⟨by omega, rfl⟩
    · split at h
      · next hdigit =>
        obtain rfl := Option.some.inj h
        rw [if_neg (by omega), if_neg (by omega), if_pos (by omega), Nat.add_sub_cancel,
          Char.ofNat_toNat]
        exact ⟨by omega, rfl⟩
      · split at h
        · next hsymbol =>
          obtain rfl := Option.some.inj h
          exact ⟨by decide, hsymbol.symm⟩
        · split at h
          · next hsymbol =>
            obtain rfl := Option.some.inj h
            exact ⟨by decide, hsymbol.symm⟩
          · cases h

end Symbols

def urlSafe : Alphabet where
  digit := digitOf '-' '_'
  value := valueOf '-' '_'
  value_digit := valueOf_digitOf (by decide) (by decide) (by decide)
  digit_value := digitOf_valueOf

def standard : Alphabet where
  digit := digitOf '+' '/'
  value := valueOf '+' '/'
  value_digit := valueOf_digitOf (by decide) (by decide) (by decide)
  digit_value := digitOf_valueOf

/-! The four digits of three bytes, and the bytes of the digits. -/

def digit₁ (a : Nat) : Nat := a / 4

def digit₂ (a b : Nat) : Nat := a % 4 * 16 + b / 16

def digit₃ (b c : Nat) : Nat := b % 16 * 4 + c / 64

def digit₄ (c : Nat) : Nat := c % 64

def byte₁ (w x : Nat) : UInt8 := UInt8.ofNat (w * 4 + x / 16)

def byte₂ (x y : Nat) : UInt8 := UInt8.ofNat (x % 16 * 16 + y / 4)

def byte₃ (y z : Nat) : UInt8 := UInt8.ofNat (y % 4 * 64 + z)

section Groups

theorem ofNat_eq {n : Nat} {a : UInt8} (h : n = a.toNat) : UInt8.ofNat n = a := by
  rw [h, UInt8.ofNat_toNat]

theorem toNat_ofNat {n : Nat} (h : n < 256) : (UInt8.ofNat n).toNat = n := by
  rw [UInt8.toNat_ofNat', Nat.mod_eq_of_lt h]

theorem digits_lt (a b c : UInt8) : digit₁ a.toNat < 64 ∧ digit₂ a.toNat b.toNat < 64 ∧
    digit₃ b.toNat c.toNat < 64 ∧ digit₄ c.toNat < 64 := by
  have ha : a.toNat < 256 := a.toNat_lt
  have hb : b.toNat < 256 := b.toNat_lt
  have hc : c.toNat < 256 := c.toNat_lt
  unfold digit₁ digit₂ digit₃ digit₄
  omega

theorem bytes_digits (a b c : UInt8) : byte₁ (digit₁ a.toNat) (digit₂ a.toNat b.toNat) = a ∧
    byte₂ (digit₂ a.toNat b.toNat) (digit₃ b.toNat c.toNat) = b ∧
    byte₃ (digit₃ b.toNat c.toNat) (digit₄ c.toNat) = c := by
  have ha : a.toNat < 256 := a.toNat_lt
  have hb : b.toNat < 256 := b.toNat_lt
  have hc : c.toNat < 256 := c.toNat_lt
  refine ⟨ofNat_eq ?_, ofNat_eq ?_, ofNat_eq ?_⟩ <;> simp only [digit₁, digit₂, digit₃, digit₄] <;>
    omega

theorem digits_bytes {w x y z : Nat} (hw : w < 64) (hx : x < 64) (hy : y < 64) (hz : z < 64) :
    digit₁ (byte₁ w x).toNat = w ∧ digit₂ (byte₁ w x).toNat (byte₂ x y).toNat = x ∧
      digit₃ (byte₂ x y).toNat (byte₃ y z).toNat = y ∧ digit₄ (byte₃ y z).toNat = z := by
  unfold byte₁ byte₂ byte₃ digit₁ digit₂ digit₃ digit₄
  rw [toNat_ofNat (by omega), toNat_ofNat (by omega), toNat_ofNat (by omega)]
  omega

/-- Unused bits that are zero belong to a byte that is zero. -/
theorem byte₂_zero {x : Nat} (h : x % 16 = 0) : byte₂ x 0 = 0 := by
  rw [byte₂, h]
  rfl

theorem byte₃_zero {y : Nat} (h : y % 4 = 0) : byte₃ y 0 = 0 := by
  rw [byte₃, h]
  rfl

end Groups

variable (alphabet : Alphabet)

/-- Without padding. -/
def encode : List UInt8 → List Char
  | [] => []
  | [a] => [alphabet.digit (digit₁ a.toNat), alphabet.digit (digit₂ a.toNat 0)]
  | [a, b] => [alphabet.digit (digit₁ a.toNat), alphabet.digit (digit₂ a.toNat b.toNat),
      alphabet.digit (digit₃ b.toNat 0)]
  | a :: b :: c :: bytes =>
    alphabet.digit (digit₁ a.toNat) :: alphabet.digit (digit₂ a.toNat b.toNat) ::
      alphabet.digit (digit₃ b.toNat c.toNat) :: alphabet.digit (digit₄ c.toNat) :: encode bytes

/-- Filled up with `=` to whole groups of four. -/
def encodePadded (bytes : List UInt8) : List Char :=
  encode alphabet bytes ++ List.replicate ((3 - bytes.length % 3) % 3) '='

/-- Without padding, and with zeros in the unused bits only. -/
def decode : List Char → Option (List UInt8)
  | [] => some []
  | [_] => none
  | [w, x] => do
    let w ← alphabet.value w
    let x ← alphabet.value x
    if x % 16 = 0 then some [byte₁ w x] else none
  | [w, x, y] => do
    let w ← alphabet.value w
    let x ← alphabet.value x
    let y ← alphabet.value y
    if y % 4 = 0 then some [byte₁ w x, byte₂ x y] else none
  | w :: x :: y :: z :: cs => do
    let w ← alphabet.value w
    let x ← alphabet.value x
    let y ← alphabet.value y
    let z ← alphabet.value z
    let bytes ← decode cs
    some (byte₁ w x :: byte₂ x y :: byte₃ y z :: bytes)

variable {alphabet}

theorem decode_encode (bytes : List UInt8) : decode alphabet (encode alphabet bytes) = some bytes := by
  fun_induction encode alphabet bytes with
  | case1 => rfl
  | case2 a =>
    obtain ⟨h₁, h₂, -, -⟩ := digits_lt a 0 0
    have hzero : digit₂ a.toNat 0 % 16 = 0 := by rw [digit₂]; omega
    have hbyte := (bytes_digits a 0 0).1
    simp only [UInt8.toNat_zero] at h₂ hbyte
    simp only [decode, alphabet.value_digit _ h₁, alphabet.value_digit _ h₂, Option.bind_eq_bind,
      Option.bind_some, if_pos hzero, hbyte]
  | case3 a b =>
    obtain ⟨h₁, h₂, h₃, -⟩ := digits_lt a b 0
    have hzero : digit₃ b.toNat 0 % 4 = 0 := by rw [digit₃]; omega
    obtain ⟨hfirst, hsecond, -⟩ := bytes_digits a b 0
    simp only [UInt8.toNat_zero] at h₃ hsecond
    simp only [decode, alphabet.value_digit _ h₁, alphabet.value_digit _ h₂, alphabet.value_digit _ h₃,
      Option.bind_eq_bind, Option.bind_some, if_pos hzero, hfirst, hsecond]
  | case4 a b c bytes ih =>
    obtain ⟨h₁, h₂, h₃, h₄⟩ := digits_lt a b c
    obtain ⟨hfirst, hsecond, hthird⟩ := bytes_digits a b c
    simp only [decode, alphabet.value_digit _ h₁, alphabet.value_digit _ h₂, alphabet.value_digit _ h₃,
      alphabet.value_digit _ h₄, ih, Option.bind_eq_bind, Option.bind_some, hfirst, hsecond, hthird]

/-- The decoder reads what the encoder writes, and nothing else. -/
theorem encode_decode {cs : List Char} {bytes : List UInt8} (h : decode alphabet cs = some bytes) :
    encode alphabet bytes = cs := by
  fun_induction decode alphabet cs generalizing bytes with
  | case1 =>
    cases h
    rfl
  | case2 => cases h
  | case3 c₁ c₂ =>
    simp only [Option.bind_eq_bind, Option.bind_eq_some_iff] at h
    obtain ⟨w, hw, x, hx, h⟩ := h
    split at h
    · next hzero =>
      obtain rfl := Option.some.inj h
      obtain ⟨hw, hdigit₁⟩ := alphabet.digit_value _ _ hw
      obtain ⟨hx, hdigit₂⟩ := alphabet.digit_value _ _ hx
      obtain ⟨h₁, h₂, -, -⟩ := digits_bytes hw hx (show 0 < 64 by decide) (show 0 < 64 by decide)
      rw [byte₂_zero hzero, UInt8.toNat_zero] at h₂
      rw [encode, h₁, h₂, hdigit₁, hdigit₂]
    · cases h
  | case4 c₁ c₂ c₃ =>
    simp only [Option.bind_eq_bind, Option.bind_eq_some_iff] at h
    obtain ⟨w, hw, x, hx, y, hy, h⟩ := h
    split at h
    · next hzero =>
      obtain rfl := Option.some.inj h
      obtain ⟨hw, hdigit₁⟩ := alphabet.digit_value _ _ hw
      obtain ⟨hx, hdigit₂⟩ := alphabet.digit_value _ _ hx
      obtain ⟨hy, hdigit₃⟩ := alphabet.digit_value _ _ hy
      obtain ⟨h₁, h₂, h₃, -⟩ := digits_bytes hw hx hy (show 0 < 64 by decide)
      rw [byte₃_zero hzero, UInt8.toNat_zero] at h₃
      rw [encode, h₁, h₂, h₃, hdigit₁, hdigit₂, hdigit₃]
    · cases h
  | case5 c₁ c₂ c₃ c₄ cs ih =>
    simp only [Option.bind_eq_bind, Option.bind_eq_some_iff] at h
    obtain ⟨w, hw, x, hx, y, hy, z, hz, bytes', hbytes, h⟩ := h
    obtain rfl := Option.some.inj h
    obtain ⟨hw, hdigit₁⟩ := alphabet.digit_value _ _ hw
    obtain ⟨hx, hdigit₂⟩ := alphabet.digit_value _ _ hx
    obtain ⟨hy, hdigit₃⟩ := alphabet.digit_value _ _ hy
    obtain ⟨hz, hdigit₄⟩ := alphabet.digit_value _ _ hz
    obtain ⟨h₁, h₂, h₃, h₄⟩ := digits_bytes hw hx hy hz
    rw [encode, h₁, h₂, h₃, h₄, hdigit₁, hdigit₂, hdigit₃, hdigit₄, ih hbytes]

/-- What is not a digit does not occur in an encoded text. -/
theorem not_mem_encode {c : Char} (h : alphabet.value c = none) (bytes : List UInt8) :
    c ∉ encode alphabet bytes := by
  have hne : ∀ n < 64, c ≠ alphabet.digit n := by
    rintro n hn rfl
    rw [alphabet.value_digit n hn] at h
    cases h
  fun_induction encode alphabet bytes with
  | case1 => exact List.not_mem_nil
  | case2 a =>
    obtain ⟨h₁, h₂, -, -⟩ := digits_lt a 0 0
    simp only [UInt8.toNat_zero] at h₂
    simp [hne _ h₁, hne _ h₂]
  | case3 a b =>
    obtain ⟨h₁, h₂, h₃, -⟩ := digits_lt a b 0
    simp only [UInt8.toNat_zero] at h₃
    simp [hne _ h₁, hne _ h₂, hne _ h₃]
  | case4 a b c bytes ih =>
    obtain ⟨h₁, h₂, h₃, h₄⟩ := digits_lt a b c
    simp [hne _ h₁, hne _ h₂, hne _ h₃, hne _ h₄, ih]

/-- An encoder and a decoder for one alphabet, as a library has them: the decoder reads
what the encoder writes, and nothing else. -/
structure Codec (alphabet : Alphabet) where
  encode : List UInt8 → String
  decode : String → Option (List UInt8)
  decode_eq_some : ∀ text bytes, decode text = some bytes ↔ encode bytes = text
  isSome_value : ∀ bytes, ∀ c ∈ (encode bytes).toList, (alphabet.value c).isSome = true

namespace Codec

/-- The one without padding. -/
def unpadded (alphabet : Alphabet) : Codec alphabet where
  encode bytes := String.ofList (Base64.encode alphabet bytes)
  decode text := Base64.decode alphabet text.toList
  decode_eq_some text bytes := by
    constructor
    · intro h
      rw [encode_decode h, String.ofList_toList]
    · rintro rfl
      rw [String.toList_ofList, decode_encode]
  isSome_value bytes c hc := by
    rw [String.toList_ofList] at hc
    cases hvalue : alphabet.value c with
    | none => exact absurd hc (not_mem_encode hvalue bytes)
    | some n => rfl

variable (codec : Codec alphabet)

@[simp] theorem decode_encode (bytes : List UInt8) : codec.decode (codec.encode bytes) = some bytes :=
  (codec.decode_eq_some _ bytes).mpr rfl

/-- What is not a digit does not occur in an encoded text. -/
theorem not_mem_encode {c : Char} (h : alphabet.value c = none) (bytes : List UInt8) :
    c ∉ (codec.encode bytes).toList := by
  intro hc
  have hvalue := codec.isSome_value bytes c hc
  rw [h] at hvalue
  cases hvalue

end Codec

end Base64
