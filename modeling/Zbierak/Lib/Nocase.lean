import Zbierak.Lib.Utf8
import Mathlib.Algebra.BigOperators.Group.List.Basic
import Mathlib.Algebra.Ring.Nat
import Mathlib.Data.List.TakeWhile

/-!
# Comparing texts without regard to case

A collation that compares byte by byte and takes `A` to `Z` for `a` to `z`, but
stops at a NUL as C does, and then compares the lengths in bytes. Two texts are
equal under it when their keys are.
-/
namespace Nocase

def nul : Char := Char.ofNat 0

/-- What a comparison looks at: the length, and the text before the first NUL. -/
def key (s : String) : Nat × List Char :=
  (Text.byteLen s, (s.toList.map Text.lowerChar).takeWhile (· != nul))

theorem byteLen_eq (s : String) : Text.byteLen s = (s.toList.map Char.utf8Size).sum := by
  have hbytes : Text.byteLen s = (Text.toUtf8 s).length := by
    rw [Text.byteLen, Text.toUtf8, Array.length_toList]
    rfl
  rw [hbytes, Utf8.toUtf8_eq, List.length_flatMap]
  exact congrArg List.sum (List.map_congr_left fun c _ => String.length_utf8EncodeChar c)

theorem utf8Size_lowerChar (c : Char) : (Text.lowerChar c).utf8Size = c.utf8Size := by
  unfold Text.lowerChar
  split
  · next h =>
    have hhigh : c.toNat ≤ 90 := h.2
    have hone : ∀ d : Char, d.toNat < 128 → d.utf8Size = 1 := fun d hd =>
      Char.utf8Size_eq_one_iff.mpr (UInt32.le_iff_toNat_le.mpr (Nat.le_of_lt_succ hd))
    rw [hone c (by omega), hone _ (by rw [Text.toNat_ofNat] <;> omega)]
  · rfl

theorem lowerChar_ne_nul {c : Char} (h : c ≠ nul) : Text.lowerChar c ≠ nul := by
  unfold Text.lowerChar
  split
  · next hupper =>
    intro hnul
    have hlow : 65 ≤ c.toNat := hupper.1
    have hhigh : c.toNat ≤ 90 := hupper.2
    have htoNat := congrArg Char.toNat hnul
    rw [Text.toNat_ofNat (by omega), nul, Text.toNat_ofNat (by decide)] at htoNat
    omega
  · exact h

/-- A text without a NUL is equal to what has the same letters, and to nothing else. -/
theorem key_eq_iff {a b : String} (h : nul ∉ a.toList) :
    key a = key b ↔ Text.toAsciiLowercase a = Text.toAsciiLowercase b := by
  have hsize : ∀ s : String, Text.byteLen s = ((s.toList.map Text.lowerChar).map Char.utf8Size).sum := by
    intro s
    rw [byteLen_eq, List.map_map]
    exact congrArg List.sum (List.map_congr_left fun c _ => (utf8Size_lowerChar c).symm)
  have hlower : Text.toAsciiLowercase a = Text.toAsciiLowercase b ↔
      a.toList.map Text.lowerChar = b.toList.map Text.lowerChar := String.ofList_inj
  rw [hlower, key, key, Prod.mk.injEq, hsize a, hsize b]
  have hwhole : (a.toList.map Text.lowerChar).takeWhile (· != nul) = a.toList.map Text.lowerChar :=
    List.takeWhile_eq_self_iff.mpr fun c hc => by
      obtain ⟨d, hd, rfl⟩ := List.mem_map.mp hc
      exact bne_iff_ne.mpr (lowerChar_ne_nul fun hnul => h (hnul ▸ hd))
  constructor
  · rintro ⟨hlength, hprefix⟩
    rw [hwhole] at hprefix
    -- What comes after the first NUL of `b` takes no bytes.
    have hsplit := List.takeWhile_append_dropWhile (p := (· != nul)) (l := b.toList.map Text.lowerChar)
    rw [← hprefix] at hsplit
    cases hrest : (b.toList.map Text.lowerChar).dropWhile (· != nul) with
    | nil => rw [← hsplit, hrest, List.append_nil]
    | cons c cs =>
      rw [hrest] at hsplit
      rw [← hsplit, List.map_append, List.sum_append, List.map_cons, List.sum_cons] at hlength
      have := c.utf8Size_pos
      omega
  · intro hsame
    rw [hsame]
    exact ⟨rfl, rfl⟩

end Nocase
