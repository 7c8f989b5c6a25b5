import Zbierak.Lib.Text
import Mathlib.Data.String.Basic

/-!
# UTF-8 byte by byte

A text as the bytes of its encoding: the order of texts is the order of their
bytes, so a sort by bytes and a sort by characters agree.
-/
namespace Utf8

open String (utf8EncodeChar)

theorem toUtf8_eq (s : String) : Text.toUtf8 s = s.toList.flatMap utf8EncodeChar := by
  have h : s.toByteArray = s.toList.utf8Encode := by simp
  rw [Text.toUtf8, h, List.utf8Encode]
  simp

/-- The smaller character has the smaller bytes, whatever follows. -/
theorem encode_lt {c d : Char} (h : c < d) (bytes bytes' : List UInt8) :
    utf8EncodeChar c ++ bytes < utf8EncodeChar d ++ bytes' := by
  have hcd : c.val.toNat < d.val.toNat := h
  have hd : d.val.toNat < 0x110000 := by
    rcases d.valid with h | h <;> omega
  simp only [utf8EncodeChar]
  generalize c.val.toNat = v at hcd
  generalize d.val.toNat = w at hcd hd
  -- One case for each pair of encoded lengths.
  repeat' split
  all_goals simp only [List.cons_append, List.nil_append, List.cons_lt_cons_iff,
    UInt8.lt_iff_toNat_lt, ← UInt8.toNat_inj, UInt8.toNat_ofNat']
  all_goals simp (disch := omega) only [Nat.mod_eq_of_lt]
  all_goals omega

theorem append_lt {bytes bytes' : List UInt8} (h : bytes < bytes') (common : List UInt8) :
    common ++ bytes < common ++ bytes' := by
  induction common with
  | nil => exact h
  | cons b common ih => exact List.cons_lt_cons_iff.mpr (.inr ⟨rfl, ih⟩)

theorem encodeAll_lt {cs ds : List Char} (h : cs < ds) :
    cs.flatMap utf8EncodeChar < ds.flatMap utf8EncodeChar := by
  induction cs generalizing ds with
  | nil =>
    cases ds with
    | nil => exact absurd h (List.lt_irrefl _)
    | cons d ds =>
      rw [List.flatMap_nil, List.flatMap_cons]
      cases hd : utf8EncodeChar d with
      | nil => exact absurd hd String.utf8EncodeChar_ne_nil
      | cons b bytes => exact List.nil_lt_cons _ _
  | cons c cs ih =>
    cases ds with
    | nil => exact absurd h (List.not_lt_nil _)
    | cons d ds =>
      rw [List.flatMap_cons, List.flatMap_cons]
      rcases List.cons_lt_cons_iff.mp h with hlt | ⟨rfl, hrest⟩
      · exact encode_lt hlt _ _
      · exact append_lt (ih hrest) _

/-- Text order is the order of the encodings. -/
theorem toUtf8_lt_iff {a b : String} : Text.toUtf8 a < Text.toUtf8 b ↔ a < b := by
  have hlt : ∀ {a b : String}, a < b → Text.toUtf8 a < Text.toUtf8 b := by
    intro a b h
    rw [toUtf8_eq, toUtf8_eq]
    exact encodeAll_lt (String.lt_iff_toList_lt.mp h)
  refine ⟨fun h => ?_, hlt⟩
  rcases lt_trichotomy a b with h' | rfl | hgt
  · exact h'
  · exact absurd h (List.lt_irrefl _)
  · exact absurd (List.lt_trans h (hlt hgt)) (List.lt_irrefl _)

/-- Bytes are read back as the text they encode, and as no other. -/
theorem fromUtf8_eq_some {bytes : List UInt8} {s : String} :
    Text.fromUtf8 bytes = some s ↔ Text.toUtf8 s = bytes := by
  rw [Text.fromUtf8, String.fromUTF8?]
  constructor
  · intro h
    split at h
    · cases h
      rfl
    · cases h
  · rintro rfl
    have hs : (⟨(Text.toUtf8 s).toArray⟩ : ByteArray) = s.toByteArray := rfl
    rw [hs, dif_pos s.isValidUTF8]
    rfl

@[simp] theorem fromUtf8_toUtf8 (s : String) : Text.fromUtf8 (Text.toUtf8 s) = some s :=
  fromUtf8_eq_some.mpr rfl

/-- No character is the beginning of another one. -/
theorem encodeChar_append_inj {c d : Char} {bytes bytes' : List UInt8}
    (h : utf8EncodeChar c ++ bytes = utf8EncodeChar d ++ bytes') : c = d ∧ bytes = bytes' := by
  rcases lt_trichotomy c d with hlt | rfl | hgt
  · exact absurd (h ▸ encode_lt hlt bytes bytes') (List.lt_irrefl _)
  · exact ⟨rfl, List.append_cancel_left h⟩
  · exact absurd (h ▸ encode_lt hgt bytes' bytes) (List.lt_irrefl _)

end Utf8
