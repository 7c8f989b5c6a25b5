import Zbierak.Lib.Utf8

/-!
# Header values

A header carries bytes. Only those that are visible, blanks and tabs among them, are
read as text or accepted from it.
-/
namespace Header

/-- `is_visible_ascii` -/
def isVisibleAscii (b : UInt8) : Bool := (32 ≤ b ∧ b < 127) ∨ b = 9

/-- The way from header values to text and back, as a library has it. -/
structure Values where
  toStr : List UInt8 → Option String
  fromStr : String → Option String
  toStr_eq_some : ∀ value s, toStr value = some s ↔
    value = Text.toUtf8 s ∧ value.all isVisibleAscii = true
  fromStr_visible : ∀ s, (Text.toUtf8 s).all isVisibleAscii = true → fromStr s = some s

/-- The one that looks at every byte. -/
def Values.scanning : Values where
  toStr value := if value.all isVisibleAscii then Text.fromUtf8 value else none
  fromStr s := if (Text.toUtf8 s).all isVisibleAscii then some s else none
  toStr_eq_some value s := by
    split
    · next h => rw [Utf8.fromUtf8_eq_some, and_iff_left h, eq_comm]
    · next h => simp [h]
  fromStr_visible s h := if_pos h

end Header
