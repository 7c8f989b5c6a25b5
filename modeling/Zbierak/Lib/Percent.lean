import Zbierak.Lib.Boundary

/-!
# Percent encoding and form decoding

Bytes that are not unreserved are written as `%` and two hexadecimal digits. A form
decoder splits a query at `&` and the first `=`, reads `+` as a space, undoes the
percent encoding and reads the bytes as UTF-8.
-/
namespace Percent

/-- Letters, digits and `-`, `_`, `.`, `~`. -/
def isUnreserved (b : UInt8) : Bool :=
  (65 ≤ b.toNat ∧ b.toNat ≤ 90) ∨ (97 ≤ b.toNat ∧ b.toNat ≤ 122) ∨ (48 ≤ b.toNat ∧ b.toNat ≤ 57) ∨
    b.toNat ∈ [45, 95, 46, 126]

/-- A digit of upper case hexadecimal. -/
def hexDigit (n : Nat) : Char := Char.ofNat (if n < 10 then 48 + n else 55 + n)

def encodeByte (b : UInt8) : List Char :=
  if isUnreserved b then [Char.ofNat b.toNat]
  else ['%', hexDigit (b.toNat / 16), hexDigit (b.toNat % 16)]

def encode (bytes : List UInt8) : List Char := bytes.flatMap encodeByte

def hexValue (b : UInt8) : Option Nat :=
  if 48 ≤ b.toNat ∧ b.toNat ≤ 57 then some (b.toNat - 48)
  else if 65 ≤ b.toNat ∧ b.toNat ≤ 70 then some (b.toNat - 55)
  else if 97 ≤ b.toNat ∧ b.toNat ≤ 102 then some (b.toNat - 87)
  else none

/-- A `%` without two digits behind it stands for itself. -/
def decode : List UInt8 → List UInt8
  | b :: high :: low :: rest =>
    if b = 0x25 then
      match hexValue high, hexValue low with
      | some h, some l => UInt8.ofNat (16 * h + l) :: decode rest
      | _, _ => b :: decode (high :: low :: rest)
    else b :: decode (high :: low :: rest)
  | bytes => bytes

def plusToSpace (b : UInt8) : UInt8 := if b = 0x2B then 0x20 else b

/-- A name or a value of a form, unless its bytes are not well-formed. -/
def formText (bytes : List UInt8) : Option String := Text.fromUtf8 (decode (bytes.map plusToSpace))

def isName (b : UInt8) : Bool := b != 0x3D

/-- What stands before the first `=` and behind it. -/
def formPair (piece : List UInt8) : Option (String × String) := do
  let name ← formText (piece.takeWhile isName)
  let value ← formText (piece.dropWhile isName).tail
  some (name, value)

/-- The pairs of a query; empty pieces are skipped. -/
def formPairs (query : List UInt8) : Option (List (String × String)) :=
  ((query.splitOn 0x26).filter fun piece => !piece.isEmpty).mapM formPair

/-- The characters of an encoded text: letters, digits, `%`, `-`, `.`, `_`, `~`. -/
def Safe (n : Nat) : Prop :=
  (65 ≤ n ∧ n ≤ 90) ∨ (97 ≤ n ∧ n ≤ 122) ∨ (48 ≤ n ∧ n ≤ 57) ∨ n = 37 ∨ n = 45 ∨ n = 46 ∨ n = 95 ∨
    n = 126

theorem Safe.ascii {n : Nat} (h : Safe n) : n < 128 := by
  unfold Safe at h
  omega

theorem toNat_hexDigit {n : Nat} (h : n < 16) :
    (hexDigit n).toNat = if n < 10 then 48 + n else 55 + n := by
  rw [hexDigit]
  exact Text.toNat_ofNat (by split <;> omega)

theorem safe_encodeByte (b : UInt8) : ∀ c ∈ encodeByte b, Safe c.toNat := by
  have hb : b.toNat < 256 := b.toNat_lt
  rw [encodeByte]
  split
  · next h =>
    simp only [isUnreserved, decide_eq_true_eq, List.mem_cons, List.not_mem_nil, or_false] at h
    rw [List.forall_mem_singleton, Text.toNat_ofNat (by omega), Safe]
    omega
  · simp only [List.forall_mem_cons, List.not_mem_nil, false_implies, implies_true, and_true]
    rw [toNat_hexDigit (Nat.div_lt_of_lt_mul hb), toNat_hexDigit (Nat.mod_lt _ (by decide))]
    have hpercent : ('%' : Char).toNat = 37 := by decide
    rw [hpercent]
    unfold Safe
    refine ⟨by omega, ?_, ?_⟩ <;> split <;> omega

theorem safe_encode {bytes : List UInt8} : ∀ c ∈ encode bytes, Safe c.toNat := by
  intro c hc
  obtain ⟨b, -, hb⟩ := List.mem_flatMap.mp hc
  exact safe_encodeByte b c hb

/-- An ASCII character is one byte, its own number. -/
theorem encodeChar_ascii {c : Char} (h : c.toNat < 128) :
    String.utf8EncodeChar c = [UInt8.ofNat c.toNat] := by
  have hle : c.val.toNat ≤ 127 := Nat.le_of_lt_succ h
  rw [String.utf8EncodeChar, if_pos hle]
  rfl

def asciiBytes (cs : List Char) : List UInt8 := cs.map fun c => UInt8.ofNat c.toNat

theorem encode_ascii {cs : List Char} (h : ∀ c ∈ cs, c.toNat < 128) :
    Boundary.encode cs = asciiBytes cs := by
  induction cs with
  | nil => rfl
  | cons c cs ih =>
    obtain ⟨hc, hcs⟩ := List.forall_mem_cons.mp h
    rw [Boundary.encode_cons, encodeChar_ascii hc, ih hcs]
    rfl

theorem decode_cons {b : UInt8} (h : b ≠ 0x25) (rest : List UInt8) :
    decode (b :: rest) = b :: decode rest := by
  cases rest with
  | nil => rfl
  | cons high rest =>
    cases rest with
    | nil => rfl
    | cons low rest => rw [decode, if_neg h]

theorem hexValue_hexDigit {n : Nat} (h : n < 16) :
    hexValue (UInt8.ofNat (hexDigit n).toNat) = some n := by
  have hbyte : ∀ m : Nat, m < 256 → (UInt8.ofNat m).toNat = m := fun m hm => by
    rw [UInt8.toNat_ofNat', Nat.mod_eq_of_lt hm]
  rw [toNat_hexDigit h, hexValue]
  by_cases hdigit : n < 10
  · rw [if_pos hdigit, hbyte _ (by omega), if_pos (by omega), Nat.add_sub_cancel_left]
  · rw [if_neg hdigit, hbyte _ (by omega), if_neg (by omega), if_pos (by omega),
      Nat.add_sub_cancel_left]

theorem ofNat_toNat_of_unreserved {b : UInt8} (h : isUnreserved b = true) :
    UInt8.ofNat (Char.ofNat b.toNat).toNat = b ∧ b ≠ 0x25 := by
  have hb : b.toNat < 256 := b.toNat_lt
  constructor
  · rw [Text.toNat_ofNat (by omega), UInt8.ofNat_toNat]
  · rintro rfl
    exact absurd h (by decide)

/-- An encoded byte is read back, whatever follows it. -/
theorem decode_encodeByte (b : UInt8) (rest : List UInt8) :
    decode (asciiBytes (encodeByte b) ++ rest) = b :: decode rest := by
  have hb : b.toNat < 256 := b.toNat_lt
  rw [encodeByte]
  split
  · next h =>
    obtain ⟨hsame, hne⟩ := ofNat_toNat_of_unreserved h
    rw [asciiBytes, List.map_singleton, hsame, List.singleton_append, decode_cons hne]
  · have hpercent : UInt8.ofNat ('%' : Char).toNat = 0x25 := by decide
    have hhigh : b.toNat / 16 < 16 := by omega
    have hlow : b.toNat % 16 < 16 := Nat.mod_lt _ (by decide)
    have hvalue : UInt8.ofNat (16 * (b.toNat / 16) + b.toNat % 16) = b := by
      rw [Nat.div_add_mod, UInt8.ofNat_toNat]
    simp only [asciiBytes, List.map_cons, List.map_nil, List.cons_append, List.nil_append, hpercent]
    rw [decode, if_pos rfl, hexValue_hexDigit hhigh, hexValue_hexDigit hlow]
    dsimp only
    rw [hvalue]

theorem decode_encode (bytes : List UInt8) : decode (asciiBytes (encode bytes)) = bytes := by
  induction bytes with
  | nil => rfl
  | cons b bytes ih =>
    rw [encode, List.flatMap_cons, asciiBytes, List.map_append, ← asciiBytes, ← asciiBytes,
      decode_encodeByte, ← encode, ih]

/-- A byte of an encoded text is none of those that the decoder treats in its own way
before it undoes the encoding. -/
theorem safe_asciiBytes {bytes : List UInt8} : ∀ b ∈ asciiBytes (encode bytes),
    b ≠ 0x26 ∧ b ≠ 0x2B ∧ b ≠ 0x3D := by
  intro b hb
  obtain ⟨c, hc, rfl⟩ := List.mem_map.mp hb
  have hsafe := safe_encode c hc
  have hbyte : (UInt8.ofNat c.toNat).toNat = c.toNat := by
    rw [UInt8.toNat_ofNat', Nat.mod_eq_of_lt (Nat.lt_trans hsafe.ascii (by decide))]
  unfold Safe at hsafe
  refine ⟨?_, ?_, ?_⟩ <;> intro heq <;> rw [heq] at hbyte <;>
    simp only [UInt8.reduceToNat] at hbyte <;> omega

/-- A text is read back from a form in which it stands encoded. -/
theorem formText_encode (s : String) : formText (asciiBytes (encode (Text.toUtf8 s))) = some s := by
  have hplus : (asciiBytes (encode (Text.toUtf8 s))).map plusToSpace =
      asciiBytes (encode (Text.toUtf8 s)) := by
    conv_rhs => rw [← List.map_id (asciiBytes (encode (Text.toUtf8 s)))]
    exact List.map_congr_left fun b hb => if_neg (safe_asciiBytes b hb).2.1
  rw [formText, hplus, decode_encode, Utf8.fromUtf8_toUtf8]

theorem formPair_eq {name value : List UInt8} {key s : String} (hname : ∀ b ∈ name, b ≠ 0x3D)
    (hkey : formText name = some key) (hvalue : formText value = some s) :
    formPair (name ++ 0x3D :: value) = some (key, s) := by
  have hkeep : ∀ b ∈ name, isName b = true := fun b hb => bne_iff_ne.mpr (hname b hb)
  have hstop : ¬ isName 0x3D = true := by decide
  rw [formPair, List.takeWhile_append_of_pos hkeep, List.takeWhile_cons_of_neg hstop,
    List.append_nil, hkey, List.dropWhile_append_of_pos hkeep, List.dropWhile_cons_of_neg hstop,
    List.tail_cons, hvalue]
  rfl

/-- A query of one name and an encoded value gives that pair. -/
theorem formPairs_single {name : List UInt8} {key : String}
    (hname : ∀ b ∈ name, b ≠ 0x26 ∧ b ≠ 0x3D) (hkey : formText name = some key) (s : String) :
    formPairs (name ++ 0x3D :: asciiBytes (encode (Text.toUtf8 s))) = some [(key, s)] := by
  have hone : (0x26 : UInt8) ∉ name ++ 0x3D :: asciiBytes (encode (Text.toUtf8 s)) := by
    intro hmem
    rcases List.mem_append.mp hmem with hmem | hmem
    · exact (hname _ hmem).1 rfl
    · rcases List.mem_cons.mp hmem with heq | hmem
      · exact absurd heq (by decide)
      · exact (safe_asciiBytes _ hmem).1 rfl
  have hpair := formPair_eq (fun b hb => (hname b hb).2) hkey (formText_encode s)
  rw [formPairs, List.splitOn_eq_singleton hone, List.filter_cons_of_pos (by simp)]
  simp [hpair]

end Percent
