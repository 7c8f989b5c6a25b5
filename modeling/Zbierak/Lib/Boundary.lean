import Zbierak.Lib.Utf8

/-!
# Cutting text at a character boundary

An index into the bytes of a text is a boundary when no character lies on both
sides of it. Going back from a limit to the nearest boundary finds the longest
run of leading characters within the limit.
-/
namespace Boundary

open String (utf8EncodeChar)
open Text (takeBytes)

/-- Whether a byte starts a character. -/
def startsChar (b : UInt8) : Bool := b < 0x80 || 0xC0 ≤ b

/-- `str::is_char_boundary`. -/
def isCharBoundary (bytes : List UInt8) (index : Nat) : Bool :=
  index == 0 || match bytes[index]? with
    | none => index == bytes.length
    | some b => startsChar b

/-- Step back from an index to a boundary. -/
def floor (bytes : List UInt8) : Nat → Nat
  | 0 => 0
  | index + 1 => if isCharBoundary bytes (index + 1) then index + 1 else floor bytes index

def encode (cs : List Char) : List UInt8 := cs.flatMap utf8EncodeChar

@[simp] theorem encode_nil : encode [] = [] := rfl

@[simp] theorem encode_cons (c : Char) (cs : List Char) :
    encode (c :: cs) = utf8EncodeChar c ++ encode cs := rfl

theorem encode_append (cs ds : List Char) : encode (cs ++ ds) = encode cs ++ encode ds :=
  List.flatMap_append

theorem toUtf8_eq_encode (s : String) : Text.toUtf8 s = encode s.toList := Utf8.toUtf8_eq s

theorem length_toUtf8 (s : String) : (Text.toUtf8 s).length = Text.byteLen s := by
  simp [Text.toUtf8, Text.byteLen]

theorem length_encode (cs : List Char) :
    (encode cs).length = Text.byteLen (String.ofList cs) := by
  rw [← length_toUtf8, toUtf8_eq_encode, String.toList_ofList]

theorem length_encode_ascii {cs : List Char} (h : ∀ c ∈ cs, c.utf8Size = 1) :
    (encode cs).length = cs.length := by
  induction cs with
  | nil => rfl
  | cons c cs ih =>
    obtain ⟨hc, hcs⟩ := List.forall_mem_cons.mp h
    rw [encode_cons, List.length_append, String.length_utf8EncodeChar, hc, ih hcs,
      List.length_cons, Nat.add_comm]

theorem startsChar_ofNat {n : Nat} (h : n < 256) :
    startsChar (UInt8.ofNat n) = true ↔ n < 128 ∨ 192 ≤ n := by
  simp only [startsChar, Bool.or_eq_true, decide_eq_true_eq, UInt8.lt_iff_toNat_lt,
    UInt8.le_iff_toNat_le, UInt8.toNat_ofNat', Nat.mod_eq_of_lt h]
  rfl

theorem not_startsChar_ofNat (n : Nat) : startsChar (UInt8.ofNat (n % 64 + 128)) = false := by
  rw [← Bool.not_eq_true, startsChar_ofNat (by omega)]
  omega

/-- The first byte of a character starts it, and no other byte does. -/
theorem startsChar_encodeChar (c : Char) : ∃ b bytes, utf8EncodeChar c = b :: bytes ∧
    startsChar b = true ∧ ∀ x ∈ bytes, startsChar x = false := by
  simp only [utf8EncodeChar]
  -- One case for each encoded length.
  repeat' split
  all_goals
    refine ⟨_, _, rfl, (startsChar_ofNat (by omega)).mpr (by omega), ?_⟩
    simp only [List.forall_mem_cons, not_startsChar_ofNat, List.not_mem_nil, false_implies,
      implies_true, and_true]

variable {cs : List Char} {c : Char} {index max : Nat}

/-- Inside the first character there is no boundary. -/
theorem isCharBoundary_inside (hpos : 0 < index) (hlt : index < c.utf8Size) (cs : List Char) :
    isCharBoundary (encode (c :: cs)) index = false := by
  obtain ⟨b, bytes, hencode, -, hrest⟩ := startsChar_encodeChar c
  obtain ⟨i, rfl⟩ := Nat.exists_eq_succ_of_ne_zero (Nat.ne_of_gt hpos)
  have hlen : bytes.length + 1 = c.utf8Size := by
    rw [← String.length_utf8EncodeChar, hencode, List.length_cons]
  have hi : i < bytes.length := by omega
  rw [isCharBoundary, encode_cons, hencode, List.cons_append, List.getElem?_cons_succ,
    List.getElem?_append_left hi, List.getElem?_eq_getElem hi]
  simp [hrest _ (List.getElem_mem hi)]

/-- Past the first character, the boundaries are those of the rest. -/
theorem isCharBoundary_past (hle : c.utf8Size ≤ index) (cs : List Char) :
    isCharBoundary (encode (c :: cs)) index = isCharBoundary (encode cs) (index - c.utf8Size) := by
  have hpos := c.utf8Size_pos
  have hlen := String.length_utf8EncodeChar c
  rw [isCharBoundary, isCharBoundary, encode_cons,
    List.getElem?_append_right (by omega), hlen, List.length_append, hlen]
  have hzero : (index == 0) = false := by simp; omega
  rw [hzero, Bool.false_or]
  by_cases heq : index = c.utf8Size
  · subst heq
    rw [Nat.sub_self, beq_self_eq_true, Bool.true_or]
    cases cs with
    | nil => simp
    | cons d cs =>
      obtain ⟨b, bytes, hencode, hstart, -⟩ := startsChar_encodeChar d
      simp [hencode, hstart]
  · have hne : (index - c.utf8Size == 0) = false := by simp; omega
    rw [hne, Bool.false_or]
    cases (encode cs)[index - c.utf8Size]? with
    | none => simp; omega
    | some b => rfl

theorem length_encode_takeBytes_le (max : Nat) (cs : List Char) :
    (encode (takeBytes max cs)).length ≤ max := by
  induction cs generalizing max with
  | nil => exact Nat.zero_le _
  | cons c cs ih =>
    rw [takeBytes]
    split
    · next hfits =>
      have := ih (max - c.utf8Size)
      rw [encode_cons, List.length_append, String.length_utf8EncodeChar]
      omega
    · exact Nat.zero_le _

theorem takeBytes_isPrefix (max : Nat) (cs : List Char) : takeBytes max cs <+: cs := by
  induction cs generalizing max with
  | nil => exact List.prefix_rfl
  | cons c cs ih =>
    rw [takeBytes]
    split
    · exact (List.cons_prefix_cons).mpr ⟨rfl, ih _⟩
    · exact List.nil_prefix

/-- Leading characters that fit are among those taken. -/
theorem prefix_takeBytes {cs ds : List Char} {max : Nat} (h : ds <+: cs)
    (hfits : (encode ds).length ≤ max) : ds <+: takeBytes max cs := by
  induction ds generalizing cs max with
  | nil => exact List.nil_prefix
  | cons d ds ih =>
    obtain ⟨rest, rfl⟩ := h
    rw [encode_cons, List.length_append, String.length_utf8EncodeChar] at hfits
    rw [List.cons_append, takeBytes, if_pos (by omega)]
    exact List.cons_prefix_cons.mpr ⟨rfl, ih (List.prefix_append _ _) (by omega)⟩

/-- The bytes of the characters taken are a limit that takes the same. -/
theorem takeBytes_length (max : Nat) (cs : List Char) :
    takeBytes (encode (takeBytes max cs)).length cs = takeBytes max cs := by
  have hback : takeBytes max cs <+: takeBytes (encode (takeBytes max cs)).length cs :=
    prefix_takeBytes (takeBytes_isPrefix _ _) (Nat.le_refl _)
  have hforth : takeBytes (encode (takeBytes max cs)).length cs <+: takeBytes max cs :=
    prefix_takeBytes (takeBytes_isPrefix _ _)
      (Nat.le_trans (length_encode_takeBytes_le _ _) (length_encode_takeBytes_le _ _))
  exact hforth.eq_of_length_le hback.length_le

/-- An index within the text is a boundary when some run of leading characters
ends there. -/
theorem isCharBoundary_iff (cs : List Char) (hle : index ≤ (encode cs).length) :
    isCharBoundary (encode cs) index = true ↔ (encode (takeBytes index cs)).length = index := by
  induction cs generalizing index with
  | nil =>
    obtain rfl : index = 0 := Nat.le_zero.mp hle
    exact iff_of_true rfl rfl
  | cons c cs ih =>
    rw [encode_cons, List.length_append, String.length_utf8EncodeChar] at hle
    by_cases hfits : c.utf8Size ≤ index
    · rw [isCharBoundary_past hfits, ih (by omega), takeBytes, if_pos hfits, encode_cons,
        List.length_append, String.length_utf8EncodeChar]
      omega
    · rw [takeBytes, if_neg hfits, encode_nil, List.length_nil]
      rcases Nat.eq_zero_or_pos index with rfl | hpos
      · exact iff_of_true rfl rfl
      · rw [isCharBoundary_inside hpos (by omega)]
        exact iff_of_false Bool.false_ne_true (by omega)

/-- A limit that cuts a character takes no more than the limit before it. -/
theorem takeBytes_succ (cs : List Char)
    (h : (encode (takeBytes (index + 1) cs)).length ≠ index + 1) :
    takeBytes (index + 1) cs = takeBytes index cs := by
  induction cs generalizing index with
  | nil => rfl
  | cons c cs ih =>
    rw [takeBytes] at h ⊢
    rw [takeBytes]
    by_cases hfits : c.utf8Size ≤ index + 1
    · rw [if_pos hfits, encode_cons, List.length_append, String.length_utf8EncodeChar] at h
      have hne : c.utf8Size ≠ index + 1 := by
        intro heq
        have := length_encode_takeBytes_le (index + 1 - c.utf8Size) cs
        omega
      rw [if_pos hfits, if_pos (by omega), show index + 1 - c.utf8Size = index - c.utf8Size + 1 by
        omega]
      rw [ih]
      rw [show index - c.utf8Size + 1 = index + 1 - c.utf8Size by omega]
      omega
    · rw [if_neg hfits, if_neg (by omega)]

/-- Going back from a limit within the text ends where the longest run of leading
characters within the limit does. -/
theorem floor_eq (cs : List Char) (hle : max ≤ (encode cs).length) :
    floor (encode cs) max = (encode (takeBytes max cs)).length := by
  induction max with
  | zero => exact (Nat.le_zero.mp (length_encode_takeBytes_le 0 cs)).symm
  | succ max ih =>
    rw [floor]
    split
    · next h => exact ((isCharBoundary_iff cs hle).mp h).symm
    · next h =>
      rw [isCharBoundary_iff cs hle] at h
      rw [ih (by omega), takeBytes_succ cs h]

theorem isCharBoundary_floor (bytes : List UInt8) (max : Nat) :
    isCharBoundary bytes (floor bytes max) = true := by
  induction max with
  | zero => rfl
  | succ max ih =>
    rw [floor]
    split
    · next h => exact h
    · exact ih

theorem le_of_isCharBoundary {bytes : List UInt8} (h : isCharBoundary bytes index = true) :
    index ≤ bytes.length := by
  by_contra hgt
  rw [isCharBoundary, List.getElem?_eq_none (by omega)] at h
  simp only [Bool.or_eq_true, beq_iff_eq] at h
  omega

/-- The bytes up to a boundary encode the characters that fit. -/
theorem take_boundary {s : String} (h : isCharBoundary (Text.toUtf8 s) index = true) :
    (Text.toUtf8 s).take index = encode (takeBytes index s.toList) := by
  have hle := le_of_isCharBoundary h
  rw [toUtf8_eq_encode] at h hle ⊢
  have hlen := (isCharBoundary_iff s.toList hle).mp h
  obtain ⟨rest, hrest⟩ := takeBytes_isPrefix index s.toList
  generalize takeBytes index s.toList = taken at hlen hrest ⊢
  rw [← hrest, encode_append, ← hlen, List.take_left]

/-- `&text[..index]`, for an index at which slicing does not panic. -/
def sliceTo (s : String) (index : Nat) (h : isCharBoundary (Text.toUtf8 s) index = true) :
    String where
  toByteArray := ((Text.toUtf8 s).take index).toByteArray
  isValidUTF8 := .intro (takeBytes index s.toList) (by rw [take_boundary h]; rfl)

theorem sliceTo_eq {s : String} (h : isCharBoundary (Text.toUtf8 s) index = true) :
    sliceTo s index h = String.ofList (takeBytes index s.toList) := by
  rw [← String.toByteArray_inj, String.toByteArray_ofList]
  change ((Text.toUtf8 s).take index).toByteArray = _
  rw [take_boundary h]
  rfl

/-- The loop that cuts a text to at most `max` bytes. -/
def truncate (s : String) (max : Nat) : String :=
  if Text.byteLen s ≤ max then s
  else sliceTo s (floor (Text.toUtf8 s) max) (isCharBoundary_floor _ _)

/-- The loop keeps the longest run of leading characters within the limit. -/
theorem truncate_eq (s : String) (max : Nat) : truncate s max = Text.truncateUtf8 s max := by
  have hlen : (encode s.toList).length = Text.byteLen s := by
    rw [← toUtf8_eq_encode, length_toUtf8]
  rw [truncate, Text.truncateUtf8]
  split
  · next hfits =>
    have hall : takeBytes max s.toList = s.toList := by
      refine (takeBytes_isPrefix max s.toList).eq_of_length_le ?_
      exact (prefix_takeBytes List.prefix_rfl (hlen ▸ hfits)).length_le
    rw [hall, String.ofList_toList]
  · next hlong =>
    rw [sliceTo_eq, toUtf8_eq_encode, floor_eq s.toList (by omega)]
    rw [takeBytes_length]

/-- `t` is the longest part of `s` from its start on that has at most `max` bytes. -/
structure LongestPrefix (max : Nat) (s t : String) : Prop where
  isPrefix : t.toList <+: s.toList
  fits : Text.byteLen t ≤ max
  longest : ∀ u : String, u.toList <+: s.toList → Text.byteLen u ≤ max → u.toList <+: t.toList

theorem longestPrefix_truncate (s : String) (max : Nat) : LongestPrefix max s (truncate s max) := by
  rw [truncate_eq, Text.truncateUtf8]
  constructor
  · rw [String.toList_ofList]
    exact takeBytes_isPrefix max s.toList
  · rw [← length_encode]
    exact length_encode_takeBytes_le max s.toList
  · intro u hprefix hfits
    rw [String.toList_ofList]
    refine prefix_takeBytes hprefix ?_
    rwa [length_encode, String.ofList_toList]

/-- There is only one. -/
theorem LongestPrefix.unique {max : Nat} {s t u : String} (ht : LongestPrefix max s t)
    (hu : LongestPrefix max s u) : t = u := by
  have hback : t.toList <+: u.toList := hu.longest t ht.isPrefix ht.fits
  have hforth : u.toList <+: t.toList := ht.longest u hu.isPrefix hu.fits
  exact String.toList_injective (hback.eq_of_length_le hforth.length_le)

/-- Bytes at the start of a text that are a text come from its first characters. -/
theorem prefix_of_encode {cs ds : List Char} (h : encode ds <+: encode cs) : ds <+: cs := by
  induction ds generalizing cs with
  | nil => exact List.nil_prefix
  | cons d ds ih =>
    obtain ⟨rest, hrest⟩ := h
    cases cs with
    | nil =>
      rw [encode_nil, List.append_eq_nil_iff, encode_cons, List.append_eq_nil_iff] at hrest
      exact absurd hrest.1.1 String.utf8EncodeChar_ne_nil
    | cons c cs =>
      rw [encode_cons, encode_cons, List.append_assoc] at hrest
      obtain ⟨rfl, htail⟩ := Utf8.encodeChar_append_inj hrest
      exact List.cons_prefix_cons.mpr ⟨rfl, ih ⟨rest, htail⟩⟩

theorem toUtf8_prefix_iff {s t : String} :
    Text.toUtf8 t <+: Text.toUtf8 s ↔ t.toList <+: s.toList := by
  rw [toUtf8_eq_encode, toUtf8_eq_encode]
  constructor
  · exact prefix_of_encode
  · rintro ⟨rest, hrest⟩
    rw [← hrest, encode_append]
    exact List.prefix_append _ _

/-- Among the first bytes of `s`, at most `max` of them, those of `t` are the
longest that are well-formed UTF-8. -/
structure LongestUtf8 (max : Nat) (s t : String) : Prop where
  isPrefix : Text.toUtf8 t <+: Text.toUtf8 s
  fits : (Text.toUtf8 t).length ≤ max
  longest : ∀ bytes, bytes <+: Text.toUtf8 s → bytes.length ≤ max →
    (Text.fromUtf8 bytes).isSome → bytes <+: Text.toUtf8 t

/-- The longest run of leading characters has the longest run of leading bytes. -/
theorem LongestPrefix.longestUtf8 {max : Nat} {s t : String} (h : LongestPrefix max s t) :
    LongestUtf8 max s t := by
  refine ⟨toUtf8_prefix_iff.mpr h.isPrefix, length_toUtf8 t ▸ h.fits, ?_⟩
  intro bytes hprefix hfits hvalid
  obtain ⟨u, hu⟩ := Option.isSome_iff_exists.mp hvalid
  obtain rfl := Utf8.fromUtf8_eq_some.mp hu
  rw [length_toUtf8] at hfits
  exact toUtf8_prefix_iff.mpr (h.longest u (toUtf8_prefix_iff.mp hprefix) hfits)

/-- How a search for a boundary stands after so many tests. -/
inductive Search where
  | found (index : Nat)
  | underflow
  | running
  deriving DecidableEq, Repr

/-- `while !text.is_char_boundary(end) { end -= 1 }`, with an unsigned `end`; the
number of tests is bounded by `fuel`. -/
def search (bytes : List UInt8) : Nat → Nat → Search
  | 0, _ => .running
  | fuel + 1, index =>
    if isCharBoundary bytes index then .found index
    else match index with
      | 0 => .underflow
      | index + 1 => search bytes fuel index

/-- Zero is a boundary, so the search ends there at the latest. -/
theorem search_eq (bytes : List UInt8) {fuel index : Nat} (h : index < fuel) :
    search bytes fuel index = .found (floor bytes index) := by
  induction fuel generalizing index with
  | zero => exact absurd h (Nat.not_lt_zero _)
  | succ fuel ih =>
    cases index with
    | zero => rfl
    | succ index =>
      rw [search, floor]
      split
      · rfl
      · exact ih (Nat.lt_of_succ_lt_succ h)

theorem search_ne_underflow (bytes : List UInt8) (fuel index : Nat) :
    search bytes fuel index ≠ .underflow := by
  induction fuel generalizing index with
  | zero => exact Search.noConfusion
  | succ fuel ih =>
    cases index with
    | zero => exact Search.noConfusion
    | succ index =>
      rw [search]
      split
      · exact Search.noConfusion
      · exact ih index

/-- More tests do not change where the search stops. -/
theorem search_found {bytes : List UInt8} {fuel index found : Nat}
    (h : search bytes fuel index = .found found) : found = floor bytes index := by
  induction fuel generalizing index with
  | zero => cases h
  | succ fuel ih =>
    cases index with
    | zero =>
      cases h
      rfl
    | succ index =>
      rw [search] at h
      rw [floor]
      split at h
      · next hboundary =>
        cases h
        exact (if_pos hboundary).symm
      · next hinside =>
        rw [if_neg hinside]
        exact ih h

end Boundary
