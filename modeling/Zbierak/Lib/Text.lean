import Mathlib.Data.List.Basic

/-!
# Text in the manner of a UTF-8 string library

A string is handled as the list of its Unicode scalar values; its length in
bytes is the length of its UTF-8 encoding.
-/
namespace Text

/-- The Unicode `White_Space` property. -/
def isWhitespace (c : Char) : Bool :=
  (0x09 ≤ c.toNat && c.toNat ≤ 0x0D) || c.toNat == 0x20 || c.toNat == 0x85 || c.toNat == 0xA0 ||
    c.toNat == 0x1680 || (0x2000 ≤ c.toNat && c.toNat ≤ 0x200A) || c.toNat == 0x2028 ||
    c.toNat == 0x2029 || c.toNat == 0x202F || c.toNat == 0x205F || c.toNat == 0x3000

def trimStart (cs : List Char) : List Char := cs.dropWhile isWhitespace

def trimEnd (cs : List Char) : List Char := (cs.reverse.dropWhile isWhitespace).reverse

def trim (s : String) : String := String.ofList (trimEnd (trimStart s.toList))

/-- `A` to `Z` become `a` to `z`; every other character stays. -/
def lowerChar (c : Char) : Char :=
  if 'A' ≤ c ∧ c ≤ 'Z' then Char.ofNat (c.toNat + 32) else c

theorem toNat_ofNat {n : Nat} (h : n < 0xD800) : (Char.ofNat n).toNat = n := by
  rw [Char.ofNat, dif_pos (.inl h)]
  rfl

def toAsciiLowercase (s : String) : String := String.ofList (s.toList.map lowerChar)

def eqIgnoreAsciiCase (s t : String) : Bool := toAsciiLowercase s = toAsciiLowercase t

/-- Number of characters. -/
def charCount (s : String) : Nat := s.toList.length

/-- Number of bytes of the UTF-8 encoding. -/
def byteLen (s : String) : Nat := s.utf8ByteSize

def takeChars (n : Nat) (s : String) : String := String.ofList (s.toList.take n)

/-- Pieces between the occurrences of `sep`; there is always at least one. -/
def splitList (sep : Char) : List Char → List (List Char)
  | [] => [[]]
  | c :: cs =>
    if c = sep then [] :: splitList sep cs
    else match splitList sep cs with
      | [] => [[c]]
      | piece :: pieces => (c :: piece) :: pieces

def split (sep : Char) (s : String) : List String := (splitList sep s.toList).map String.ofList

/-- Text of the bytes, when they are well-formed UTF-8. -/
def fromUtf8 (bytes : List UInt8) : Option String := String.fromUTF8? ⟨bytes.toArray⟩

def toUtf8 (s : String) : List UInt8 := s.toByteArray.data.toList

/-- Longest run of leading characters of at most `n` bytes. -/
def takeBytes : Nat → List Char → List Char
  | _, [] => []
  | n, c :: cs => if c.utf8Size ≤ n then c :: takeBytes (n - c.utf8Size) cs else []

/-- Cut at the last character boundary within `max` bytes. -/
def truncateUtf8 (s : String) (max : Nat) : String := String.ofList (takeBytes max s.toList)

/-- Drop the occurrences of `c` at the end. -/
def trimEndChar (c : Char) (s : String) : String :=
  String.ofList (s.toList.reverse.dropWhile (· == c)).reverse

theorem splitList_eq (sep : Char) (cs : List Char) : splitList sep cs = cs.splitOn sep := by
  induction cs with
  | nil => rfl
  | cons c cs ih =>
    rw [splitList, List.splitOn_cons_eq_if_modifyHead, ih]
    simp only [beq_iff_eq]
    split
    · rfl
    · cases h : cs.splitOn sep with
      | nil => exact absurd h (List.splitOn_ne_nil _ _)
      | cons piece pieces => rfl

theorem splitList_append {sep : Char} {cs : List Char} (h : sep ∉ cs) (ds : List Char) :
    splitList sep (cs ++ sep :: ds) = cs :: splitList sep ds := by
  rw [splitList_eq, splitList_eq, List.splitOn_append_cons_self, List.splitOn_eq_singleton h]
  rfl

theorem splitList_of_not_mem {sep : Char} {cs : List Char} (h : sep ∉ cs) :
    splitList sep cs = [cs] := by
  rw [splitList_eq, List.splitOn_eq_singleton h]

/-- The pieces, joined again. -/
theorem intercalate_splitList (sep : Char) (cs : List Char) :
    [sep].intercalate (splitList sep cs) = cs := by
  rw [splitList_eq, List.intercalate_splitOn]

/-- A list determines what stands before its first separator, and what stands after it. -/
theorem split_eq {α : Type} {x : α} {a a' r r' : List α} (ha : x ∉ a) (ha' : x ∉ a')
    (h : a ++ x :: r = a' ++ x :: r') : a = a' ∧ r = r' := by
  induction a generalizing a' with
  | nil =>
    cases a' with
    | nil => simpa using h
    | cons y a' =>
      obtain ⟨rfl, -⟩ : x = y ∧ r = a' ++ x :: r' := by simpa using h
      exact absurd List.mem_cons_self ha'
  | cons y a ih =>
    cases a' with
    | nil =>
      obtain ⟨rfl, -⟩ : y = x ∧ a ++ x :: r = r' := by simpa using h
      exact absurd List.mem_cons_self ha
    | cons y' a' =>
      obtain ⟨rfl, hrest⟩ : y = y' ∧ a ++ x :: r = a' ++ x :: r' := by simpa using h
      obtain ⟨rfl, rfl⟩ := ih (fun hx => ha (List.mem_cons_of_mem y hx))
        (fun hx => ha' (List.mem_cons_of_mem y hx)) hrest
      exact ⟨rfl, rfl⟩

theorem trim_of_no_whitespace {s : String} (h : ∀ c ∈ s.toList, isWhitespace c = false) :
    trim s = s := by
  have hdrop : ∀ cs : List Char, (∀ c ∈ cs, isWhitespace c = false) →
      cs.dropWhile isWhitespace = cs := by
    intro cs hcs
    cases cs with
    | nil => rfl
    | cons c cs => rw [List.dropWhile_cons, hcs c List.mem_cons_self, if_neg (by simp)]
  rw [trim, trimStart, hdrop _ h, trimEnd,
    hdrop _ fun c hc => h c (List.mem_reverse.mp hc), List.reverse_reverse, String.ofList_toList]

end Text
