import Zbierak.Forms
import Zbierak.Lib.Boundary
import Zbierak.Lib.Words

/-!
# Slugs made from names

`slugify` keeps the letters and digits of a name in lower case and joins its words
by hyphens, as far as they fit. What it returns is a slug unless it is too short.
-/
namespace Zbierak.Slugs

open Forms Words

/-- What a slug has between its hyphens. -/
def isWordChar (c : Char) : Bool := ('a' ≤ c ∧ c ≤ 'z') ∨ ('0' ≤ c ∧ c ≤ '9')

/-- The words of a name in lower case, joined by hyphens. -/
def collapsed (name : String) : List Char :=
  collapse isWordChar '-' false false (name.toList.map Text.lowerChar)

/-- What `slugify` returns, whatever it is given. -/
structure Sound (slug : String) : Prop where
  chars : ∀ c ∈ slug.toList, isWordChar c = true ∨ c = '-'
  short : Text.charCount slug ≤ slugMaxLen
  head : slug.toList.head? ≠ some '-'
  last : slug.toList.getLast? ≠ some '-'
  single : ¬ ['-', '-'] <:+: slug.toList

theorem lowerChar_cases (c : Char) :
    (65 ≤ c.toNat ∧ c.toNat ≤ 90 ∧ (Text.lowerChar c).toNat = c.toNat + 32) ∨
      (¬ (65 ≤ c.toNat ∧ c.toNat ≤ 90) ∧ Text.lowerChar c = c) := by
  unfold Text.lowerChar
  split
  · next h =>
    have hlow : 65 ≤ c.toNat := h.1
    have hhigh : c.toNat ≤ 90 := h.2
    exact .inl ⟨hlow, hhigh, Text.toNat_ofNat (by omega)⟩
  · next h => exact .inr ⟨h, rfl⟩

theorem isWordChar_iff {c : Char} : isWordChar c = true ↔
    (97 ≤ c.toNat ∧ c.toNat ≤ 122) ∨ (48 ≤ c.toNat ∧ c.toNat ≤ 57) := by
  rw [isWordChar, decide_eq_true_eq]
  exact Iff.rfl

theorem isAsciiAlphanumeric_iff {c : Char} : isAsciiAlphanumeric c = true ↔
    (97 ≤ c.toNat ∧ c.toNat ≤ 122) ∨ (65 ≤ c.toNat ∧ c.toNat ≤ 90) ∨
      (48 ≤ c.toNat ∧ c.toNat ≤ 57) := by
  rw [isAsciiAlphanumeric, decide_eq_true_eq]
  exact Iff.rfl

/-- Lower case turns what `slugify` keeps into what a slug consists of. -/
theorem isWordChar_lowerChar (c : Char) :
    isWordChar (Text.lowerChar c) = isAsciiAlphanumeric c := by
  rw [Bool.eq_iff_iff, isWordChar_iff, isAsciiAlphanumeric_iff]
  rcases lowerChar_cases c with ⟨hlow, hhigh, heq⟩ | ⟨hother, heq⟩
  · rw [heq]
    omega
  · rw [heq]
    omega

theorem lowerChar_eq {c : Char} (h : isWordChar c = true ∨ c = '-') : Text.lowerChar c = c := by
  rcases lowerChar_cases c with ⟨hlow, hhigh, -⟩ | ⟨-, heq⟩
  · rcases h with h | rfl
    · rw [isWordChar_iff] at h
      omega
    · exact absurd hlow (by decide)
  · exact heq

theorem hyphen_separates : isWordChar '-' = false := by decide

section Loop

variable {cs slug : List Char} {pending : Bool}

/-- The slug stays joined and within the limit: a hyphen is only written together
with the character after it. -/
theorem slugifyLoop_joined (hjoined : Joined isWordChar '-' slug) (hlen : slug.length ≤ slugMaxLen) :
    Joined isWordChar '-' (slugifyLoop cs slug pending) ∧
      (slugifyLoop cs slug pending).length ≤ slugMaxLen := by
  induction cs generalizing slug pending with
  | nil => exact ⟨hjoined, hlen⟩
  | cons c cs ih =>
    rw [slugifyLoop]
    split
    · exact ih hjoined hlen
    · next hkeep =>
      have hword : isWordChar (Text.lowerChar c) = true := by
        rw [isWordChar_lowerChar]
        simpa using hkeep
      split
      · exact ⟨hjoined, hlen⟩
      · next hroom =>
        split
        · next hsep =>
          refine ih (hjoined.pushWord hsep.2.1 hword) ?_
          rw [List.length_append]
          exact hsep.2.2
        · refine ih (hjoined.push hword) ?_
          rw [List.length_append]
          exact Nat.not_lt.mp hroom

/-- As long as everything fits, the loop leaves what one pass without a limit does. -/
theorem slugifyLoop_eq (started : Bool) (hstarted : started = true ↔ slug ≠ [])
    (hfits : slug.length +
      (collapse isWordChar '-' started pending (cs.map Text.lowerChar)).length ≤ slugMaxLen) :
    slugifyLoop cs slug pending =
      slug ++ collapse isWordChar '-' started pending (cs.map Text.lowerChar) := by
  induction cs generalizing slug pending started with
  | nil => exact (List.append_nil _).symm
  | cons c cs ih =>
    rw [List.map_cons] at hfits ⊢
    rw [slugifyLoop]
    cases hkeep : isAsciiAlphanumeric c with
    | false =>
      rw [← isWordChar_lowerChar] at hkeep
      rw [collapse_skip hkeep] at hfits ⊢
      exact ih started hstarted hfits
    | true =>
      rw [← isWordChar_lowerChar] at hkeep
      rw [collapse_kept hkeep] at hfits ⊢
      rw [if_neg Bool.noConfusion]
      cases hsep : started && pending with
      | true =>
        obtain ⟨rfl, rfl⟩ : started = true ∧ pending = true := by simpa using hsep
        rw [hsep, if_pos rfl, List.length_append, List.length_cons, List.length_singleton] at hfits
        have hroom : ¬ slug.length + 1 > slugMaxLen := by omega
        rw [if_neg hroom, if_pos ⟨rfl, hstarted.mp rfl, by omega⟩, if_pos rfl, ← List.append_assoc]
        refine ih true (by simp) ?_
        rw [List.length_append, List.length_cons, List.length_singleton]
        omega
      | false =>
        have hnone : ¬ (pending = true ∧ slug ≠ [] ∧ slug.length + 2 ≤ slugMaxLen) := by
          rintro ⟨rfl, hne, -⟩
          rw [hstarted.mpr hne] at hsep
          cases hsep
        rw [hsep, if_neg Bool.noConfusion, List.length_append, List.length_singleton] at hfits
        have hroom : ¬ slug.length + 1 > slugMaxLen := by omega
        rw [if_neg hroom, if_neg hnone, if_neg Bool.noConfusion, ← List.append_assoc]
        refine ih true (by simp) ?_
        rw [List.length_append, List.length_singleton]
        omega

end Loop

/-- A name whose words fit is slugified to its words. -/
theorem slugify_eq {name : String} (h : (collapsed name).length ≤ slugMaxLen) :
    slugify name = String.ofList (collapsed name) := by
  rw [slugify, slugifyLoop_eq false (by simp) (by simpa [collapsed] using h)]
  rfl

theorem joined_slugify (name : String) : Joined isWordChar '-' (slugify name).toList ∧
    (slugify name).toList.length ≤ slugMaxLen := by
  rw [slugify, String.toList_ofList]
  exact slugifyLoop_joined .nil (Nat.zero_le _)

theorem sound_of_joined {slug : String} (hjoined : Joined isWordChar '-' slug.toList)
    (hlen : slug.toList.length ≤ slugMaxLen) : Sound slug :=
  ⟨hjoined.parts, hlen, hjoined.head hyphen_separates, hjoined.last hyphen_separates,
    hjoined.single hyphen_separates⟩

theorem isSlugChar_iff {c : Char} : isSlugChar c = true ↔ isWordChar c = true ∨ c = '-' := by
  rw [isSlugChar, isWordChar, decide_eq_true_eq, decide_eq_true_eq, or_assoc]

theorem le_122 {c : Char} (h : isSlugChar c = true) : c.toNat ≤ 122 := by
  rcases isSlugChar_iff.mp h with h | rfl
  · rw [isWordChar_iff] at h
    omega
  · decide

/-- The characters of a slug take one byte each. -/
theorem byteLen_eq {slug : String} (h : ∀ c ∈ slug.toList, isSlugChar c = true) :
    Text.byteLen slug = Text.charCount slug := by
  rw [← Boundary.length_toUtf8, Boundary.toUtf8_eq_encode, Boundary.length_encode_ascii,
    Text.charCount]
  intro c hc
  rw [Char.utf8Size_eq_one_iff, UInt32.le_iff_toNat_le]
  exact Nat.le_trans (le_122 (h c hc)) (by decide)

theorem isSlugChar_of_validateSlug {slug : String} (h : validateSlug slug = .ok ()) :
    ∀ c ∈ slug.toList, isSlugChar c = true := by
  rw [validateSlug] at h
  split at h
  · cases h
  · next hchecks =>
    rw [not_or, not_or, not_or, not_not] at hchecks
    exact List.all_eq_true.mp hchecks.2.2.1

/-- A sound text of two characters is a slug. -/
theorem Sound.accepted {slug : String} (h : Sound slug) (hlen : 2 ≤ Text.charCount slug) :
    validateSlug slug = .ok () := by
  have hchars : ∀ c ∈ slug.toList, isSlugChar c = true := fun c hc =>
    isSlugChar_iff.mpr (h.chars c hc)
  have hshort : Text.charCount slug ≤ 50 := h.short
  rw [validateSlug, if_neg]
  rw [byteLen_eq hchars, List.all_eq_true.mpr hchars]
  rintro (hfew | hmany | hother | hhead | hlast)
  · exact Nat.not_lt.mpr hlen hfew
  · exact Nat.not_lt.mpr hshort hmany
  · exact hother rfl
  · exact h.head hhead
  · exact h.last hlast

/-- Joined words are their own slug. -/
theorem slugify_of_joined {slug : String} (hjoined : Joined isWordChar '-' slug.toList)
    (hlen : slug.toList.length ≤ slugMaxLen) : slugify slug = slug := by
  have hlower : slug.toList.map Text.lowerChar = slug.toList := by
    conv_rhs => rw [← List.map_id slug.toList]
    exact List.map_congr_left fun c hc => lowerChar_eq (hjoined.parts c hc)
  have hcollapsed : collapsed slug = slug.toList := by
    rw [collapsed, hlower, collapse_joined hyphen_separates hjoined]
  rw [slugify_eq (hcollapsed ▸ hlen), hcollapsed, String.ofList_toList]

/-- What `slugify` returns has only lower case letters, digits and single inner
hyphens and fits, so it passes validation from two characters on; and slugifying it
again changes nothing. -/
theorem slugify_sound (value : String) :
    Sound (slugify value) ∧
      (2 ≤ Text.charCount (slugify value) → validateSlug (slugify value) = .ok ()) ∧
      slugify (slugify value) = slugify value := by
  obtain ⟨hjoined, hlen⟩ := joined_slugify value
  have hsound := sound_of_joined hjoined hlen
  exact ⟨hsound, hsound.accepted, slugify_of_joined hjoined hlen⟩

end Zbierak.Slugs
