import Zbierak.Protocol
import Mathlib.Data.List.Nodup

/-!
# Issue tags

Flat string labels: trimmed, without whitespace and commas, because operators
write them as comma-separated lists.
-/
namespace Zbierak.Tags

/-- Maximum number of tags stored on a single issue. -/
def maxTags : Nat := 50

/-- Maximum length of a single tag. -/
def maxTagLen : Nat := 64

def validateTag (raw : String) : Except String String :=
  let tag := Text.trim raw
  if tag = "" then .error "must not be empty"
  else if Text.charCount tag > maxTagLen then
    .error s!"must contain at most {maxTagLen} characters"
  else if tag.toList.any fun c => Text.isWhitespace c || c == ',' then
    .error "must not contain whitespace or commas"
  else .ok tag

/-- Accepted tags so far, extended by the raw values in order. -/
def collectTags : List String → List String → Except String (List String)
  | tags, [] => .ok tags
  | tags, value :: rest =>
    if Text.trim value = "" then collectTags tags rest
    else match validateTag value with
      | .error error => .error s!"tag {error}"
      | .ok tag => collectTags (if tag ∈ tags then tags else tags ++ [tag]) rest

def normalizeTags (raw : List String) : Except String (List String) :=
  match collectTags [] raw with
  | .error error => .error error
  | .ok tags =>
    if tags.length > maxTags then .error s!"must contain at most {maxTags} tags" else .ok tags

def normalizeCommaSeparated (input : String) : Except String (List String) :=
  normalizeTags (Text.split ',' input)

/-- Label of one event tag: `key:value`, or the key alone when the value is
empty; a label that breaks the tag rules is dropped. -/
def labelOf (entry : String × String) : Option String :=
  let label := if entry.2 = "" then entry.1 else s!"{entry.1}:{entry.2}"
  match validateTag label with
  | .ok tag => some tag
  | .error _ => none

def labelsFromEventTags (tags : List (String × String)) : List String := tags.filterMap labelOf

/-- What an accepted tag looks like. -/
structure Valid (tag : String) : Prop where
  nonempty : tag ≠ ""
  short : Text.charCount tag ≤ maxTagLen
  plain : ∀ c ∈ tag.toList, Text.isWhitespace c = false ∧ c ≠ ','

theorem validateTag_ok {raw tag : String} (h : validateTag raw = .ok tag) :
    tag = Text.trim raw ∧ Valid tag := by
  unfold validateTag at h
  dsimp only at h
  split at h
  · cases h
  · next hne =>
    split at h
    · cases h
    · next hlen =>
      split at h
      · cases h
      · next hplain =>
        cases h
        refine ⟨rfl, hne, Nat.not_lt.mp hlen, ?_⟩
        simpa using hplain

theorem Valid.trim {tag : String} (h : Valid tag) : Text.trim tag = tag :=
  Text.trim_of_no_whitespace fun c hc => (h.plain c hc).1

/-- A tag is valid when it is accepted unchanged. -/
theorem validateTag_iff {tag : String} : validateTag tag = .ok tag ↔ Valid tag := by
  constructor
  · exact fun h => (validateTag_ok h).2
  · intro h
    have hplain : ¬ (tag.toList.any fun c => Text.isWhitespace c || c == ',') = true := by
      simpa using h.plain
    simp only [validateTag, h.trim, h.nonempty, if_false, if_neg (Nat.not_lt.mpr h.short),
      if_neg hplain]

theorem collectTags_ok {tags raw result : List String} (h : collectTags tags raw = .ok result)
    (hnodup : tags.Nodup) (hvalid : ∀ tag ∈ tags, Valid tag) :
    result.Nodup ∧ ∀ tag ∈ result, Valid tag := by
  induction raw generalizing tags with
  | nil =>
    cases h
    exact ⟨hnodup, hvalid⟩
  | cons value rest ih =>
    unfold collectTags at h
    split at h
    · exact ih h hnodup hvalid
    · split at h
      · cases h
      · next tag htag =>
        have hnew := (validateTag_ok htag).2
        split at h
        · exact ih h hnodup hvalid
        · next hmem =>
          refine ih h ?_ fun t ht => ?_
          · rw [List.nodup_append_comm, List.singleton_append, List.nodup_cons]
            exact ⟨hmem, hnodup⟩
          · rcases List.mem_append.mp ht with ht | ht
            · exact hvalid t ht
            · exact List.mem_singleton.mp ht ▸ hnew

theorem normalizeTags_ok {raw tags : List String} (h : normalizeTags raw = .ok tags) :
    tags.Nodup ∧ tags.length ≤ maxTags ∧ ∀ tag ∈ tags, Valid tag := by
  unfold normalizeTags at h
  split at h
  · cases h
  · next collected hcollect =>
    split at h
    · cases h
    · next hlen =>
      cases h
      obtain ⟨hnodup, hvalid⟩ := collectTags_ok hcollect List.nodup_nil (by simp)
      exact ⟨hnodup, Nat.not_lt.mp hlen, hvalid⟩

theorem labels_valid {tags : List (String × String)} {label : String}
    (h : label ∈ labelsFromEventTags tags) : Valid label := by
  obtain ⟨entry, -, hentry⟩ := List.mem_filterMap.mp h
  unfold labelOf at hentry
  dsimp only at hentry
  split at hentry
  · next htag =>
    cases hentry
    exact (validateTag_ok htag).2
  · cases hentry

end Zbierak.Tags
