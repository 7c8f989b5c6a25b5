import Zbierak.Slugs
import Mathlib.Data.Bool.AllAny
import Mathlib.Data.List.DropRight

/-!
# The slug that the browser suggests

The page for a new project fills in a slug while the name is typed. It finds the
words of the name with regular expressions, and cuts the result last.
-/
namespace Zbierak.SlugSuggestion

open Forms Words Slugs

/-- A name as far as the browser's lower case is concerned here. -/
structure AsciiName where
  text : String
  ascii : ∀ c ∈ text.toList, c.toNat < 128

/-- `toLowerCase`, on ASCII. -/
def toLowerCase (name : AsciiName) : List Char := name.text.toList.map Text.lowerChar

/-- White space and line terminators. -/
def isSpace (c : Char) : Bool := (Text.isWhitespace c && c.toNat != 0x85) || c.toNat == 0xFEFF

def trim (cs : List Char) : List Char := (cs.dropWhile isSpace).rdropWhile isSpace

/-- `[^a-z0-9]` -/
def isOther (c : Char) : Bool := !isWordChar c

/-- `replace(/[^a-z0-9]+/g, "-")`; `inRun` tells whether the last character was part
of a run that is replaced already. -/
def replaceOthers : Bool → List Char → List Char
  | _, [] => []
  | inRun, c :: cs =>
    if isOther c then (if inRun then [] else ['-']) ++ replaceOthers true cs
    else c :: replaceOthers false cs

/-- `replace(/^-+|-+$/g, "")` -/
def stripHyphens (cs : List Char) : List Char := (cs.dropWhile (· == '-')).rdropWhile (· == '-')

/-- The value before it is cut. -/
def collapsedForm (name : AsciiName) : List Char :=
  stripHyphens (replaceOthers false (trim (toLowerCase name)))

/-- The value of the field for the slug. -/
def suggestion (name : AsciiName) : String := String.ofList ((collapsedForm name).take 50)

theorem rdropWhile_cons (p : Char → Bool) (c : Char) (cs : List Char) :
    (c :: cs).rdropWhile p =
      if cs.rdropWhile p = [] then [c].rdropWhile p else c :: cs.rdropWhile p := by
  simp only [List.rdropWhile, List.reverse_cons, List.dropWhile_append, List.isEmpty_iff,
    List.reverse_eq_nil_iff, List.reverse_nil, List.nil_append]
  split
  · rfl
  · simp

theorem rdropWhile_word {c : Char} (h : isWordChar c = true) (cs : List Char) :
    (c :: cs).rdropWhile (· == '-') = c :: cs.rdropWhile (· == '-') := by
  have hc : ¬ (c == '-') = true := by
    rw [beq_iff_eq]
    exact ne_sep hyphen_separates h
  rw [rdropWhile_cons]
  split
  · next hnil => rw [List.rdropWhile_singleton, if_neg hc, hnil]
  · rfl

theorem isOther_eq {c : Char} {b : Bool} (h : isWordChar c = b) : isOther c = !b := by
  rw [isOther, h]

/-- Replacing runs and stripping the end leaves what one pass does once it has begun. -/
theorem rdropWhile_replaceOthers (cs : List Char) :
    (replaceOthers false cs).rdropWhile (· == '-') = collapse isWordChar '-' true false cs ∧
      ('-' :: replaceOthers true cs).rdropWhile (· == '-') =
        collapse isWordChar '-' true true cs := by
  induction cs with
  | nil => exact ⟨rfl, rfl⟩
  | cons c cs ih =>
    cases hc : isWordChar c with
    | false =>
      rw [collapse_skip hc, collapse_skip hc, replaceOthers, replaceOthers, isOther_eq hc]
      exact ⟨ih.2, ih.2⟩
    | true =>
      have hkeep : (c :: replaceOthers false cs).rdropWhile (· == '-') =
          c :: collapse isWordChar '-' true false cs := by
        rw [rdropWhile_word hc, ih.1]
      rw [collapse_kept hc, collapse_kept hc, replaceOthers, replaceOthers, isOther_eq hc]
      refine ⟨hkeep, ?_⟩
      change ('-' :: c :: replaceOthers false cs).rdropWhile (· == '-') = _
      rw [rdropWhile_cons, hkeep, if_neg (List.cons_ne_nil _ _)]
      rfl

theorem stripHyphens_replaceOthers (inRun : Bool) (cs : List Char) :
    stripHyphens (replaceOthers inRun cs) = collapse isWordChar '-' false false cs := by
  induction cs generalizing inRun with
  | nil => rfl
  | cons c cs ih =>
    rw [replaceOthers]
    cases hc : isWordChar c with
    | false =>
      rw [collapse_skip hc, collapse_false, isOther_eq hc, ← ih true]
      cases inRun <;> rfl
    | true =>
      have hstart : (c :: replaceOthers false cs).dropWhile (· == '-') = c :: replaceOthers false cs := by
        rw [List.dropWhile_cons_of_neg]
        rw [beq_iff_eq]
        exact ne_sep hyphen_separates hc
      rw [collapse_kept hc, isOther_eq hc]
      change stripHyphens (c :: replaceOthers false cs) = _
      rw [stripHyphens, hstart, rdropWhile_word hc, (rdropWhile_replaceOthers cs).1]
      rfl

theorem isWordChar_of_isSpace {c : Char} (h : isSpace c = true) : isWordChar c = false := by
  rw [← Bool.not_eq_true, isWordChar_iff]
  simp only [isSpace, Text.isWhitespace, Bool.or_eq_true, Bool.and_eq_true, decide_eq_true_eq,
    beq_iff_eq] at h
  omega

/-- Trimming takes no part of a word. -/
theorem collapse_trim (cs : List Char) :
    collapse isWordChar '-' false false (trim cs) = collapse isWordChar '-' false false cs := by
  have hstart : cs.takeWhile isSpace ++ cs.dropWhile isSpace = cs := List.takeWhile_append_dropWhile
  have hend : trim cs ++ (cs.dropWhile isSpace).rtakeWhile isSpace = cs.dropWhile isSpace :=
    List.rdropWhile_append_rtakeWhile
  conv_rhs => rw [← hstart, ← hend]
  rw [collapse_skip_append, collapse_append_skip]
  · exact fun c hc => isWordChar_of_isSpace (List.mem_rtakeWhile_imp hc)
  · exact fun c hc => isWordChar_of_isSpace (List.mem_takeWhile_imp hc)

/-- Before it is cut, the value is the words of the name. -/
theorem collapsedForm_eq (name : AsciiName) : collapsedForm name = collapsed name.text := by
  rw [collapsedForm, stripHyphens_replaceOthers, collapse_trim]
  rfl

/-- The server takes the suggestion, if it is long enough to be a slug, and would
make the same one where nothing has to be cut. -/
def Agrees (name : AsciiName) : Prop :=
  (Text.charCount (suggestion name) < 2 ∨ validateSlug (suggestion name) = .ok ()) ∧
    ((collapsedForm name).length ≤ 50 → suggestion name = slugify name.text)

/-- Some of the words of the name, from the first one on and joined by hyphens, have
49 characters, and there is another word after them. -/
def CutsBehindHyphen (name : AsciiName) : Prop :=
  ∃ before w after, words isWordChar (toLowerCase name) = before ++ w :: after ∧
    (['-'].intercalate before).length = 49

theorem cutsBehindHyphen_iff (name : AsciiName) :
    CutsBehindHyphen name ↔ (collapsedForm name)[49]? = some '-' := by
  have hwords : ∀ w ∈ words isWordChar (toLowerCase name), '-' ∉ w := by
    intro w hw hmem
    have hkept := kept_of_mem_words hw '-' hmem
    rw [hyphen_separates] at hkept
    cases hkept
  rw [collapsedForm_eq, collapsed, collapse_eq_intercalate, ← toLowerCase,
    getElem?_intercalate hwords]
  constructor
  · rintro ⟨before, w, after, heq, hlen⟩
    refine ⟨before, w, after, heq, ?_, hlen⟩
    rintro rfl
    cases hlen
  · rintro ⟨before, w, after, heq, -, hlen⟩
    exact ⟨before, w, after, heq, hlen⟩

theorem joined_collapsedForm (name : AsciiName) : Joined isWordChar '-' (collapsedForm name) := by
  rw [collapsedForm_eq]
  exact joined_collapse _

theorem toList_suggestion (name : AsciiName) :
    (suggestion name).toList = (collapsedForm name).take 50 := String.toList_ofList

/-- A suggestion that ends with a hyphen is refused. -/
theorem not_agrees {name : AsciiName} (h : (collapsedForm name)[49]? = some '-') :
    ¬ Agrees name := by
  obtain ⟨hlen, -⟩ := List.getElem?_eq_some_iff.mp h
  have hlast : (suggestion name).toList.getLast? = some '-' := by
    rw [toList_suggestion, List.getLast?_take, if_neg (by decide), h]
    rfl
  rintro ⟨hshort | hvalid, -⟩
  · rw [Text.charCount, toList_suggestion, List.length_take] at hshort
    omega
  · rw [validateSlug, if_pos (.inr (.inr (.inr (.inr hlast))))] at hvalid
    cases hvalid

/-- A cut anywhere else leaves a slug. -/
theorem sound_suggestion {name : AsciiName} (h : (collapsedForm name)[49]? ≠ some '-') :
    Sound (suggestion name) := by
  have hjoined := joined_collapsedForm name
  have hstart : (suggestion name).toList <+: collapsedForm name := by
    rw [toList_suggestion]
    exact List.take_prefix _ _
  constructor
  · exact fun c hc => hjoined.parts c (hstart.subset hc)
  · rw [Text.charCount, toList_suggestion, List.length_take, slugMaxLen]
    exact Nat.min_le_left 50 _
  · intro hhead
    refine hjoined.head hyphen_separates ?_
    rwa [toList_suggestion, List.head?_take, if_neg (by decide)] at hhead
  · intro hlast
    rw [toList_suggestion, List.getLast?_take, if_neg (by decide)] at hlast
    cases hcut : (collapsedForm name)[49]? with
    | none =>
      rw [hcut, Option.none_or] at hlast
      exact hjoined.last hyphen_separates hlast
    | some c =>
      rw [hcut, Option.some_or] at hlast
      exact h (hcut.trans hlast)
  · exact fun hdouble => hjoined.single hyphen_separates (hdouble.trans hstart.isInfix)

theorem suggestion_eq_slugify {name : AsciiName} (h : (collapsedForm name).length ≤ 50) :
    suggestion name = slugify name.text := by
  rw [suggestion, List.take_of_length_le h, collapsedForm_eq]
  rw [collapsedForm_eq] at h
  exact (slugify_eq h).symm

/-- The browser's suggestion is acceptable unless it is cut right behind a hyphen. -/
theorem agrees_iff (name : AsciiName) : Agrees name ↔ ¬ CutsBehindHyphen name := by
  rw [cutsBehindHyphen_iff]
  constructor
  · exact fun hagrees hcut => not_agrees hcut hagrees
  · intro huncut
    refine ⟨?_, suggestion_eq_slugify⟩
    rcases Nat.lt_or_ge (Text.charCount (suggestion name)) 2 with hshort | hlong
    · exact .inl hshort
    · exact .inr ((sound_suggestion huncut).accepted hlong)

/-- A word of 49 letters, a space and one more letter. -/
def Sample.name : AsciiName where
  text := String.ofList (List.replicate 49 'a' ++ [' ', 'b'])
  ascii := by
    have hall : ((List.replicate 49 'a' ++ [' ', 'b']).all fun c => c.toNat < 128) = true := by decide
    rw [String.toList_ofList]
    exact List.all_iff_forall_prop.mp hall

theorem suggestion_ends_with_hyphen : ¬ ∀ name : AsciiName, Agrees name := by
  intro h
  have hname : Sample.name.text.toList = List.replicate 49 'a' ++ [' ', 'b'] := String.toList_ofList
  refine not_agrees ?_ (h Sample.name)
  rw [collapsedForm, toLowerCase, hname]
  decide

end Zbierak.SlugSuggestion
