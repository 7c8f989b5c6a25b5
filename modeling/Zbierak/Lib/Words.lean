import Mathlib.Data.List.Basic

/-!
# Words joined by single separators

A sequence has words, its maximal runs of kept elements; everything between two
words counts as one separator.
-/
namespace Words

variable {α : Type} (kept : α → Bool) (sep : α)

def words (cs : List α) : List (List α) := (cs.splitOnP fun c => !kept c).filter fun w => !w.isEmpty

/-- The kept elements in one pass, with a separator wherever something else stood
between two of them. `started` is set by the first of them, `pending` by anything
skipped since the last. -/
def collapse : Bool → Bool → List α → List α
  | _, _, [] => []
  | started, pending, c :: cs =>
    if kept c then (if started && pending then [sep, c] else [c]) ++ collapse true false cs
    else collapse started true cs

/-- What may follow a kept element: more of them, each behind at most one separator. -/
inductive Rest : List α → Prop where
  | nil : Rest []
  | next {c : α} {cs : List α} : kept c = true → Rest cs → Rest (c :: cs)
  | word {c : α} {cs : List α} : kept c = true → Rest cs → Rest (sep :: c :: cs)

/-- Words with single separators between them. -/
inductive Joined : List α → Prop where
  | nil : Joined []
  | cons {c : α} {cs : List α} : kept c = true → Rest kept sep cs → Joined (c :: cs)

variable {kept} {sep} {cs ds : List α} {c : α} {started pending : Bool}

theorem Rest.append (h : Rest kept sep cs) (h' : Rest kept sep ds) : Rest kept sep (cs ++ ds) := by
  induction h with
  | nil => exact h'
  | next hc _ ih => exact .next hc ih
  | word hc _ ih => exact .word hc ih

theorem Joined.push (h : Joined kept sep cs) (hc : kept c = true) : Joined kept sep (cs ++ [c]) := by
  cases h with
  | nil => exact .cons hc .nil
  | cons hd hrest => exact .cons hd (hrest.append (.next hc .nil))

theorem Joined.pushWord (h : Joined kept sep cs) (hne : cs ≠ []) (hc : kept c = true) :
    Joined kept sep (cs ++ [sep, c]) := by
  cases h with
  | nil => exact absurd rfl hne
  | cons hd hrest => exact .cons hd (hrest.append (.word hc .nil))

theorem Rest.parts (h : Rest kept sep cs) : ∀ c ∈ cs, kept c = true ∨ c = sep := by
  induction h with
  | nil => simp
  | next hc _ ih => exact List.forall_mem_cons.mpr ⟨.inl hc, ih⟩
  | word hc _ ih =>
    exact List.forall_mem_cons.mpr ⟨.inr rfl, List.forall_mem_cons.mpr ⟨.inl hc, ih⟩⟩

theorem Rest.last (h : Rest kept sep cs) (hc : kept c = true) :
    ∀ x, (c :: cs).getLast? = some x → kept x = true := by
  induction h generalizing c with
  | nil =>
    rintro x ⟨⟩
    exact hc
  | next hd _ ih =>
    rw [List.getLast?_cons_cons]
    exact ih hd
  | word hd _ ih =>
    rw [List.getLast?_cons_cons, List.getLast?_cons_cons]
    exact ih hd

section

variable (hsep : kept sep = false)
include hsep

theorem ne_sep (hc : kept c = true) : c ≠ sep := by
  rintro rfl
  rw [hsep] at hc
  cases hc

theorem Rest.single (h : Rest kept sep cs) : ¬ [sep, sep] <:+: cs := by
  induction h with
  | nil => simp
  | next hc _ ih =>
    rw [List.infix_cons_iff, List.cons_prefix_cons]
    rintro (⟨heq, -⟩ | hinfix)
    · exact ne_sep hsep hc heq.symm
    · exact ih hinfix
  | word hc _ ih =>
    rw [List.infix_cons_iff, List.infix_cons_iff, List.cons_prefix_cons, List.cons_prefix_cons,
      List.cons_prefix_cons]
    rintro (⟨-, heq, -⟩ | ⟨heq, -⟩ | hinfix)
    · exact ne_sep hsep hc heq.symm
    · exact ne_sep hsep hc heq.symm
    · exact ih hinfix

theorem Joined.single (h : Joined kept sep cs) : ¬ [sep, sep] <:+: cs := by
  cases h with
  | nil => simp
  | cons hc hrest =>
    rw [List.infix_cons_iff, List.cons_prefix_cons]
    rintro (⟨heq, -⟩ | hinfix)
    · exact ne_sep hsep hc heq.symm
    · exact hrest.single hsep hinfix

theorem Joined.head (h : Joined kept sep cs) : cs.head? ≠ some sep := by
  cases h with
  | nil => simp
  | cons hc _ => simpa using ne_sep hsep hc

theorem Joined.last (h : Joined kept sep cs) : cs.getLast? ≠ some sep := by
  cases h with
  | nil => simp
  | cons hc hrest => exact fun heq => ne_sep hsep (hrest.last hc sep heq) rfl

end

theorem Joined.parts (h : Joined kept sep cs) : ∀ c ∈ cs, kept c = true ∨ c = sep := by
  cases h with
  | nil => simp
  | cons hc hrest => exact List.forall_mem_cons.mpr ⟨.inl hc, hrest.parts⟩

theorem collapse_kept (h : kept c = true) :
    collapse kept sep started pending (c :: cs) =
      (if started && pending then [sep, c] else [c]) ++ collapse kept sep true false cs := if_pos h

theorem collapse_skip (h : kept c = false) :
    collapse kept sep started pending (c :: cs) = collapse kept sep started true cs := by
  rw [collapse, h]
  rfl

/-- Before the first word nothing is pending. -/
theorem collapse_false (pending : Bool) (cs : List α) :
    collapse kept sep false pending cs = collapse kept sep false false cs := by
  cases pending with
  | false => rfl
  | true => cases cs <;> rfl

theorem collapse_skip_append (h : ∀ c ∈ ds, kept c = false) (cs : List α) :
    collapse kept sep false false (ds ++ cs) = collapse kept sep false false cs := by
  induction ds with
  | nil => rfl
  | cons d ds ih =>
    obtain ⟨hd, hds⟩ := List.forall_mem_cons.mp h
    rw [List.cons_append, collapse_skip hd, collapse_false, ih hds]

theorem collapse_append_skip (h : ∀ c ∈ ds, kept c = false) (started pending : Bool)
    (cs : List α) :
    collapse kept sep started pending (cs ++ ds) = collapse kept sep started pending cs := by
  induction cs generalizing started pending with
  | nil =>
    induction ds generalizing pending with
    | nil => rfl
    | cons d ds ih =>
      obtain ⟨hd, hds⟩ := List.forall_mem_cons.mp h
      rw [List.nil_append, collapse_skip hd]
      exact ih hds true
  | cons c cs ih =>
    rw [List.cons_append, collapse, collapse, ih, ih]

theorem rest_collapse (pending : Bool) (cs : List α) :
    Rest kept sep (collapse kept sep true pending cs) := by
  induction cs generalizing pending with
  | nil => exact .nil
  | cons c cs ih =>
    cases hc : kept c with
    | false => exact collapse_skip hc ▸ ih true
    | true =>
      rw [collapse_kept hc]
      cases pending with
      | false => exact .next hc (ih false)
      | true => exact .word hc (ih false)

theorem joined_collapse (cs : List α) : Joined kept sep (collapse kept sep false false cs) := by
  induction cs with
  | nil => exact .nil
  | cons c cs ih =>
    cases hc : kept c with
    | false =>
      rw [collapse_skip hc, collapse_false]
      exact ih
    | true => exact collapse_kept hc ▸ .cons hc (rest_collapse false cs)

theorem collapse_rest (hsep : kept sep = false) (h : Rest kept sep cs) :
    collapse kept sep true false cs = cs := by
  induction h with
  | nil => rfl
  | next hc _ ih =>
    rw [collapse_kept hc, ih]
    rfl
  | word hc _ ih =>
    rw [collapse_skip hsep, collapse_kept hc, ih]
    rfl

/-- What is joined already stays as it is. -/
theorem collapse_joined (hsep : kept sep = false) (h : Joined kept sep cs) :
    collapse kept sep false false cs = cs := by
  cases h with
  | nil => rfl
  | cons hc hrest =>
    rw [collapse_kept hc, collapse_rest hsep hrest]
    rfl

theorem intercalate_cons (w : List α) (ws : List (List α)) :
    [sep].intercalate (w :: ws) = w ++ ws.flatMap (sep :: ·) := by
  induction ws generalizing w with
  | nil => simp
  | cons w' ws ih =>
    rw [List.intercalate_cons_cons, ih]
    simp

/-- One pass leaves the words, joined. -/
theorem collapse_eq_intercalate (kept : α → Bool) (sep : α) (cs : List α) :
    collapse kept sep false false cs = [sep].intercalate (words kept cs) := by
  suffices h : ∃ first rest, (cs.splitOnP fun c => !kept c) = first :: rest ∧
      collapse kept sep true false cs =
        first ++ (rest.filter fun w => !w.isEmpty).flatMap (sep :: ·) ∧
      collapse kept sep true true cs =
        ((first :: rest).filter fun w => !w.isEmpty).flatMap (sep :: ·) ∧
      collapse kept sep false false cs =
        [sep].intercalate ((first :: rest).filter fun w => !w.isEmpty) by
    obtain ⟨first, rest, hsplit, -, -, hcollapse⟩ := h
    rw [words, hsplit, hcollapse]
  induction cs with
  | nil => exact ⟨[], [], by simp, rfl, rfl, rfl⟩
  | cons c cs ih =>
    obtain ⟨first, rest, hsplit, hnone, hpending, hstart⟩ := ih
    rw [List.splitOnP_cons_eq_if_modifyHead, hsplit]
    cases hc : kept c with
    | false =>
      refine ⟨[], first :: rest, rfl, ?_, ?_, ?_⟩
      · rw [collapse_skip hc, hpending, List.nil_append]
      · rw [collapse_skip hc, hpending]
        rfl
      · rw [collapse_skip hc, collapse_false, hstart]
        rfl
    | true =>
      refine ⟨c :: first, rest, rfl, ?_, ?_, ?_⟩
      · rw [collapse_kept hc, hnone]
        rfl
      · rw [collapse_kept hc, hnone]
        simp
      · rw [collapse_kept hc, hnone, List.filter_cons_of_pos rfl, intercalate_cons]
        rfl

theorem kept_of_mem_words {w : List α} (h : w ∈ words kept cs) : ∀ c ∈ w, kept c = true := by
  suffices hpieces : ∀ w ∈ cs.splitOnP fun c => !kept c, ∀ c ∈ w, kept c = true from
    hpieces w (List.mem_filter.mp h).1
  clear h
  induction cs with
  | nil => simp
  | cons c cs ih =>
    rw [List.splitOnP_cons_eq_if_modifyHead]
    cases hc : kept c with
    | false => exact List.forall_mem_cons.mpr ⟨by simp, ih⟩
    | true =>
      cases hsplit : cs.splitOnP fun c => !kept c with
      | nil => exact absurd hsplit (List.splitOnP_ne_nil _ _)
      | cons first rest =>
        obtain ⟨hfirst, hrest⟩ := List.forall_mem_cons.mp (hsplit ▸ ih)
        exact List.forall_mem_cons.mpr ⟨List.forall_mem_cons.mpr ⟨hc, hfirst⟩, hrest⟩

theorem getElem?_flatMap {ws : List (List α)} (h : ∀ w ∈ ws, sep ∉ w) (n : Nat) :
    (ws.flatMap (sep :: ·))[n]? = some sep ↔
      ∃ before w after, ws = before ++ w :: after ∧ (before.flatMap (sep :: ·)).length = n := by
  induction ws generalizing n with
  | nil => simp
  | cons w ws ih =>
    obtain ⟨hw, hws⟩ := List.forall_mem_cons.mp h
    rw [List.flatMap_cons]
    constructor
    · intro hsep
      rcases Nat.lt_or_ge n (sep :: w).length with hlt | hge
      · rw [List.getElem?_append_left hlt] at hsep
        cases n with
        | zero => exact ⟨[], w, ws, rfl, rfl⟩
        | succ n =>
          rw [List.getElem?_cons_succ] at hsep
          exact absurd (List.mem_of_getElem? hsep) hw
      · rw [List.getElem?_append_right hge, ih hws] at hsep
        obtain ⟨before, w', after, rfl, hlen⟩ := hsep
        refine ⟨w :: before, w', after, rfl, ?_⟩
        rw [List.flatMap_cons, List.length_append, hlen, Nat.add_sub_cancel' hge]
    · rintro ⟨before, w', after, heq, rfl⟩
      cases before with
      | nil => rfl
      | cons b before =>
        obtain ⟨rfl, rfl⟩ : w = b ∧ ws = before ++ w' :: after := by simpa using heq
        rw [List.flatMap_cons, List.length_append, List.getElem?_append_right (Nat.le_add_right _ _),
          Nat.add_sub_cancel_left, ih hws]
        exact ⟨before, w', after, rfl, rfl⟩

/-- In joined words a separator stands right after some of the words, if not after
all of them. -/
theorem getElem?_intercalate {ws : List (List α)} (h : ∀ w ∈ ws, sep ∉ w) (n : Nat) :
    ([sep].intercalate ws)[n]? = some sep ↔
      ∃ before w after, ws = before ++ w :: after ∧ before ≠ [] ∧
        ([sep].intercalate before).length = n := by
  cases ws with
  | nil => simp
  | cons w ws =>
    obtain ⟨hw, hws⟩ := List.forall_mem_cons.mp h
    rw [intercalate_cons]
    constructor
    · intro hsep
      rcases Nat.lt_or_ge n w.length with hlt | hge
      · rw [List.getElem?_append_left hlt] at hsep
        exact absurd (List.mem_of_getElem? hsep) hw
      · rw [List.getElem?_append_right hge, getElem?_flatMap hws] at hsep
        obtain ⟨before, w', after, rfl, hlen⟩ := hsep
        refine ⟨w :: before, w', after, rfl, List.cons_ne_nil _ _, ?_⟩
        rw [intercalate_cons, List.length_append, hlen, Nat.add_sub_cancel' hge]
    · rintro ⟨before, w', after, heq, hne, rfl⟩
      cases before with
      | nil => exact absurd rfl hne
      | cons b before =>
        obtain ⟨rfl, rfl⟩ : w = b ∧ ws = before ++ w' :: after := by simpa using heq
        rw [intercalate_cons, List.length_append, List.getElem?_append_right (Nat.le_add_right _ _),
          Nat.add_sub_cancel_left, getElem?_flatMap hws]
        exact ⟨before, w', after, rfl, rfl⟩

end Words
