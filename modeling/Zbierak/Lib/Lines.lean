import Mathlib.Data.List.Basic

/-!
# Texts joined by a separator

Texts that are joined by a separator which they may contain themselves. The
joint text tells the pieces between the separators, and nothing else.
-/
namespace Lines

variable {α : Type} [BEq α] [LawfulBEq α] {sep : α} {texts others : List (List α)}

/-- The pieces of the texts, in order. -/
def pieces (sep : α) (texts : List (List α)) : List (List α) := texts.flatMap (List.splitOn sep)

theorem splitOn_intercalate (h : texts ≠ []) :
    ([sep].intercalate texts).splitOn sep = pieces sep texts := by
  induction texts with
  | nil => exact absurd rfl h
  | cons text texts ih =>
    cases texts with
    | nil => simp [pieces]
    | cons next texts =>
      rw [List.intercalate_cons_cons, List.append_assoc, List.singleton_append,
        List.splitOn_append_cons_self, ih (List.cons_ne_nil _ _)]
      rfl

/-- Joint texts are equal when their pieces are, and only then. -/
theorem intercalate_eq_iff (h : texts ≠ []) (h' : others ≠ []) :
    [sep].intercalate texts = [sep].intercalate others ↔ pieces sep texts = pieces sep others := by
  constructor
  · intro heq
    rw [← splitOn_intercalate h, ← splitOn_intercalate h', heq]
  · intro heq
    have hjoin : ∀ xs : List α, [sep].intercalate (xs.splitOn sep) = xs := fun xs =>
      List.intercalate_splitOn sep
    rw [← hjoin ([sep].intercalate texts), splitOn_intercalate h, heq, ← splitOn_intercalate h',
      hjoin]

/-- Texts without the separator are their own pieces. -/
theorem pieces_of_not_mem (h : ∀ text ∈ texts, sep ∉ text) : pieces sep texts = texts := by
  induction texts with
  | nil => rfl
  | cons text texts ih =>
    rw [pieces, List.flatMap_cons, List.splitOn_eq_singleton (h text List.mem_cons_self)]
    exact congrArg (text :: ·) (ih fun t ht => h t (List.mem_cons_of_mem text ht))

section Pieces

variable {p : α → Bool} {text piece : List α}

omit [BEq α] [LawfulBEq α]

/-- A piece stands in the text, and has no separator in it. -/
theorem infix_of_mem_splitOnP (h : piece ∈ text.splitOnP p) : piece <:+: text := by
  suffices hmore : (∃ first rest, text.splitOnP p = first :: rest ∧ first <+: text) ∧
      ∀ piece ∈ text.splitOnP p, piece <:+: text from hmore.2 piece h
  clear h
  induction text with
  | nil => simp
  | cons x text ih =>
    obtain ⟨⟨first, rest, heq, hfirst⟩, hall⟩ := ih
    rw [List.splitOnP_cons_eq_if_modifyHead]
    split
    · refine ⟨⟨[], _, rfl, List.nil_prefix⟩, List.forall_mem_cons.mpr ⟨List.nil_infix, ?_⟩⟩
      exact fun piece hpiece => (hall piece hpiece).trans (List.suffix_cons x text).isInfix
    · rw [heq, List.modifyHead_cons]
      rw [heq, List.forall_mem_cons] at hall
      have hcons : x :: first <+: x :: text := List.cons_prefix_cons.mpr ⟨rfl, hfirst⟩
      refine ⟨⟨_, rest, rfl, hcons⟩, List.forall_mem_cons.mpr ⟨hcons.isInfix, ?_⟩⟩
      exact fun piece hpiece => (hall.2 piece hpiece).trans (List.suffix_cons x text).isInfix

end Pieces

end Lines
