import Mathlib.Data.List.Sort

/-!
# Reading a result page by page

A query with an ordering may answer its rows in any order that is sorted, and may
choose another one the next time. A reader asks for windows of fixed size until
one is empty. The walk lists every row once exactly when no boundary between two
windows falls among rows that the ordering does not tell apart.
-/
namespace Paging

variable {α : Type}

/-- Reading windows from an offset on until one is empty lists these rows. -/
inductive Browse (page : Nat → List α) (limit : Nat) : Nat → List α → Prop
  | done {offset : Nat} (h : page offset = []) : Browse page limit offset []
  | more {offset : Nat} {rest : List α} (h : page offset ≠ [])
      (hrest : Browse page limit (offset + limit) rest) :
      Browse page limit offset (page offset ++ rest)

/-- A possible answer of a query for these rows. -/
structure Answer (le : α → α → Prop) (rows answer : List α) : Prop where
  perm : answer.Perm rows
  sorted : answer.Pairwise le

/-- Every window is taken from an answer of its own. -/
def Windows (le : α → α → Prop) (rows : List α) (limit : Nat) (page : Nat → List α) : Prop :=
  ∀ offset, ∃ answer, Answer le rows answer ∧ page offset = (answer.drop offset).take limit

theorem Browse.unique {page : Nat → List α} {limit offset : Nat} {listed listed' : List α}
    (h : Browse page limit offset listed) (h' : Browse page limit offset listed') :
    listed = listed' := by
  induction h generalizing listed' with
  | done h =>
    cases h' with
    | done => rfl
    | more hne => exact absurd h hne
  | more hne _ ih =>
    cases h' with
    | done h => exact absurd h hne
    | more _ hrest => rw [ih hrest]

theorem window_eq_nil {answer : List α} {offset limit : Nat} (hlimit : 0 < limit) :
    (answer.drop offset).take limit = [] ↔ answer.length ≤ offset := by
  rw [List.take_eq_nil_iff, List.drop_eq_nil_iff]
  omega

/-- The walk ends, whatever the answers are. -/
theorem Windows.browse {le : α → α → Prop} {rows : List α} {limit : Nat} {page : Nat → List α}
    (h : Windows le rows limit page) (hlimit : 0 < limit) (offset : Nat) :
    ∃ listed, Browse page limit offset listed := by
  by_cases hend : rows.length ≤ offset
  · obtain ⟨answer, hanswer, hpage⟩ := h offset
    refine ⟨[], .done ?_⟩
    rw [hpage, window_eq_nil hlimit, hanswer.perm.length_eq]
    exact hend
  · obtain ⟨answer, hanswer, hpage⟩ := h offset
    obtain ⟨rest, hrest⟩ := h.browse hlimit (offset + limit)
    refine ⟨_, .more ?_ hrest⟩
    rw [hpage, ne_eq, window_eq_nil hlimit, hanswer.perm.length_eq]
    exact hend
termination_by rows.length - offset

/-- Windows of one list give back the list. -/
theorem browse_drop {page : Nat → List α} {limit : Nat} (hlimit : 0 < limit) (answer : List α)
    (offset : Nat)
    (hpage : ∀ other, offset ≤ other → page other = (answer.drop other).take limit) :
    Browse page limit offset (answer.drop offset) := by
  have hhere := hpage offset (Nat.le_refl _)
  by_cases hend : answer.length ≤ offset
  · rw [List.drop_of_length_le hend]
    exact .done (by rwa [hhere, window_eq_nil hlimit])
  · have hrest := browse_drop hlimit answer (offset + limit) fun other hother =>
      hpage other (by omega)
    have hsplit : answer.drop offset = page offset ++ answer.drop (offset + limit) := by
      rw [hhere, ← List.drop_drop, List.take_append_drop]
    rw [hsplit]
    exact .more (by rwa [hhere, ne_eq, window_eq_nil hlimit]) hrest
termination_by answer.length - offset

/-- Windows of one list up to an offset, and what the rest of the walk lists. -/
theorem browse_prefix {page : Nat → List α} {limit : Nat} (hlimit : 0 < limit) (answer : List α)
    (n offset : Nat) (hlen : offset + n * limit ≤ answer.length)
    (hpage : ∀ other, other < offset + n * limit → page other = (answer.drop other).take limit)
    {rest : List α} (hrest : Browse page limit (offset + n * limit) rest) :
    Browse page limit offset ((answer.drop offset).take (n * limit) ++ rest) := by
  induction n generalizing offset with
  | zero => simpa using hrest
  | succ n ih =>
    have hstep : offset + (n + 1) * limit = offset + limit + n * limit := by
      rw [Nat.add_mul]
      omega
    rw [hstep] at hlen hpage hrest
    have hnext := ih (offset + limit) hlen hpage hrest
    have hhere := hpage offset (by omega)
    have hsplit : (answer.drop offset).take ((n + 1) * limit) =
        page offset ++ (answer.drop (offset + limit)).take (n * limit) := by
      rw [hhere, Nat.add_mul, Nat.one_mul, Nat.add_comm, List.take_add, List.drop_drop]
    rw [hsplit, List.append_assoc]
    exact .more (by rw [hhere, ne_eq, window_eq_nil hlimit]; omega) hnext

/-- An order of the images is the image of an order. -/
theorem exists_map_of_perm {β : Type} {f : α → β} {ys zs : List β} (h : ys.Perm zs) {xs : List α}
    (hxs : zs = xs.map f) : ∃ l : List α, l.Perm xs ∧ l.map f = ys := by
  induction h generalizing xs with
  | nil =>
    obtain rfl := List.map_eq_nil_iff.mp hxs.symm
    exact ⟨[], .refl _, rfl⟩
  | cons y _ ih =>
    obtain ⟨x, xs, rfl, rfl, hrest⟩ := List.map_eq_cons_iff.mp hxs.symm
    obtain ⟨l, hl, rfl⟩ := ih hrest.symm
    exact ⟨x :: l, hl.cons x, rfl⟩
  | swap y z =>
    obtain ⟨x, xs, rfl, rfl, hrest⟩ := List.map_eq_cons_iff.mp hxs.symm
    obtain ⟨x', xs, rfl, rfl, rfl⟩ := List.map_eq_cons_iff.mp hrest
    exact ⟨_, List.Perm.swap x x' xs, rfl⟩
  | trans _ _ ih₁ ih₂ =>
    obtain ⟨l₂, hl₂, hmap⟩ := ih₂ hxs
    obtain ⟨l₁, hl₁, rfl⟩ := ih₁ hmap.symm
    exact ⟨l₁, hl₁.trans hl₂, rfl⟩

section Order

variable (le : α → α → Prop) [DecidableRel le]

/-- How many rows come before this one in every answer. -/
def before (rows : List α) (a : α) : Nat := rows.countP fun b => le b a ∧ ¬ le a b

/-- How many rows come before it or are not told apart from it. -/
def upTo (rows : List α) (a : α) : Nat := rows.countP fun b => le b a

/-- No row has a boundary among the rows it is not told apart from. -/
def Clean (rows : List α) (boundary : Nat) : Prop :=
  ∀ a ∈ rows, ¬ (before le rows a < boundary ∧ boundary < upTo le rows a)

variable {le} {rows : List α}

omit [DecidableRel le] in
/-- What stands before a row in a sorted list, and what stands after it. -/
theorem Answer.around {xs ys : List α} {a : α} (h : Answer le rows (xs ++ a :: ys)) :
    (∀ x ∈ xs, le x a) ∧ (∀ y ∈ ys, le a y) := by
  obtain ⟨-, hright, hcross⟩ := List.pairwise_append.mp h.sorted
  exact ⟨fun x hx => hcross x hx a List.mem_cons_self, (List.pairwise_cons.mp hright).1⟩

theorem before_lt_length {a : α} (ha : a ∈ rows) : before le rows a < rows.length := by
  refine lt_of_le_of_ne List.countP_le_length fun hall => ?_
  have := List.countP_eq_length.mp hall a ha
  simp at this

variable [Std.Total le]

/-- The place of a row in an answer is at least the number of rows before it. -/
theorem Answer.before_le {xs ys : List α} {a : α} (h : Answer le rows (xs ++ a :: ys)) :
    before le rows a ≤ xs.length := by
  have hafter : (a :: ys).countP (fun b => le b a ∧ ¬ le a b) = 0 := by
    rw [List.countP_eq_zero]
    intro y hy
    have hle : le a y := by
      rcases List.mem_cons.mp hy with rfl | hy
      · exact refl_of le y
      · exact h.around.2 y hy
    simp [hle]
  rw [before, ← h.perm.countP_eq, List.countP_append, hafter, Nat.add_zero]
  exact List.countP_le_length

/-- The row is among the ones up to it. -/
theorem Answer.lt_upTo {xs ys : List α} {a : α} (h : Answer le rows (xs ++ a :: ys)) :
    xs.length < upTo le rows a := by
  have hbefore : xs.countP (fun b => le b a) = xs.length := by
    rw [List.countP_eq_length]
    simpa using h.around.1
  have hself : le a a := refl_of le a
  rw [upTo, ← h.perm.countP_eq, List.countP_append, hbefore, List.countP_cons]
  simp [hself]

theorem Answer.before_lt_of_mem_take {answer : List α} (h : Answer le rows answer) {b : Nat} {a : α}
    (ha : a ∈ answer.take b) : before le rows a < b := by
  obtain ⟨xs, ys, hsplit⟩ := List.append_of_mem ha
  have hanswer : answer = xs ++ a :: (ys ++ answer.drop b) := by
    rw [← List.cons_append, ← List.append_assoc, ← hsplit, List.take_append_drop]
  have hlen : xs.length < b := by
    have := congrArg List.length hsplit
    simp only [List.length_take, List.length_append, List.length_cons] at this
    omega
  rw [hanswer] at h
  exact h.before_le.trans_lt hlen

theorem Answer.le_before_of_mem_drop {answer : List α} (h : Answer le rows answer) {b : Nat}
    (hclean : Clean le rows b) {a : α} (ha : a ∈ answer.drop b) : b ≤ before le rows a := by
  obtain ⟨xs, ys, hsplit⟩ := List.append_of_mem ha
  have hlt : b < answer.length := by
    by_contra hge
    rw [List.drop_of_length_le (Nat.not_lt.mp hge)] at ha
    cases ha
  have hanswer : answer = (answer.take b ++ xs) ++ a :: ys := by
    rw [List.append_assoc, ← hsplit, List.take_append_drop]
  have hlen : b ≤ (answer.take b ++ xs).length := by
    simp only [List.length_append, List.length_take]
    omega
  have hmem : a ∈ rows := h.perm.mem_iff.mp (List.mem_of_mem_drop ha)
  rw [hanswer] at h
  by_contra hbefore
  exact hclean a hmem ⟨Nat.not_le.mp hbefore, hlen.trans_lt h.lt_upTo⟩

/-- Between clean boundaries every answer has the same rows. -/
theorem Answer.window_perm {answer : List α} (h : Answer le rows answer) {b limit : Nat}
    (hb : Clean le rows b) (hnext : Clean le rows (b + limit)) :
    ((answer.drop b).take limit).Perm
      (rows.filter fun a => b ≤ before le rows a ∧ before le rows a < b + limit) := by
  refine List.Perm.trans (List.Perm.of_eq ?_) (h.perm.filter _)
  have hparts : answer = answer.take b ++ ((answer.drop b).take limit ++ answer.drop (b + limit)) := by
    rw [← List.drop_drop, List.take_append_drop, List.take_append_drop]
  have hmid : ∀ a ∈ (answer.drop b).take limit,
      b ≤ before le rows a ∧ before le rows a < b + limit := fun a ha => by
    refine ⟨h.le_before_of_mem_drop hb (List.mem_of_mem_take ha), ?_⟩
    rw [List.take_drop] at ha
    exact h.before_lt_of_mem_take (List.mem_of_mem_drop ha)
  conv => rhs; rw [hparts]
  rw [List.filter_append, List.filter_append]
  have hfirst : (answer.take b).filter
      (fun a => b ≤ before le rows a ∧ before le rows a < b + limit) = [] := by
    rw [List.filter_eq_nil_iff]
    intro a ha
    have := h.before_lt_of_mem_take ha
    simp only [decide_eq_true_eq]
    omega
  have hlast : (answer.drop (b + limit)).filter
      (fun a => b ≤ before le rows a ∧ before le rows a < b + limit) = [] := by
    rw [List.filter_eq_nil_iff]
    intro a ha
    have := h.le_before_of_mem_drop hnext ha
    simp only [decide_eq_true_eq]
    omega
  rw [hfirst, hlast, List.nil_append, List.append_nil, eq_comm, List.filter_eq_self]
  intro a ha
  simpa using hmid a ha

/-- With clean boundaries the walk lists the rows that are left. -/
theorem Windows.listed_perm {limit : Nat} {page : Nat → List α} (h : Windows le rows limit page)
    (hlimit : 0 < limit) {offset : Nat} (hclean : ∀ k, Clean le rows (offset + k * limit))
    {listed : List α} (hlisted : Browse page limit offset listed) :
    listed.Perm (rows.filter fun a => offset ≤ before le rows a) := by
  induction hlisted with
  | @done offset hpage =>
    obtain ⟨answer, hanswer, hwindow⟩ := h offset
    rw [hwindow, window_eq_nil hlimit, hanswer.perm.length_eq] at hpage
    refine List.Perm.of_eq (List.filter_eq_nil_iff.mpr fun a ha => ?_).symm
    have : before le rows a < rows.length := before_lt_length ha
    simp only [decide_eq_true_eq]
    omega
  | @more offset rest _ _ ih =>
    obtain ⟨answer, hanswer, hwindow⟩ := h offset
    have hrest := ih fun k => by
      have := hclean (k + 1)
      rwa [Nat.add_mul, Nat.one_mul, Nat.add_comm (k * limit), ← Nat.add_assoc] at this
    have hpage : ((answer.drop offset).take limit).Perm _ :=
      hanswer.window_perm (by simpa using hclean 0) (by simpa using hclean 1)
    rw [← hwindow] at hpage
    refine (hpage.append hrest).trans ?_
    have hparts := List.filter_append_perm (fun a => before le rows a < offset + limit)
      (rows.filter fun a => offset ≤ before le rows a)
    rw [List.filter_filter, List.filter_filter] at hparts
    refine List.Perm.trans (List.Perm.of_eq ?_) hparts
    congr 1
    · refine List.filter_congr fun a _ => ?_
      rw [← Bool.decide_and]
      exact decide_eq_decide.mpr and_comm
    · refine List.filter_congr fun a _ => ?_
      rw [← decide_not, ← Bool.decide_and, decide_eq_decide]
      omega

variable [IsTrans α le]

/-- A row with fewer rows before it than the place of `x` is not after `x`. -/
theorem Answer.le_of_before_le {xs ys : List α} {x : α} (h : Answer le rows (xs ++ x :: ys)) {a : α}
    (ha : before le rows a ≤ xs.length) : le a x := by
  by_contra hnot
  have hxa : le x a := (total_of le x a).resolve_right hnot
  have hstrict : ∀ y ∈ xs ++ [x], le y a ∧ ¬ le a y := by
    intro y hy
    have hyx : le y x := by
      rcases List.mem_append.mp hy with hy | hy
      · exact h.around.1 y hy
      · exact List.mem_singleton.mp hy ▸ refl_of le y
    exact ⟨trans_of le hyx hxa, fun hay => hnot (trans_of le hay hyx)⟩
  have hcount : xs.length + 1 ≤ before le rows a := by
    have hfirst : (xs ++ [x]).countP (fun y => le y a ∧ ¬ le a y) = (xs ++ [x]).length := by
      rw [List.countP_eq_length]
      simpa using hstrict
    rw [before, ← h.perm.countP_eq, ← List.singleton_append, ← List.append_assoc,
      List.countP_append, hfirst, List.length_append, List.length_singleton]
    exact Nat.le_add_right _ _
  omega

/-- A row with more rows up to it than the place of `x` is not before `x`. -/
theorem Answer.le_of_lt_upTo {xs ys : List α} {x : α} (h : Answer le rows (xs ++ x :: ys)) {a : α}
    (ha : xs.length < upTo le rows a) : le x a := by
  by_contra hnot
  have hnone : (x :: ys).countP (fun y => le y a) = 0 := by
    rw [List.countP_eq_zero]
    intro y hy
    have hxy : le x y := by
      rcases List.mem_cons.mp hy with rfl | hy
      · exact refl_of le y
      · exact h.around.2 y hy
    simpa using fun hya => hnot (trans_of le hxy hya)
  rw [upTo, ← h.perm.countP_eq, List.countP_append, hnone, Nat.add_zero] at ha
  exact absurd List.countP_le_length (Nat.not_le.mpr ha)

/-- A boundary that is not clean falls between two rows that may change places. -/
theorem exists_swap {b : Nat} (hclean : ¬ Clean le rows b) :
    ∃ xs x y ys, xs.length + 1 = b ∧ Answer le rows (xs ++ x :: y :: ys) ∧
      Answer le rows (xs ++ y :: x :: ys) := by
  simp only [Clean, not_forall, not_not] at hclean
  obtain ⟨a, -, hbefore, hupTo⟩ := hclean
  have hanswer : Answer le rows (rows.insertionSort le) :=
    ⟨List.perm_insertionSort le rows, List.pairwise_insertionSort le rows⟩
  generalize rows.insertionSort le = answer at hanswer
  have hlen : b < answer.length := by
    rw [hanswer.perm.length_eq]
    exact hupTo.trans_le List.countP_le_length
  obtain ⟨k, rfl⟩ : ∃ k, b = k + 1 := ⟨b - 1, by omega⟩
  obtain ⟨xs, x, y, ys, rfl, hxs⟩ : ∃ xs x y ys, answer = xs ++ x :: y :: ys ∧ xs.length = k := by
    refine ⟨answer.take k, answer[k], answer[k + 1], answer.drop (k + 2), ?_, by simp; omega⟩
    rw [List.getElem_cons_drop, List.getElem_cons_drop, List.take_append_drop]
  have hax : le a x := hanswer.le_of_before_le (by omega)
  have hya : le y a := by
    have hassoc : xs ++ x :: y :: ys = (xs ++ [x]) ++ y :: ys := by simp
    rw [hassoc] at hanswer
    exact hanswer.le_of_lt_upTo (by simpa [hxs] using hupTo)
  have hyx : le y x := trans_of le hya hax
  refine ⟨xs, x, y, ys, by omega, hanswer, ?_, ?_⟩
  · exact ((List.Perm.swap x y ys).append_left xs).trans hanswer.perm
  · obtain ⟨hxs, htail, hcross⟩ := List.pairwise_append.mp hanswer.sorted
    obtain ⟨hx, hrest⟩ := List.pairwise_cons.mp htail
    obtain ⟨hy, hys⟩ := List.pairwise_cons.mp hrest
    refine List.pairwise_append.mpr ⟨hxs, ?_, fun z hz w hw => hcross z hz w ?_⟩
    · refine List.pairwise_cons.mpr ⟨?_, List.pairwise_cons.mpr ⟨fun w hw => ?_, hys⟩⟩
      · exact List.forall_mem_cons.mpr ⟨hyx, hy⟩
      · exact hx w (List.mem_cons_of_mem y hw)
    · exact (List.Perm.swap x y ys).mem_iff.mp hw

/-- Every walk lists every row once, if and only if all its boundaries are clean. -/
theorem lists_once_iff {limit : Nat} (hlimit : 0 < limit) (hnodup : rows.Nodup) :
    (∀ page, Windows le rows limit page →
      ∃ listed, Browse page limit 0 listed ∧ listed.Perm rows) ↔ ∀ k, Clean le rows (k * limit) := by
  constructor
  · intro h k
    by_contra hclean
    obtain ⟨xs, x, y, ys, hlen, hanswer, hswapped⟩ := exists_swap hclean
    -- The answer changes at the boundary, so that `x` comes twice.
    let page : Nat → List α := fun offset =>
      if offset < k * limit then ((xs ++ x :: y :: ys).drop offset).take limit
      else ((xs ++ y :: x :: ys).drop offset).take limit
    have hwindows : Windows le rows limit page := by
      intro offset
      by_cases hoffset : offset < k * limit
      · exact ⟨_, hanswer, if_pos hoffset⟩
      · exact ⟨_, hswapped, if_neg hoffset⟩
    obtain ⟨listed, hlisted, hperm⟩ := h page hwindows
    have hrest : Browse page limit (0 + k * limit) ((xs ++ y :: x :: ys).drop (0 + k * limit)) :=
      browse_drop hlimit _ _ fun other hother => if_neg (by omega)
    have hwalk := browse_prefix hlimit (xs ++ x :: y :: ys) k 0
      (by simp only [List.length_append, List.length_cons]; omega)
      (fun other hother => if_pos (by omega)) hrest
    obtain rfl := hlisted.unique hwalk
    have hfirst : x ∈ ((xs ++ x :: y :: ys).drop 0).take (k * limit) := by
      rw [List.drop_zero, ← hlen, List.take_append, List.take_of_length_le (by omega)]
      simp
    have hsecond : x ∈ (xs ++ y :: x :: ys).drop (0 + k * limit) := by
      rw [Nat.zero_add, ← hlen, List.drop_append]
      simp
    have hlisted_nodup := hperm.nodup_iff.mpr hnodup
    exact (List.nodup_append.mp hlisted_nodup).2.2 x hfirst x hsecond rfl
  · intro hclean page hwindows
    obtain ⟨listed, hlisted⟩ := hwindows.browse hlimit 0
    have hperm := hwindows.listed_perm hlimit (by simpa using hclean) hlisted
    exact ⟨listed, hlisted, by simpa using hperm⟩

end Order

end Paging
