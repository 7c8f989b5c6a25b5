import Zbierak.Lib.Window
import Mathlib.Data.List.Chain
import Mathlib.Data.List.TakeWhile

/-!
# Fixed windows against the sliding bound

Instants fall into windows: one window starts with the first instant that comes
when the window before is over. A limit for each window bounds every span only
where the start of a window keeps its distance from the end of the one before.
-/
namespace FixedWindow

/-- The windows of instants in order. -/
def windows (span : Nat) : List Nat → List (List Nat)
  | [] => []
  | t :: ts =>
    (t :: ts.takeWhile (· < t + span)) :: windows span (ts.dropWhile (· < t + span))
  termination_by l => l.length
  decreasing_by exact Nat.lt_succ_of_le (List.dropWhile_suffix _).length_le

/-- When one of the first `max` instants of a window comes, those of the window
before that are younger than the span leave room for it. -/
def LeavesRoom (max span : Nat) (w v : List Nat) : Prop :=
  ∀ k < max, ∀ t ∈ v[k]?, w.countP (fun a => t < a + span) + k < max

def Spaced (max span : Nat) (instants : List Nat) : Prop :=
  (windows span instants).IsChain (LeavesRoom max span)

/-- No window starts before the last instant of the one before is over by a span. -/
def Parted (span : Nat) (instants : List Nat) : Prop :=
  (windows span instants).IsChain fun w v => ∀ a ∈ w, ∀ t ∈ v, a + span ≤ t

/-- Some of the instants of a window, no more than the limit. -/
def Burst (max : Nat) (b w : List Nat) : Prop := b.Sublist w ∧ b.length ≤ max

variable {max span : Nat} {instants : List Nat}

theorem Parted.spaced (h : Parted span instants) : Spaced max span instants := by
  refine List.IsChain.imp (fun w v hpair k hk t ht => ?_) h
  have hold : w.countP (fun a => t < a + span) = 0 := List.countP_eq_zero.mpr fun a ha => by
    have := hpair a ha t (List.mem_of_getElem? ht)
    simp only [decide_eq_true_eq]
    omega
  omega

theorem le_of_mem_dropWhile {l : List Nat} (h : l.Pairwise (· ≤ ·)) {bound a : Nat}
    (ha : a ∈ l.dropWhile (· < bound)) : bound ≤ a := by
  induction l with
  | nil => cases ha
  | cons b l ih =>
    obtain ⟨hfirst, hrest⟩ := List.pairwise_cons.mp h
    rw [List.dropWhile_cons] at ha
    split at ha
    · exact ih hrest ha
    · next hb =>
      simp only [decide_eq_true_eq, Nat.not_lt] at hb
      rcases List.mem_cons.mp ha with rfl | ha
      · exact hb
      · exact Nat.le_trans hb (hfirst a ha)

/-- Those that lie before a bound come first. -/
theorem exists_getElem?_lt {l : List Nat} (h : l.Pairwise (· ≤ ·)) {bound k : Nat}
    (hk : k < l.countP (· < bound)) : ∃ t ∈ l[k]?, t < bound := by
  induction l generalizing k with
  | nil => cases hk
  | cons b l ih =>
    obtain ⟨hfirst, hrest⟩ := List.pairwise_cons.mp h
    cases k with
    | zero =>
      obtain ⟨a, ha, hlt⟩ := List.countP_pos_iff.mp hk
      simp only [decide_eq_true_eq] at hlt
      refine ⟨b, rfl, ?_⟩
      rcases List.mem_cons.mp ha with rfl | ha
      · exact hlt
      · exact Nat.lt_of_le_of_lt (hfirst a ha) hlt
    | succ k =>
      refine ih hrest ?_
      have hone := List.countP_cons (p := fun x => decide (x < bound)) (a := b) (l := l)
      split at hone <;> omega

theorem le_of_mem_take {l : List Nat} (h : l.Pairwise (· ≤ ·)) {k t a : Nat} (ht : t ∈ l[k]?)
    (ha : a ∈ l.take (k + 1)) : a ≤ t := by
  obtain ⟨hk, rfl⟩ := List.getElem?_eq_some_iff.mp ht
  obtain ⟨i, hi, rfl⟩ := List.mem_take_iff_getElem.mp ha
  rcases Nat.lt_or_ge i k with hlt | hge
  · exact List.pairwise_iff_getElem.mp h i k _ hk hlt
  · obtain rfl : i = k := by omega
    exact Nat.le_refl _

/-- The instants up to the one at an index. -/
theorem firsts_between {s t k : Nat} {v : List Nat} (h : (s :: v).Pairwise (· ≤ ·))
    (ht : t ∈ (s :: v)[k]?) :
    (s :: v.take k).length = k + 1 ∧ ∀ b ∈ s :: v.take k, s ≤ b ∧ b ≤ t := by
  constructor
  · obtain ⟨hlt, -⟩ := List.getElem?_eq_some_iff.mp ht
    rw [List.length_cons, List.length_take]
    rw [List.length_cons] at hlt
    omega
  · intro b hb
    refine ⟨?_, le_of_mem_take h ht hb⟩
    rcases List.mem_cons.mp hb with rfl | hb
    · exact Nat.le_refl b
    · exact (List.pairwise_cons.mp h).1 b (List.mem_of_mem_take hb)

theorem mem_flatten_windows (span : Nat) (instants : List Nat) {a : Nat}
    (ha : a ∈ (windows span instants).flatten) : a ∈ instants := by
  induction instants using windows.induct span with
  | case1 => simp [windows] at ha
  | case2 t ts ih =>
    rw [windows, List.flatten_cons, List.cons_append] at ha
    rcases List.mem_cons.mp ha with rfl | ha
    · exact List.mem_cons_self
    · refine List.mem_cons_of_mem t ?_
      rcases List.mem_append.mp ha with ha | ha
      · exact (List.takeWhile_prefix _).subset ha
      · exact (List.dropWhile_suffix _).subset (ih ha)

theorem bursts_flatten {bs ws : List (List Nat)} (h : List.Forall₂ (Burst max) bs ws) :
    bs.flatten.Sublist ws.flatten := by
  induction h with
  | nil => exact List.Sublist.refl _
  | cons hb _ ih =>
    rw [List.flatten_cons, List.flatten_cons]
    exact hb.1.append ih

/-- The number of instants from `start` on and before `start + span`. -/
def inSpan (start : Int) (span : Nat) (l : List Nat) : Nat :=
  l.countP fun a : Nat => Window.within start span a

theorem inSpan_append (start : Int) (l m : List Nat) :
    inSpan start span (l ++ m) = inSpan start span l + inSpan start span m := List.countP_append

theorem inSpan_le_length (start : Int) (span : Nat) (l : List Nat) : inSpan start span l ≤ l.length :=
  List.countP_le_length

theorem inSpan_eq_zero {start : Int} {l : List Nat} (h : ∀ a ∈ l, start + span ≤ (a : Int)) :
    inSpan start span l = 0 := by
  refine List.countP_eq_zero.mpr fun a ha => ?_
  have := h a ha
  simp only [Window.within, decide_eq_true_eq]
  omega

theorem inSpan_eq_length {start : Int} {l : List Nat}
    (h : ∀ a ∈ l, start ≤ (a : Int) ∧ (a : Int) < start + span) : inSpan start span l = l.length :=
  List.countP_eq_length.mpr fun a ha => decide_eq_true (h a ha)

/-- The bursts of two windows that follow each other. -/
theorem inSpan_pair_le {b c w v : List Nat} (start : Int) (hb : Burst max b w) (hc : Burst max c v)
    (hv : v.Pairwise (· ≤ ·)) (hroom : LeavesRoom max span w v) :
    inSpan start span b + inSpan start span c ≤ max := by
  by_cases hnone : inSpan start span b = 0
  · rw [hnone, Nat.zero_add]
    exact Nat.le_trans (inSpan_le_length start span c) hc.2
  -- Some instant of the first burst counts, so what counts of the second comes soon.
  obtain ⟨a, ha, hin⟩ := List.countP_pos_iff.mp (Nat.pos_of_ne_zero hnone)
  simp only [Window.within, decide_eq_true_eq] at hin
  have hearly : inSpan start span c ≤ v.countP (· < (start + span).toNat) := by
    refine Nat.le_trans (List.countP_mono_left fun t _ ht => ?_) hc.1.countP_le
    simp only [Window.within, decide_eq_true_eq] at ht ⊢
    omega
  have hyoung : ∀ t : Nat, (t : Int) < start + span →
      inSpan start span b ≤ w.countP fun a : Nat => t < a + span := by
    intro t ht
    refine Nat.le_trans (List.countP_mono_left fun x _ hx => ?_) hb.1.countP_le
    simp only [Window.within, decide_eq_true_eq] at hx ⊢
    omega
  have hlen := inSpan_le_length start span b
  have hblen := hb.2
  have hclen := Nat.le_trans (inSpan_le_length start span c) hc.2
  rcases Nat.eq_zero_or_pos (inSpan start span c) with hzero | hpos
  · omega
  · have hk : inSpan start span c - 1 < v.countP (· < (start + span).toNat) := by omega
    obtain ⟨t, ht, hlt⟩ := exists_getElem?_lt hv hk
    have := hroom _ (by omega) t ht
    have := hyoung t (by omega)
    omega

/-- Bursts of at most `max` instants, one for each window, meet the bound. -/
theorem inSpan_bursts_le (hsorted : instants.Pairwise (· ≤ ·)) (hspaced : Spaced max span instants)
    {bs : List (List Nat)} (hbursts : List.Forall₂ (Burst max) bs (windows span instants))
    (start : Int) : inSpan start span bs.flatten ≤ max := by
  induction instants using windows.induct span generalizing bs with
  | case1 =>
    rw [windows] at hbursts
    cases hbursts
    exact Nat.zero_le max
  | case2 t ts ih =>
    obtain ⟨hfirst, hrest⟩ := List.pairwise_cons.mp hsorted
    have hlater := hrest.sublist (List.dropWhile_sublist (l := ts) (· < t + span))
    rw [Spaced, windows] at hspaced
    rw [windows] at hbursts
    obtain ⟨b, rest, hb, htail, rfl⟩ := List.forall₂_cons_right_iff.mp hbursts
    have ih := ih hlater (List.isChain_cons.mp hspaced).2 htail
    rw [List.flatten_cons, inSpan_append]
    by_cases hnone : inSpan start span b = 0
    · omega
    obtain ⟨a, ha, hin⟩ := List.countP_pos_iff.mp (Nat.pos_of_ne_zero hnone)
    simp only [Window.within, decide_eq_true_eq] at hin
    have hafter : a ≤ t + span := by
      rcases List.mem_cons.mp (hb.1.subset ha) with rfl | ha
      · omega
      · have := List.mem_takeWhile_imp ha
        simp only [decide_eq_true_eq] at this
        omega
    cases hnext : ts.dropWhile (· < t + span) with
    | nil =>
      rw [hnext, windows] at htail
      cases htail
      exact Nat.le_trans (inSpan_le_length start span b) hb.2
    | cons s ss =>
      rw [hnext] at htail hlater hspaced
      have hs : t + span ≤ s := le_of_mem_dropWhile hrest (hnext ▸ List.mem_cons_self)
      rw [windows] at htail hspaced
      obtain ⟨c, others, hc, hothers, rfl⟩ := List.forall₂_cons_right_iff.mp htail
      -- The window after the next one starts too late.
      have hnothing : inSpan start span others.flatten = 0 := by
        refine inSpan_eq_zero fun x hx => ?_
        have hx := mem_flatten_windows span _ ((bursts_flatten hothers).subset hx)
        have := le_of_mem_dropWhile (List.pairwise_cons.mp hlater).2 hx
        omega
      have hroom := (List.isChain_cons.mp hspaced).1 _ rfl
      have hv : (s :: ss.takeWhile (· < s + span)).Pairwise (· ≤ ·) :=
        hlater.sublist ((List.takeWhile_sublist _).cons_cons s)
      have := inSpan_pair_le start hb hc hv hroom
      rw [List.flatten_cons, inSpan_append, hnothing]
      exact this

end FixedWindow
