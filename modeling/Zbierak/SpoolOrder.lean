import Zbierak.Blocking
import Zbierak.Lib.Digits
import Zbierak.Lib.Evict
import Mathlib.Data.String.Basic

/-!
# The order of the spool

Files are listed in the order of their names, and a name starts with the time
and the number of its store call, padded to one width. Meeting the bound keeps
the longest run of the latest names that fits.
-/
namespace Zbierak.SpoolOrder

open Spool Blocking

theorem value_padded (n : Nat) : Nat.ofDigitChars 10 (padded n).toList 0 = n := by
  rw [padded, String.toList_ofList, Nat.ofDigitChars_append, Nat.ofDigitChars_replicate_zero,
    Nat.mul_zero, Nat.ofDigitChars_ten_toDigits]

theorem isDigit_padded {n : Nat} : ∀ c ∈ (padded n).toList, c.isDigit = true := by
  intro c hc
  rw [padded, String.toList_ofList, List.mem_append, List.mem_replicate] at hc
  rcases hc with ⟨-, rfl⟩ | hc
  · rfl
  · exact Nat.isDigit_of_mem_toDigits (by decide) (by decide) hc

theorem length_padded {n : Nat} (h : n < 10 ^ 20) : (padded n).toList.length = 20 := by
  have hle := (Nat.length_toDigits_le_iff (b := 10) (by decide) (by decide)).mpr h
  rw [padded, String.toList_ofList, List.length_append, List.length_replicate]
  omega

theorem padded_lt {n m : Nat} (h : n < m) (hm : m < 10 ^ 20) :
    (padded n).toList < (padded m).toList := by
  refine Digits.lt_of_value_lt ?_ isDigit_padded isDigit_padded ?_
  · rw [length_padded (Nat.lt_trans h hm), length_padded hm]
  · rwa [value_padded, value_padded]

theorem toList_fileName (timestamp sequence : Nat) (uuid : String) :
    (fileName timestamp sequence uuid).toList = (padded timestamp).toList ++
      ('-' :: ((padded sequence).toList ++ ("-" ++ uuid ++ ".json").toList)) := by
  simp [fileName]

/-- Later calls get later names. -/
theorem fileName_lt {t t' s s' : Nat} (uuid uuid' : String) (h : t < t' ∨ t = t' ∧ s < s')
    (ht : t' < 10 ^ 20) (hs : s' < 10 ^ 20) : fileName t s uuid < fileName t' s' uuid' := by
  rw [String.lt_iff_toList_lt, toList_fileName, toList_fileName]
  rcases h with h | ⟨rfl, h⟩
  · refine Digits.append_lt_append ?_ (padded_lt h ht) _ _
    rw [length_padded (Nat.lt_trans h ht), length_padded ht]
  · refine Digits.append_lt_append_left _ (List.cons_lt_cons_iff.mpr (.inr ⟨rfl, ?_⟩))
    refine Digits.append_lt_append ?_ (padded_lt h hs) _ _
    rw [length_padded (Nat.lt_trans h hs), length_padded hs]

/-- No two files have one name. -/
def Distinct (dir : Directory) : Prop := (dir.map File.name).Nodup

/-- In the order of the names, none twice. -/
def InOrder (files : List File) : Prop := files.Pairwise fun f g => f.name < g.name

theorem InOrder.distinct {files : List File} (h : InOrder files) : Distinct files := by
  rw [Distinct, List.Nodup, List.pairwise_map]
  exact List.Pairwise.imp (fun hlt => ne_of_lt hlt) h

theorem Distinct.perm {dir dir' : Directory} (h : Distinct dir) (hperm : dir.Perm dir') :
    Distinct dir' := (hperm.map File.name).nodup_iff.mp h

theorem Distinct.filter {dir : Directory} (h : Distinct dir) (p : File → Bool) :
    Distinct (dir.filter p) := by
  unfold Distinct at *
  exact h.sublist (List.filter_sublist.map File.name)

theorem paths_perm (dir : Directory) : (paths dir).Perm dir := List.perm_insertionSort _ dir

theorem inOrder_paths {dir : Directory} (h : Distinct dir) : InOrder (paths dir) := by
  have hle : (paths dir).Pairwise fun f g => f.name ≤ g.name := by
    have htotal : Std.Total fun f g : File => f.name ≤ g.name := ⟨fun f g => le_total _ _⟩
    have htrans : IsTrans File fun f g => f.name ≤ g.name := ⟨fun _ _ _ hab hbc => le_trans hab hbc⟩
    exact List.pairwise_insertionSort _ dir
  have hne : (paths dir).Pairwise fun f g => f.name ≠ g.name := by
    rw [← List.pairwise_map]
    exact h.perm (paths_perm dir).symm
  exact hle.imp₂ (fun _ _ hle hne => lt_of_le_of_ne hle hne) hne

/-- Files in the order of their names are the listing of every directory that
holds just them. -/
theorem paths_eq {dir : Directory} {files : List File} (h : InOrder files)
    (hperm : files.Perm dir) : paths dir = files := by
  have hdistinct : Distinct dir := h.distinct.perm hperm
  refine List.Perm.eq_of_pairwise (fun f g _ _ hfg hgf => ?_) (inOrder_paths hdistinct) h
    ((paths_perm dir).trans hperm.symm)
  exact absurd (lt_trans hfg hgf) (lt_irrefl _)

/-- Bytes of a file. -/
def weight (file : File) : Nat := file.bytes.length

theorem size_eq (dir : Directory) : size dir = Evict.total weight dir := by
  induction dir with
  | nil => rfl
  | cons f dir ih => rw [size, ih, Evict.total_cons, weight]

theorem size_paths (dir : Directory) : size dir = Evict.total weight (paths dir) := by
  rw [size_eq, Evict.total_perm weight (paths_perm dir).symm]

/-- What is not deleted is the longest suffix that fits. -/
theorem excess_append_fit (maxBytes : Nat) (files : List File) :
    excess maxBytes (Evict.total weight files) files ++ Evict.fit weight maxBytes files = files := by
  induction files with
  | nil => rfl
  | cons f files ih =>
    rw [excess, Evict.fit]
    split
    · rfl
    · have hrest : Evict.total weight (f :: files) - f.bytes.length = Evict.total weight files := by
        rw [Evict.total_cons, weight]
        omega
      rw [hrest, List.cons_append, ih]

theorem remove_all (removed : List File) (dir : Directory) :
    removed.foldl (fun dir f => remove f.name dir) dir =
      dir.filter fun f => removed.all fun g => f.name ≠ g.name := by
  induction removed generalizing dir with
  | nil => simp
  | cons g removed ih =>
    rw [List.foldl_cons, ih, remove, List.filter_filter]
    refine List.filter_congr fun f _ => ?_
    rw [List.all_cons, Bool.and_comm]

theorem filter_removed {removed kept : List File} (h : InOrder (removed ++ kept)) :
    (removed ++ kept).filter (fun f => removed.all fun g => f.name ≠ g.name) = kept := by
  obtain ⟨-, -, hbefore⟩ := List.pairwise_append.mp h
  have hnone : removed.filter (fun f => removed.all fun g => f.name ≠ g.name) = [] := by
    refine List.filter_eq_nil_iff.mpr fun f hf hall => ?_
    simpa using List.all_eq_true.mp hall f hf
  have hall : kept.filter (fun f => removed.all fun g => f.name ≠ g.name) = kept := by
    refine List.filter_eq_self.mpr fun f hf => List.all_eq_true.mpr fun g hg => ?_
    simpa using ne_of_gt (hbefore g hg f hf)
  rw [List.filter_append, hnone, hall, List.nil_append]

/-- The listing after the bound was enforced to its end. -/
theorem paths_enforceBound (maxBytes : Nat) {limit : Nat} {dir : Directory} (h : Distinct dir)
    (hlimit : dir.length ≤ limit) :
    paths (enforceBound maxBytes limit dir) = Evict.fit weight maxBytes (paths dir) := by
  have hsplit := excess_append_fit maxBytes (paths dir)
  rw [← size_paths] at hsplit
  have horder : InOrder (excess maxBytes (size dir) (paths dir) ++
      Evict.fit weight maxBytes (paths dir)) := by
    rw [hsplit]
    exact inOrder_paths h
  have hall : (excess maxBytes (size dir) (paths dir)).take limit =
      excess maxBytes (size dir) (paths dir) := by
    apply List.take_of_length_le
    have hlength := congrArg List.length hsplit
    rw [List.length_append, (paths_perm dir).length_eq] at hlength
    omega
  obtain ⟨-, hfit, hbefore⟩ := List.pairwise_append.mp horder
  refine paths_eq hfit ?_
  rw [enforceBound, hall, remove_all]
  have hkept := filter_removed horder
  rw [hsplit] at hkept
  rw [← hkept]
  exact (paths_perm dir).filter _

theorem Distinct.rename {dir : Directory} (h : Distinct dir) (file : File) :
    Distinct (rename file dir) := by
  have hother : file.name ∉ (dir.filter fun f => f.name ≠ file.name).map File.name := by
    simp
  unfold Spool.rename Distinct
  rw [List.map_append, List.nodup_append]
  refine ⟨h.filter _, by simp, fun name hname other hother' heq => ?_⟩
  simp only [List.map_cons, List.map_nil, List.mem_singleton] at hother'
  rw [heq, hother'] at hname
  exact hother hname

/-- Where a new file stands in the listing. -/
theorem paths_rename {dir : Directory} (h : Distinct dir) (file : File) :
    paths (rename file dir) = paths (dir.filter fun f => f.name < file.name) ++
      file :: paths (dir.filter fun f => file.name < f.name) := by
  apply paths_eq
  · have hmem : ∀ {p : File → Bool} {f : File}, f ∈ paths (dir.filter p) → p f = true :=
      fun hf => (List.mem_filter.mp (mem_paths.mp hf)).2
    refine List.pairwise_append.mpr ⟨inOrder_paths (h.filter _), ?_, ?_⟩
    · refine List.pairwise_cons.mpr ⟨fun f hf => ?_, inOrder_paths (h.filter _)⟩
      simpa using hmem hf
    · intro f hf g hg
      have hlt : f.name < file.name := by simpa using hmem hf
      rcases List.mem_cons.mp hg with rfl | hg
      · exact hlt
      · have hgt : file.name < g.name := by simpa using hmem hg
        exact lt_trans hlt hgt
  · have hlt : (dir.filter fun f => f.name ≠ file.name).filter (fun f => f.name < file.name) =
        dir.filter fun f => f.name < file.name := by
      rw [List.filter_filter]
      refine List.filter_congr fun f _ => ?_
      rw [Bool.eq_iff_iff, Bool.and_eq_true, decide_eq_true_eq, decide_eq_true_eq]
      exact ⟨fun h => h.1, fun h => ⟨h, ne_of_lt h⟩⟩
    have hgt : (dir.filter fun f => f.name ≠ file.name).filter
        (fun f => !decide (f.name < file.name)) = dir.filter fun f => file.name < f.name := by
      rw [List.filter_filter]
      refine List.filter_congr fun f _ => ?_
      rw [Bool.eq_iff_iff, Bool.and_eq_true, Bool.not_eq_true', decide_eq_false_iff_not, not_lt,
        decide_eq_true_eq, decide_eq_true_eq]
      exact ⟨fun h => lt_of_le_of_ne h.1 (Ne.symm h.2), fun h => ⟨le_of_lt h, ne_of_gt h⟩⟩
    have hother := List.filter_append_perm (fun f : File => decide (f.name < file.name))
      (dir.filter fun f => f.name ≠ file.name)
    rw [hlt, hgt] at hother
    have hlisted := (paths_perm (dir.filter fun f => f.name < file.name)).append
      ((paths_perm (dir.filter fun f => file.name < f.name)).cons file)
    refine hlisted.trans (List.perm_middle.trans ?_)
    exact (hother.cons file).trans (List.perm_append_singleton file _).symm

/-- The listing after a call of `store` that was not interrupted. -/
theorem paths_store {env : Crates} {maxBytes : Nat} {name : String} {origin : Nat} {event : Event}
    {dir : Directory} {bytes : Bytes} (h : Distinct dir)
    (hencode : encode env maxBytes event = .ok bytes) :
    paths (store env maxBytes name origin event none dir) =
      Evict.fit weight maxBytes (paths (rename ⟨name, bytes, origin⟩ dir)) := by
  rw [store, hencode]
  exact paths_enforceBound maxBytes (h.rename _) (Nat.le_refl _)

/-- The stored event survives its own call exactly if it fits together with the
files whose names come after its own. -/
theorem mem_store_iff {env : Crates} {maxBytes : Nat} {name : String} {origin : Nat} {event : Event}
    {dir : Directory} {bytes : Bytes} (h : Distinct dir)
    (hencode : encode env maxBytes event = .ok bytes) :
    ⟨name, bytes, origin⟩ ∈ store env maxBytes name origin event none dir ↔
      bytes.length + size (dir.filter fun f => name < f.name) ≤ maxBytes := by
  have hnot : ∀ p : File → Bool, p ⟨name, bytes, origin⟩ = false →
      (⟨name, bytes, origin⟩ : File) ∉ paths (dir.filter p) := by
    intro p hp hmem
    rw [mem_paths, List.mem_filter, hp] at hmem
    exact absurd hmem.2 (by decide)
  rw [← mem_paths, paths_store h hencode, paths_rename h,
    Evict.mem_fit_iff weight maxBytes (hnot _ (by simp)) (hnot _ (by simp)), Evict.total_cons,
    ← size_paths, weight]

end Zbierak.SpoolOrder
