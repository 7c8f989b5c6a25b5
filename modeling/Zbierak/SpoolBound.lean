import Zbierak.SpoolRuns

/-!
# One process, one clock

While the clock of a process does not go back, the names of its files are in
the order of the calls that stored them: the oldest files are the first to be
deleted and the first to be read.
-/
namespace Zbierak.SpoolBound

open Spool SpoolOrder SpoolRuns
open Blocking (fileName)

/-- A call in the same process, later than those before. The reading of the
clock has at most twenty digits and the counter does not wrap around. -/
def Forward (s : State) : Label → Prop
  | .store timestamp _ _ _ =>
    s.clock ≤ timestamp ∧ timestamp < 10 ^ 20 ∧ s.sequence + 1 < 2 ^ 64
  | .elsewhere => s.sequence + 1 < 2 ^ 64
  | .restart => False
  | .oldest | .remove _ => True

/-- A name of a call before this state. -/
def Past (s : State) (name : String) : Prop :=
  ∃ timestamp sequence uuid, name = fileName timestamp sequence uuid ∧ timestamp ≤ s.clock ∧
    sequence < s.sequence

structure Inv (s : State) : Prop where
  sequence : s.sequence < 2 ^ 64
  inOrder : InOrder s.placed
  past : ∀ f ∈ s.placed, Past s f.name
  there : ∀ f ∈ s.dir, f ∈ s.placed
  distinct : Distinct s.dir

/-- An empty spool in a process whose counter has any value. -/
def start (sequence clock : Nat) : State := ⟨[], sequence, clock, []⟩

theorem inv_start {sequence : Nat} (h : sequence < 2 ^ 64) (clock : Nat) :
    Inv (start sequence clock) where
  sequence := h
  inOrder := .nil
  past := by simp [start]
  there := by simp [start]
  distinct := .nil

variable {env : Crates} {maxBytes : Nat} {s t : State}

theorem Past.lt {name : String} (h : Past s name) {timestamp : Nat} (uuid : String)
    (hclock : s.clock ≤ timestamp) (htime : timestamp < 10 ^ 20) (hsequence : s.sequence < 2 ^ 64) :
    name < fileName timestamp s.sequence uuid := by
  obtain ⟨t, q, u, rfl, ht, hq⟩ := h
  refine fileName_lt u uuid ?_ htime (by omega)
  rcases Nat.lt_or_eq_of_le (Nat.le_trans ht hclock) with hlt | heq
  · exact .inl hlt
  · exact .inr ⟨heq, hq⟩

theorem Past.mono {name : String} (h : Past s name) (hclock : s.clock ≤ t.clock)
    (hsequence : s.sequence ≤ t.sequence) : Past t name := by
  obtain ⟨timestamp, sequence, uuid, hname, ht, hq⟩ := h
  exact ⟨timestamp, sequence, uuid, hname, Nat.le_trans ht hclock, Nat.lt_of_lt_of_le hq hsequence⟩

/-- Steps that place no file. -/
theorem Inv.shrink (h : Inv s) (hplaced : t.placed = s.placed) (hclock : s.clock ≤ t.clock)
    (hsequence : s.sequence ≤ t.sequence) (hbound : t.sequence < 2 ^ 64)
    (hdir : ∀ f ∈ t.dir, f ∈ s.dir) (hdistinct : Distinct t.dir) : Inv t where
  sequence := hbound
  inOrder := hplaced ▸ h.inOrder
  past := fun f hf => (h.past f (hplaced ▸ hf)).mono hclock hsequence
  there := fun f hf => hplaced ▸ h.there f (hdir f hf)
  distinct := hdistinct

/-- Steps that place the newest file. -/
theorem Inv.place (h : Inv s) {file : File} (hplaced : t.placed = s.placed ++ [file])
    (hlast : ∀ f ∈ s.placed, f.name < file.name) (hfile : Past t file.name)
    (hclock : s.clock ≤ t.clock) (hsequence : s.sequence ≤ t.sequence)
    (hbound : t.sequence < 2 ^ 64) (hdir : ∀ f ∈ t.dir, f ∈ s.dir ∨ f = file)
    (hdistinct : Distinct t.dir) : Inv t where
  sequence := hbound
  inOrder := by
    rw [hplaced]
    refine List.pairwise_append.mpr ⟨h.inOrder, List.pairwise_singleton _ _, fun f hf g hg => ?_⟩
    rw [List.mem_singleton.mp hg]
    exact hlast f hf
  past := by
    intro f hf
    rw [hplaced] at hf
    rcases List.mem_append.mp hf with hf | hf
    · exact (h.past f hf).mono hclock hsequence
    · rw [List.mem_singleton.mp hf]
      exact hfile
  there := by
    intro f hf
    rw [hplaced]
    rcases hdir f hf with hf | rfl
    · exact List.mem_append_left _ (h.there f hf)
    · exact List.mem_append_right _ (List.mem_singleton_self _)
  distinct := hdistinct

theorem mem_store {name : String} {origin : Nat} {event : Event} {interruption : Option Interruption}
    {dir : Directory} {bytes : Bytes} (hencode : encode env maxBytes event = .ok bytes) {f : File}
    (h : f ∈ Spool.store env maxBytes name origin event interruption dir) :
    f ∈ dir ∨ f = ⟨name, bytes, origin⟩ := by
  have hrename : f ∈ rename ⟨name, bytes, origin⟩ dir → f ∈ dir ∨ f = ⟨name, bytes, origin⟩ :=
    fun hf => (mem_rename_iff.mp hf).imp_left And.left
  rw [Spool.store, hencode] at h
  cases interruption with
  | none => exact hrename (mem_enforceBound h)
  | some i =>
    cases i with
    | beforeRename => exact .inl h
    | afterEvicting files => exact hrename (mem_enforceBound h)

/-- A later call places the newest file. -/
theorem Inv.newest (h : Inv s) {timestamp : Nat} (uuid : String) (bytes : Bytes)
    (hclock : s.clock ≤ timestamp) (htime : timestamp < 10 ^ 20) :
    ∀ f ∈ s.placed, f.name < (s.newFile timestamp uuid bytes).name :=
  fun f hf => (h.past f hf).lt uuid hclock htime h.sequence

theorem inv_step {a : Label} (h : Inv s) (hforward : Forward s a)
    (hstep : step env maxBytes s a = some t) : Inv t := by
  have hdistinct := distinct_step h.distinct hstep
  cases a with
  | store timestamp uuid event interruption =>
    obtain ⟨hclock, htime, hsequence⟩ := hforward
    have hnext : nextSequence s.sequence = s.sequence + 1 := Nat.mod_eq_of_lt hsequence
    rw [step] at hstep
    split at hstep
    · cases hstep
      exact h
    · next bytes hencode =>
      cases hstep
      have hle : s.sequence ≤ nextSequence s.sequence := by omega
      have hlt : nextSequence s.sequence < 2 ^ 64 := by omega
      have hpast : Past (s.afterStore env maxBytes timestamp uuid event interruption bytes)
          (fileName timestamp s.sequence uuid) :=
        ⟨timestamp, s.sequence, uuid, rfl, Nat.le_refl _, by
          change s.sequence < nextSequence s.sequence
          omega⟩
      by_cases hbefore : interruption = some .beforeRename
      · subst hbefore
        refine h.shrink rfl hclock hle hlt (fun f hf => ?_) hdistinct
        rw [State.afterStore, store, hencode] at hf
        exact hf
      · have hplaced : placedAfter s (s.newFile timestamp uuid bytes) interruption =
            s.placed ++ [s.newFile timestamp uuid bytes] := by
          cases interruption with
          | none => rfl
          | some i =>
            cases i with
            | beforeRename => exact absurd rfl hbefore
            | afterEvicting files => rfl
        exact h.place hplaced (h.newest uuid bytes hclock htime) hpast hclock hle hlt
          (fun f hf => mem_store hencode hf) hdistinct
  | elsewhere =>
    cases hstep
    have hnext : nextSequence s.sequence = s.sequence + 1 := Nat.mod_eq_of_lt hforward
    have hlt : nextSequence s.sequence < 2 ^ 64 := by
      rw [hnext]
      exact hforward
    exact h.shrink rfl (Nat.le_refl _) (by simp [hnext]) hlt (fun _ hf => hf) hdistinct
  | restart => exact hforward.elim
  | oldest =>
    cases hstep
    exact h.shrink rfl (Nat.le_refl _) (Nat.le_refl _) h.sequence (oldest_spec rfl).1 hdistinct
  | remove name =>
    cases hstep
    exact h.shrink rfl (Nat.le_refl _) (Nat.le_refl _) h.sequence (fun _ hf => mem_remove hf)
      hdistinct

theorem inv_run {labels : List Label} {sequence clock : Nat} (hsequence : sequence < 2 ^ 64)
    (hrun : Runs.run (step env maxBytes) labels (start sequence clock) = some s)
    (hforward : Runs.Along (step env maxBytes) Forward labels (start sequence clock)) : Inv s :=
  Runs.along_invariant (fun _ _ _ hinv hc hstep => inv_step hinv hc hstep) hrun hforward
    (inv_start hsequence clock)

/-- The listing is what is left of the files in the order in which they were placed. -/
theorem Inv.paths_eq (h : Inv s) : paths s.dir = s.placed.filter (· ∈ s.dir) := by
  refine SpoolOrder.paths_eq (h.inOrder.filter _) ?_
  have hplaced : s.placed.Nodup := h.inOrder.distinct.of_map
  rw [List.perm_ext_iff_of_nodup (hplaced.filter _) h.distinct.of_map]
  intro f
  rw [List.mem_filter, decide_eq_true_eq, and_iff_right_iff_imp]
  exact h.there f

/-- A file with the last name is listed last. -/
theorem paths_rename_last {dir : Directory} (h : Distinct dir) {file : File}
    (hlast : ∀ f ∈ dir, f.name < file.name) : paths (rename file dir) = paths dir ++ [file] := by
  have hbefore : (dir.filter fun f => f.name < file.name) = dir :=
    List.filter_eq_self.mpr fun f hf => decide_eq_true (hlast f hf)
  have hafter : (dir.filter fun f => file.name < f.name) = [] :=
    List.filter_eq_nil_iff.mpr fun f hf hlt =>
      lt_asymm (hlast f hf) (of_decide_eq_true hlt)
  rw [paths_rename h, hbefore, hafter]
  rfl

/-- What a successful call leaves behind. -/
theorem Inv.store_longest (h : Inv s) {timestamp : Nat} {uuid : String} {event : Event}
    {bytes : Bytes} (hclock : s.clock ≤ timestamp) (htime : timestamp < 10 ^ 20)
    (hencode : encode env maxBytes event = .ok bytes) :
    Evict.Longest weight maxBytes
      (paths (s.afterStore env maxBytes timestamp uuid event none bytes).dir)
      (paths s.dir ++ [s.newFile timestamp uuid bytes]) := by
  have hlast : ∀ f ∈ s.dir, f.name < (s.newFile timestamp uuid bytes).name :=
    fun f hf => h.newest uuid bytes hclock htime f (h.there f hf)
  have hstore : paths (s.afterStore env maxBytes timestamp uuid event none bytes).dir =
      Evict.fit weight maxBytes (paths (rename (s.newFile timestamp uuid bytes) s.dir)) :=
    paths_store h.distinct hencode
  rw [hstore, paths_rename_last h.distinct hlast]
  exact Evict.longest_fit weight maxBytes _

/-- The first file of a listing that can be read, with the unreadable ones before it. -/
def FirstReadable (env : Crates) (files : List File) : Option (File × Event) → Prop
  | some (file, event) => ∃ before after, files = before ++ file :: after ∧
    (∀ f ∈ before, ∃ error, env.eventFromSlice f.bytes = .error error) ∧
    env.eventFromSlice file.bytes = .ok event
  | none => ∀ f ∈ files, ∃ error, env.eventFromSlice f.bytes = .error error

theorem firstReadable_oldestLoop (files : List File) (dir : Directory) :
    FirstReadable env files (oldestLoop env files dir).2 := by
  induction files generalizing dir with
  | nil => simp [oldestLoop, FirstReadable]
  | cons f files ih =>
    rw [oldestLoop]
    cases hread : env.eventFromSlice f.bytes with
    | ok event => exact ⟨[], files, rfl, by simp, hread⟩
    | error error =>
      have hrest := ih (remove f.name dir)
      dsimp only
      cases hfound : (oldestLoop env files (remove f.name dir)).2 with
      | none =>
        rw [hfound] at hrest
        exact List.forall_mem_cons.mpr ⟨⟨error, hread⟩, hrest⟩
      | some found =>
        rw [hfound] at hrest
        obtain ⟨before, after, hsplit, hbefore, hevent⟩ := hrest
        exact ⟨f :: before, after, by rw [hsplit]; rfl,
          List.forall_mem_cons.mpr ⟨⟨error, hread⟩, hbefore⟩, hevent⟩

/-- In one process whose clock does not go back, the listing is in the order of
the calls, a successful call leaves the longest run of the latest files that
fits, and a search finds the earliest of them that can be read. -/
theorem spool_order (env : Crates) (maxBytes sequence clock : Nat) (labels : List Label) (s : State)
    (hsequence : sequence < 2 ^ 64)
    (hrun : Runs.run (step env maxBytes) labels (start sequence clock) = some s)
    (hforward : Runs.Along (step env maxBytes) Forward labels (start sequence clock)) :
    paths s.dir = s.placed.filter (· ∈ s.dir) ∧
    (∀ timestamp uuid event bytes t, Forward s (.store timestamp uuid event none) →
      encode env maxBytes event = .ok bytes →
      step env maxBytes s (.store timestamp uuid event none) = some t →
      size t.dir ≤ maxBytes ∧ t.placed = s.placed ++ [s.newFile timestamp uuid bytes] ∧
        Evict.Longest weight maxBytes (paths t.dir)
          (paths s.dir ++ [s.newFile timestamp uuid bytes])) ∧
    FirstReadable env (paths s.dir) (oldest env s.dir).2 := by
  have hinv := inv_run hsequence hrun hforward
  refine ⟨hinv.paths_eq, ?_, firstReadable_oldestLoop (paths s.dir) s.dir⟩
  rintro timestamp uuid event bytes t ⟨hclock, htime, -⟩ hencode hstep
  rw [step_store hencode] at hstep
  cases hstep
  have hlongest : Evict.Longest weight maxBytes
      (paths (s.afterStore env maxBytes timestamp uuid event none bytes).dir)
      (paths s.dir ++ [s.newFile timestamp uuid bytes]) :=
    hinv.store_longest hclock htime hencode
  exact ⟨size_paths _ ▸ hlongest.fits, rfl, hlongest⟩

/-- The clock does not go back and the process is not restarted. -/
def Nondecreasing (s : State) : Label → Prop
  | .store timestamp _ _ _ => s.clock ≤ timestamp
  | .restart => False
  | .elsewhere | .oldest | .remove _ => True

instance (s : State) : ∀ a, Decidable (Nondecreasing s a)
  | .store timestamp _ _ _ => inferInstanceAs (Decidable (s.clock ≤ timestamp))
  | .restart => isFalse id
  | .elsewhere | .oldest | .remove _ => isTrue trivial

instance (s : State) : ∀ a, Decidable (Forward s a)
  | .store timestamp _ _ _ => inferInstanceAs
      (Decidable (s.clock ≤ timestamp ∧ timestamp < 10 ^ 20 ∧ s.sequence + 1 < 2 ^ 64))
  | .elsewhere => inferInstanceAs (Decidable (s.sequence + 1 < 2 ^ 64))
  | .restart => isFalse id
  | .oldest | .remove _ => isTrue trivial

namespace Sample

open SpoolRuns.Sample (crates pair)

def long : String := "a message that makes its event much larger than the short one does"

/-- Three large events of which two fit; the older of the two is sent and removed. -/
def sent : List Label :=
  [.store 1 "a" (Zbierak.Sample.event long) none, .store 2 "b" (Zbierak.Sample.event long) none,
    .store 3 "c" (Zbierak.Sample.event long) none, .oldest, .remove (fileName 2 1 "b")]

/-- Then a small one is stored. -/
def small : Label := .store 4 "d" (Zbierak.Sample.event "m") none

end Sample

set_option maxRecDepth 20000 in
/-- The evicted file does not come back, though it would fit again. -/
theorem spool_order_small : ∃ s t,
    Runs.run (step (SpoolRuns.Sample.crates [Sample.long, "m"]) 430) Sample.sent (start 0 0) =
      some s ∧
    step (SpoolRuns.Sample.crates [Sample.long, "m"]) 430 s Sample.small = some t ∧
    Evict.Longest weight 430 (paths t.dir)
      (paths s.dir ++ [s.newFile 4 "d" (Zbierak.Sample.eventBody "m")]) := by
  refine ⟨_, _, rfl, rfl, ?_⟩
  exact ((spool_order (SpoolRuns.Sample.crates [Sample.long, "m"]) 430 0 0 Sample.sent _ (by decide)
    rfl (by decide +kernel)).2.1 4 "d" (Zbierak.Sample.event "m") (Zbierak.Sample.eventBody "m") _
    (by decide +kernel) rfl rfl).2.2

set_option maxRecDepth 20000 in
/-- Of the files that were not removed a longer suffix would fit than the one
that survives; and a clock reading of twenty-one digits, or a counter that wraps
around, puts a later file before an earlier one. -/
theorem spool_order_fails :
    (∃ s, Runs.Along (step (SpoolRuns.Sample.crates [Sample.long, "m"]) 430) Nondecreasing
        (Sample.sent ++ [Sample.small]) (start 0 0) ∧
      Runs.run (step (SpoolRuns.Sample.crates [Sample.long, "m"]) 430)
        (Sample.sent ++ [Sample.small]) (start 0 0) = some s ∧
      ¬ Evict.Longest weight 430 (paths s.dir)
        (s.placed.filter fun f => f.name ≠ fileName 2 1 "b")) ∧
    ∀ run ∈ [(SpoolRuns.Sample.pair (10 ^ 20 - 1) (10 ^ 20), 0),
        (SpoolRuns.Sample.pair 10 10, 2 ^ 64 - 1)],
      ∃ s, Runs.Along (step (SpoolRuns.Sample.crates ["m", "n"]) 430) Nondecreasing run.1
          (start run.2 0) ∧
        Runs.run (step (SpoolRuns.Sample.crates ["m", "n"]) 430) run.1 (start run.2 0) = some s ∧
        s.placed.all (· ∈ s.dir) ∧
        (oldest (SpoolRuns.Sample.crates ["m", "n"]) s.dir).2.map Prod.fst ≠ s.placed.head? := by
  constructor
  · refine ⟨_, by decide +kernel, rfl, fun h => ?_⟩
    have hlonger := h.longest _ (List.suffix_refl _) (by decide +kernel)
    exact absurd hlonger.length_le (by decide +kernel)
  · simp only [List.forall_mem_cons]
    exact ⟨⟨_, by decide +kernel, rfl, by decide +kernel, by decide +kernel⟩,
      ⟨_, by decide +kernel, rfl, by decide +kernel, by decide +kernel⟩,
      List.forall_mem_nil _⟩

end Zbierak.SpoolBound
