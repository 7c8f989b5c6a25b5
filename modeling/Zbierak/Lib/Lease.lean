import Mathlib.Data.List.Basic
import Mathlib.Data.List.Induction

/-!
# Leases on a job

Whoever takes a job holds it until it reports an outcome, or until the lease
has run out. A failure puts the job back with a waiting time, a success ends
it. What happened to a job is a list of marks; the job is what they add up to.
-/
namespace Lease

inductive Mark where
  | taken (now : Int)
  | failed (now wait : Int)
  | finished (now : Int)
  deriving DecidableEq, Repr

structure Job where
  tries : Int
  heldSince : Option Int
  readyAt : Int
  finishedAt : Option Int

def Job.new (readyAt : Int) : Job := ⟨0, none, readyAt, none⟩

/-- The job may be taken: it is not finished, it is due, and nobody holds it, or
the lease of whoever does has run out. -/
structure Job.Free (timeout now : Int) (j : Job) : Prop where
  open_ : j.finishedAt = none
  due : j.readyAt ≤ now
  unheld : ∀ since, j.heldSince = some since → since + timeout < now

def Job.mark (j : Job) : Mark → Job
  | .taken now => { j with tries := j.tries + 1, heldSince := some now }
  | .failed now wait => { j with heldSince := none, readyAt := now + wait }
  | .finished now => { j with heldSince := none, finishedAt := some now }

def Job.after (j : Job) (marks : List Mark) : Job := marks.foldl Job.mark j

def Mark.isTaken : Mark → Bool
  | .taken _ => true
  | .failed _ _ | .finished _ => false

/-- Whoever took the job found it free. -/
def Valid (timeout : Int) (j : Job) (marks : List Mark) : Prop :=
  ∀ before now rest, marks = before ++ .taken now :: rest → (j.after before).Free timeout now

variable {timeout : Int} {j : Job} {marks : List Mark}

@[simp] theorem after_nil (j : Job) : j.after [] = j := rfl

@[simp] theorem after_snoc (j : Job) (marks : List Mark) (m : Mark) :
    j.after (marks ++ [m]) = (j.after marks).mark m := by
  simp [Job.after]

theorem valid_nil : Valid timeout j [] := by
  intro before now rest h
  simp at h

theorem Valid.snoc (h : Valid timeout j marks) {m : Mark}
    (hm : ∀ now, m = .taken now → (j.after marks).Free timeout now) : Valid timeout j (marks ++ [m]) := by
  intro before now rest heq
  rcases List.eq_nil_or_concat rest with rfl | ⟨rest', last, rfl⟩
  · obtain ⟨rfl, hlast⟩ := List.append_inj' heq rfl
    exact hm now (List.cons.inj hlast).1
  · rw [List.concat_eq_append, ← List.cons_append, ← List.append_assoc] at heq
    exact h before now rest' (List.append_inj' heq rfl).1

theorem after_append (j : Job) (earlier marks : List Mark) :
    j.after (earlier ++ marks) = (j.after earlier).after marks := by
  simp [Job.after]

/-- Only marks finish a job, and none opens it again. -/
theorem unfinished_before (h : (j.after marks).finishedAt = none) : j.finishedAt = none := by
  induction marks using List.reverseRecOn with
  | nil => exact h
  | append_singleton marks m ih =>
    rw [after_snoc] at h
    cases m with
    | taken | failed => exact ih h
    | finished => cases h

theorem Job.Free.later {now other : Int} (h : j.Free timeout now) (hle : now ≤ other) :
    j.Free timeout other where
  open_ := h.open_
  due := Int.le_trans h.due hle
  unheld since hsince := Int.lt_of_lt_of_le (h.unheld since hsince) hle

/-- What comes later is valid for what the job has become. -/
theorem Valid.later {earlier : List Mark} (h : Valid timeout j (earlier ++ marks)) :
    Valid timeout (j.after earlier) marks := by
  intro before now rest heq
  rw [← after_append]
  exact h (earlier ++ before) now rest (by rw [heq, List.append_assoc])

/-- When a mark was made. -/
def Mark.madeAt : Mark → Int
  | .taken now => now
  | .failed now _ => now
  | .finished now => now

/-- Marks in the order of time, each failure with a waiting time of at least `gap`. -/
structure Timed (gap : Int) (marks : List Mark) : Prop where
  ordered : marks.Pairwise fun a b => a.madeAt ≤ b.madeAt
  waits : ∀ now wait, .failed now wait ∈ marks → gap ≤ wait

variable {gap : Int}

theorem Timed.earlier {m : Mark} (h : Timed gap (marks ++ [m])) : Timed gap marks where
  ordered := (List.pairwise_append.mp h.ordered).1
  waits now wait hm := h.waits now wait (List.mem_append_left _ hm)

theorem Timed.last {m : Mark} (h : Timed gap (marks ++ [m])) {earlier : Mark} (hm : earlier ∈ marks) :
    earlier.madeAt ≤ m.madeAt :=
  (List.pairwise_append.mp h.ordered).2.2 earlier hm m (List.mem_singleton_self m)

/-- A job that was taken is held since, or waits, or is finished. -/
theorem Timed.held_or_waiting (h : Timed gap marks) {at_ : Int} (htaken : .taken at_ ∈ marks) :
    (∃ since, (j.after marks).heldSince = some since ∧ at_ ≤ since) ∨
      at_ + gap ≤ (j.after marks).readyAt ∨ (j.after marks).finishedAt ≠ none := by
  induction marks using List.reverseRecOn with
  | nil => cases htaken
  | append_singleton marks m ih =>
    have hle : at_ ≤ m.madeAt := by
      rcases List.mem_append.mp htaken with hold | hlast
      · exact h.last hold
      · exact Int.le_of_eq (congrArg Mark.madeAt (List.mem_singleton.mp hlast))
    rw [after_snoc]
    cases m with
    | taken now => exact .inl ⟨now, rfl, hle⟩
    | failed now wait =>
      have hwait := h.waits now wait (List.mem_append_right _ (List.mem_singleton_self _))
      have hsum : at_ + gap ≤ now + wait := Int.add_le_add hle hwait
      exact .inr (.inl hsum)
    | finished now => exact .inr (.inr (by simp [Job.mark]))

/-- Between two takings there is the lease or the waiting time. -/
theorem Valid.spaced (h : Valid timeout j marks) (ht : Timed gap marks) (hgap : gap ≤ timeout + 1) :
    ((marks.filter Mark.isTaken).map Mark.madeAt).Pairwise fun a b => a + gap ≤ b := by
  induction marks using List.reverseRecOn with
  | nil => exact List.Pairwise.nil
  | append_singleton marks m ih =>
    have hmarks := ih (fun before now rest heq => h before now (rest ++ [m]) (by simp [heq])) ht.earlier
    cases m with
    | failed | finished => simpa [Mark.isTaken] using hmarks
    | taken now =>
      rw [List.filter_append, List.map_append]
      refine List.pairwise_append.mpr ⟨hmarks, List.pairwise_singleton _ _, fun a ha b hb => ?_⟩
      obtain ⟨mark, hmark, rfl⟩ := List.mem_map.mp ha
      obtain ⟨hmem, htaken⟩ := List.mem_filter.mp hmark
      obtain rfl : b = now := List.mem_singleton.mp hb
      cases mark with
      | failed | finished => cases htaken
      | taken at_ =>
        have hfree := h marks b [] rfl
        rcases ht.earlier.held_or_waiting hmem with ⟨since, hsince, hle⟩ | hready | hfinished
        · have hunheld := hfree.unheld since hsince
          simp only [Mark.madeAt]
          omega
        · exact Int.le_trans hready hfree.due
        · exact absurd hfree.open_ hfinished

/-- How many instants with a distance of at least `gap` a window holds. -/
theorem length_spaced {instants : List Int} {start stop : Int}
    (h : instants.Pairwise fun a b => a + gap ≤ b) (hstart : start ≤ stop + gap)
    (hwindow : ∀ t ∈ instants, start ≤ t ∧ t ≤ stop) :
    instants.length * gap ≤ stop - start + gap := by
  induction instants generalizing start with
  | nil =>
    rw [List.length_nil, Int.natCast_zero, Int.zero_mul]
    omega
  | cons first instants ih =>
    obtain ⟨hfirst, hrest⟩ := List.pairwise_cons.mp h
    obtain ⟨hafter, hbefore⟩ := hwindow first List.mem_cons_self
    have hcount : instants.length * gap ≤ stop - (first + gap) + gap :=
      ih hrest (by omega) fun t ht => ⟨hfirst t ht, (hwindow t (List.mem_cons_of_mem _ ht)).2⟩
    rw [List.length_cons, Int.natCast_add, Int.add_mul, Int.natCast_one, Int.one_mul]
    omega

/-- How often a job can be taken in a window. -/
theorem Valid.takings_le (h : Valid timeout j marks) (ht : Timed gap marks) (hgap : gap ≤ timeout + 1)
    {start stop : Int} (hstart : start ≤ stop + gap)
    (hwindow : ∀ m ∈ marks, start ≤ m.madeAt ∧ m.madeAt ≤ stop) :
    marks.countP Mark.isTaken * gap ≤ stop - start + gap := by
  have hcount := length_spaced (h.spaced ht hgap) hstart fun t ht => by
    obtain ⟨m, hm, rfl⟩ := List.mem_map.mp ht
    exact hwindow m (List.mem_filter.mp hm).1
  rwa [List.length_map, ← List.countP_eq_length_filter] at hcount

end Lease
