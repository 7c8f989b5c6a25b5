import Zbierak.SpoolOrder
import Zbierak.Lib.Runs

/-!
# The spool over many calls

Calls of `store` with the clock and the process counter they read, mixed with
searches, removals and restarts of the process.
-/
namespace Zbierak.SpoolRuns

open Spool Blocking SpoolOrder

/-- The files, the next number of the process, the last reading of the clock,
and every file that was put in place, in that order. -/
structure State where
  dir : Directory
  sequence : Nat
  clock : Nat
  placed : List File
  deriving DecidableEq, Repr

/-- `elsewhere` is a store of another spool of the process: it takes a number. -/
inductive Label where
  | store (timestamp : Nat) (uuid : String) (event : Event) (interruption : Option Interruption)
  | elsewhere
  | restart
  | oldest
  | remove (name : String)

/-- `fetch_add` on an unsigned number of 64 bits. -/
def nextSequence (sequence : Nat) : Nat := (sequence + 1) % 2 ^ 64

/-- The file a call of `store` puts in place. -/
def State.newFile (s : State) (timestamp : Nat) (uuid : String) (bytes : Bytes) : File :=
  ⟨fileName timestamp s.sequence uuid, bytes, s.placed.length⟩

def placedAfter (s : State) (file : File) : Option Interruption → List File
  | some .beforeRename => s.placed
  | some (.afterEvicting _) | none => s.placed ++ [file]

def State.afterStore (env : Crates) (maxBytes : Nat) (s : State) (timestamp : Nat) (uuid : String)
    (event : Event) (interruption : Option Interruption) (bytes : Bytes) : State where
  dir := store env maxBytes (fileName timestamp s.sequence uuid) s.placed.length event interruption
    s.dir
  sequence := nextSequence s.sequence
  clock := timestamp
  placed := placedAfter s (s.newFile timestamp uuid bytes) interruption

def step (env : Crates) (maxBytes : Nat) (s : State) : Label → Option State
  | .store timestamp uuid event interruption =>
    match encode env maxBytes event with
    | .error _ => some s
    | .ok bytes => some (s.afterStore env maxBytes timestamp uuid event interruption bytes)
  | .elsewhere => some { s with sequence := nextSequence s.sequence }
  | .restart => some { s with sequence := 0 }
  | .oldest => some { s with dir := (oldest env s.dir).1 }
  | .remove name => some { s with dir := Spool.remove name s.dir }

variable {env : Crates} {maxBytes : Nat} {s t : State}

theorem step_store {event : Event} {bytes : Bytes} (h : encode env maxBytes event = .ok bytes)
    (timestamp : Nat) (uuid : String) (interruption : Option Interruption) :
    step env maxBytes s (.store timestamp uuid event interruption) =
      some (s.afterStore env maxBytes timestamp uuid event interruption bytes) := by
  rw [step, h]

theorem Distinct.remove {dir : Directory} (h : Distinct dir) (name : String) :
    Distinct (Spool.remove name dir) := h.filter _

theorem Distinct.enforceBound {dir : Directory} (h : Distinct dir) (maxBytes limit : Nat) :
    Distinct (Spool.enforceBound maxBytes limit dir) := by
  rw [Spool.enforceBound, remove_all]
  exact h.filter _

theorem Distinct.store {dir : Directory} (h : Distinct dir) (name : String) (origin : Nat)
    (event : Event) (interruption : Option Interruption) :
    Distinct (Spool.store env maxBytes name origin event interruption dir) := by
  unfold Spool.store
  cases encode env maxBytes event with
  | error e => exact h
  | ok bytes =>
    cases interruption with
    | none => exact Distinct.enforceBound (h.rename _) _ _
    | some i =>
      cases i with
      | beforeRename => exact h
      | afterEvicting files => exact Distinct.enforceBound (h.rename _) _ _

theorem Distinct.oldestLoop {files : List File} {dir : Directory} (h : Distinct dir) :
    Distinct (Spool.oldestLoop env files dir).1 := by
  induction files generalizing dir with
  | nil => exact h
  | cons f files ih =>
    rw [Spool.oldestLoop]
    split
    · exact h
    · exact ih (Distinct.remove h f.name)

theorem distinct_step {a : Label} (h : Distinct s.dir) (hstep : step env maxBytes s a = some t) :
    Distinct t.dir := by
  cases a with
  | store timestamp uuid event interruption =>
    rw [step] at hstep
    split at hstep
    · cases hstep
      exact h
    · cases hstep
      exact Distinct.store h _ _ _ _
  | elsewhere =>
    cases hstep
    exact h
  | restart =>
    cases hstep
    exact h
  | oldest =>
    cases hstep
    exact Distinct.oldestLoop h
  | remove name =>
    cases hstep
    exact Distinct.remove h name

/-- A call that returns `Ok` leaves its event in the spool. -/
def Stores (env : Crates) (maxBytes : Nat) (s : State) : Label → Prop
  | .store timestamp uuid event none => ∀ bytes t, encode env maxBytes event = .ok bytes →
    step env maxBytes s (.store timestamp uuid event none) = some t →
    s.newFile timestamp uuid bytes ∈ t.dir
  | _ => True

/-- The event fits together with the files whose names come after its own. -/
def Room (env : Crates) (maxBytes : Nat) (s : State) : Label → Prop
  | .store timestamp uuid event none => ∀ bytes ∈ (encode env maxBytes event).toOption,
    bytes.length + size (s.dir.filter fun f => fileName timestamp s.sequence uuid < f.name) ≤
      maxBytes
  | _ => True

instance (env : Crates) (maxBytes : Nat) (s : State) : ∀ a, Decidable (Room env maxBytes s a)
  | .store timestamp uuid event none => inferInstanceAs (Decidable
    (∀ bytes ∈ (encode env maxBytes event).toOption,
      bytes.length + size (s.dir.filter fun f => fileName timestamp s.sequence uuid < f.name) ≤
        maxBytes))
  | .store _ _ _ (some _) | .elsewhere | .restart | .oldest | .remove _ => isTrue trivial

theorem mem_toOption {ε α : Type} {x : Except ε α} {a : α} : a ∈ x.toOption ↔ x = .ok a := by
  cases x <;> simp [Except.toOption]

theorem stores_iff (h : Distinct s.dir) (a : Label) :
    Stores env maxBytes s a ↔ Room env maxBytes s a := by
  cases a with
  | store timestamp uuid event interruption =>
    cases interruption with
    | some i => exact Iff.rfl
    | none =>
      constructor
      · intro hstores bytes hbytes
        have hencode := mem_toOption.mp hbytes
        exact (mem_store_iff h hencode).mp
          (hstores bytes _ hencode (step_store hencode timestamp uuid none))
      · intro hroom bytes t hencode hstep
        rw [step_store hencode] at hstep
        cases hstep
        exact (mem_store_iff h hencode).mpr (hroom bytes (mem_toOption.mpr hencode))
  | _ => exact Iff.rfl

/-- Over every sequence of calls, clock readings and restarts, each accepted
event is on disk after its call exactly if each call meets the condition. -/
theorem accepted_on_disk (env : Crates) (maxBytes : Nat) (s : State) (h : Distinct s.dir)
    (labels : List Label) :
    Runs.Along (step env maxBytes) (Stores env maxBytes) labels s ↔
      Runs.Along (step env maxBytes) (Room env maxBytes) labels s :=
  Runs.along_congr_of (I := fun s : State => Distinct s.dir)
    (fun _ _ _ hs hstep => distinct_step hs hstep) (fun _ a hs => stores_iff hs a) labels h

namespace Sample

/-- The libraries for events with these messages: each is read back from what
was written for it. -/
def crates (messages : List String) : Crates := { Zbierak.Sample.crates with
  eventFromSlice := fun bytes =>
    match messages.find? fun message => Zbierak.Sample.eventBody message = bytes with
    | some message => .ok (Zbierak.Sample.event message)
    | none => .error "expected value at line 1 column 1" }

def empty : State := ⟨[], 0, 0, []⟩

/-- Two events of which only one fits, stored while the clock goes back from
`first` to `second`. -/
def pair (first second : Nat) : List Label :=
  [.store first "a" (Zbierak.Sample.event "m") none,
    .store second "b" (Zbierak.Sample.event "n") none]

end Sample

set_option maxRecDepth 20000 in
theorem accepted_on_disk_forward :
    Runs.Along (step (Sample.crates ["m", "n"]) 150) (Stores (Sample.crates ["m", "n"]) 150)
      (Sample.pair 1000 2000) Sample.empty :=
  (accepted_on_disk (Sample.crates ["m", "n"]) 150 Sample.empty .nil (Sample.pair 1000 2000)).mpr
    (by decide +kernel)

set_option maxRecDepth 20000 in
/-- With the clock set back, the second call returns `Ok` and deletes its own event. -/
theorem accepted_not_on_disk :
    ¬ Runs.Along (step (Sample.crates ["m", "n"]) 150) (Stores (Sample.crates ["m", "n"]) 150)
      (Sample.pair 2000 1000) Sample.empty := by
  rintro ⟨-, hsecond⟩
  have hmem := (hsecond _ rfl).1 (Zbierak.Sample.eventBody "n") _ rfl rfl
  exact absurd hmem (by decide +kernel)

end Zbierak.SpoolRuns
