import Zbierak.Crates
import Mathlib.Data.List.Sort

/-!
# The offline spool

Events that could not be sent wait in a directory, one file an event, and are
read back in the order of the file names. When the directory outgrows its bound
the oldest files go first.
-/
namespace Zbierak.Spool

inductive SpoolError where
  | disabled
  | eventTooLarge
  | serialize (error : String)
  | io (error : String)
  deriving DecidableEq, Repr

/-- A spooled event. `origin` is the number of the capture it comes from; it is
not written to disk and no function reads it. -/
structure File where
  name : String
  bytes : Bytes
  origin : Nat
  deriving DecidableEq, Repr

abbrev Directory := List File

/-- The bytes `store` writes for an event. -/
def encode (env : Crates) (maxBytes : Nat) (event : Event) : Except SpoolError Bytes :=
  if maxBytes = 0 then .error .disabled
  else match env.eventToVec event with
    | .error error => .error (.serialize error)
    | .ok bytes => if bytes.length > maxBytes then .error .eventTooLarge else .ok bytes

/-- Put a file in place under its final name. -/
def rename (file : File) (dir : Directory) : Directory :=
  dir.filter (fun f => f.name ≠ file.name) ++ [file]

def remove (name : String) (dir : Directory) : Directory := dir.filter fun f => f.name ≠ name

/-- Files of the directory, oldest first. -/
def paths (dir : Directory) : List File := dir.insertionSort fun a b => a.name ≤ b.name

/-- Bytes on disk. -/
def size : Directory → Nat
  | [] => 0
  | f :: fs => f.bytes.length + size fs

/-- The files to delete until `total` meets the bound. -/
def excess (maxBytes : Nat) : Nat → List File → List File
  | _, [] => []
  | total, f :: fs =>
    if total ≤ maxBytes then [] else f :: excess maxBytes (total - f.bytes.length) fs

/-- Delete the first `limit` of the files that are over the bound. -/
def enforceBound (maxBytes limit : Nat) (dir : Directory) : Directory :=
  ((excess maxBytes (size dir) (paths dir)).take limit).foldl (fun dir f => remove f.name dir) dir

/-- Where a failure of the file system or a crash interrupts `store`. -/
inductive Interruption where
  | beforeRename
  | afterEvicting (files : Nat)
  deriving DecidableEq, Repr

/-- The directory after `store`; `none` is the run without an interruption. -/
def store (env : Crates) (maxBytes : Nat) (name : String) (origin : Nat) (event : Event)
    (interruption : Option Interruption) (dir : Directory) : Directory :=
  match encode env maxBytes event with
  | .error _ => dir
  | .ok bytes =>
    let stored := rename ⟨name, bytes, origin⟩ dir
    match interruption with
    | none => enforceBound maxBytes stored.length stored
    | some .beforeRename => dir
    | some (.afterEvicting files) => enforceBound maxBytes files stored

/-- The first readable file; corrupt files before it are deleted. -/
def oldestLoop (env : Crates) : List File → Directory → Directory × Option (File × Event)
  | [], dir => (dir, none)
  | f :: fs, dir =>
    match env.eventFromSlice f.bytes with
    | .ok event => (dir, some (f, event))
    | .error _ => oldestLoop env fs (remove f.name dir)

def oldest (env : Crates) (dir : Directory) : Directory × Option (File × Event) :=
  oldestLoop env (paths dir) dir

theorem mem_remove {name : String} {dir : Directory} {f : File} (h : f ∈ remove name dir) :
    f ∈ dir := (List.mem_filter.mp h).1

theorem mem_remove_iff {name : String} {dir : Directory} {f : File} :
    f ∈ remove name dir ↔ f ∈ dir ∧ f.name ≠ name := by
  simp [remove]

theorem mem_rename_iff {file : File} {dir : Directory} {f : File} :
    f ∈ rename file dir ↔ (f ∈ dir ∧ f.name ≠ file.name) ∨ f = file := by
  simp [rename]

theorem mem_enforceBound {maxBytes limit : Nat} {dir : Directory} {f : File}
    (h : f ∈ enforceBound maxBytes limit dir) : f ∈ dir := by
  have hfold : ∀ (removed : List File) (dir : Directory),
      f ∈ removed.foldl (fun dir f => remove f.name dir) dir → f ∈ dir := by
    intro removed
    induction removed with
    | nil => exact fun _ h => h
    | cons r removed ih => exact fun dir h => mem_remove (ih _ h)
  exact hfold _ _ h

theorem encode_ok {env : Crates} {maxBytes : Nat} {event : Event} {bytes : Bytes}
    (h : encode env maxBytes event = .ok bytes) : env.eventToVec event = .ok bytes := by
  unfold encode at h
  split at h
  · cases h
  · split at h
    · cases h
    · next hvec =>
      split at h
      · cases h
      · cases h
        exact hvec

/-- A file after `store` was there before, or holds the event. -/
theorem mem_store {env : Crates} {maxBytes : Nat} {name : String} {origin : Nat} {event : Event}
    {interruption : Option Interruption} {dir : Directory} {f : File}
    (h : f ∈ store env maxBytes name origin event interruption dir) :
    f ∈ dir ∨ (f.origin = origin ∧ env.eventToVec event = .ok f.bytes) := by
  unfold store at h
  cases hencode : encode env maxBytes event with
  | error e =>
    rw [hencode] at h
    exact .inl h
  | ok bytes =>
    have hbytes := encode_ok hencode
    have hrename : f ∈ rename ⟨name, bytes, origin⟩ dir →
        f ∈ dir ∨ (f.origin = origin ∧ env.eventToVec event = .ok f.bytes) := by
      intro h
      rcases List.mem_append.mp h with h | h
      · exact .inl (List.mem_filter.mp h).1
      · obtain rfl := List.mem_singleton.mp h
        exact .inr ⟨rfl, hbytes⟩
    rw [hencode] at h
    dsimp only at h
    split at h
    · exact hrename (mem_enforceBound h)
    · exact .inl h
    · exact hrename (mem_enforceBound h)

/-- Reading finds a file of the directory, parsed, and adds none. -/
theorem oldestLoop_spec {env : Crates} {files : List File} {dir : Directory} {left : Directory}
    {found : Option (File × Event)} (h : oldestLoop env files dir = (left, found)) :
    (∀ f ∈ left, f ∈ dir) ∧
      ∀ f event, found = some (f, event) → f ∈ files ∧ env.eventFromSlice f.bytes = .ok event := by
  induction files generalizing dir with
  | nil =>
    cases h
    exact ⟨fun _ h => h, by simp⟩
  | cons g files ih =>
    unfold oldestLoop at h
    cases hread : env.eventFromSlice g.bytes with
    | ok event =>
      rw [hread] at h
      cases h
      refine ⟨fun _ h => h, fun f event' h => ?_⟩
      cases h
      exact ⟨List.mem_cons_self, hread⟩
    | error e =>
      rw [hread] at h
      obtain ⟨hdir, hfound⟩ := ih h
      refine ⟨fun f h => mem_remove (hdir f h), fun f event h => ?_⟩
      obtain ⟨hmem, hread⟩ := hfound f event h
      exact ⟨List.mem_cons_of_mem g hmem, hread⟩

/-- Reading deletes no file that can be read. -/
theorem oldestLoop_keeps {env : Crates} {files : List File} {dir left : Directory}
    {found : Option (File × Event)} (h : oldestLoop env files dir = (left, found))
    (hdistinct : ∀ f ∈ dir, ∀ g ∈ files, f.name = g.name → f = g) {f : File} (hf : f ∈ dir)
    (hread : ∃ event, env.eventFromSlice f.bytes = .ok event) : f ∈ left := by
  induction files generalizing dir with
  | nil =>
    cases h
    exact hf
  | cons g files ih =>
    unfold oldestLoop at h
    cases hg : env.eventFromSlice g.bytes with
    | ok event =>
      rw [hg] at h
      cases h
      exact hf
    | error e =>
      rw [hg] at h
      have hne : f.name ≠ g.name := by
        intro hname
        obtain rfl := hdistinct f hf g List.mem_cons_self hname
        obtain ⟨event, hread⟩ := hread
        rw [hg] at hread
        cases hread
      refine ih h (fun f hf g' hg' => ?_) (mem_remove_iff.mpr ⟨hf, hne⟩)
      exact hdistinct f (mem_remove hf) g' (List.mem_cons_of_mem g hg')

theorem mem_paths {dir : Directory} {f : File} : f ∈ paths dir ↔ f ∈ dir :=
  List.mem_insertionSort _

theorem oldest_spec {env : Crates} {dir left : Directory} {found : Option (File × Event)}
    (h : oldest env dir = (left, found)) :
    (∀ f ∈ left, f ∈ dir) ∧
      ∀ f event, found = some (f, event) → f ∈ dir ∧ env.eventFromSlice f.bytes = .ok event := by
  obtain ⟨hdir, hfound⟩ := oldestLoop_spec h
  exact ⟨hdir, fun f event hf => ⟨mem_paths.mp (hfound f event hf).1, (hfound f event hf).2⟩⟩

end Zbierak.Spool
