import Zbierak.SpoolRuns
import Mathlib.Data.List.Dedup

/-!
# One drain of the spool

`drain_spool` of the blocking and of the async client: one loop that looks for
the oldest file, posts it, and deletes it, until the deadline, an empty spool or
an answer to try again. Each round of the loop brings what the clock, the file
system, the server and the capturing threads do.
-/
namespace Zbierak.Drain

open Sdk Spool

structure FlushReport where
  delivered : Nat
  remaining : Nat
  deriving DecidableEq, Repr

/-- The error `drain_spool` returns: that of the spool, as a text. -/
structure FlushError where
  spool : String
  deriving DecidableEq, Repr

/-- What reading a listed file gives; a file that is gone is no error. -/
inductive Reading where
  | served | vanished | failed (error : String)

/-- What `Spool::store` of another thread does to the directory. -/
inductive Change where
  | store (file : File)
  | evict (name : String)

def Change.apply (dir : Directory) : Change → Directory
  | .store file => rename file dir
  | .evict name => remove name dir

/-- The loop of `Spool::oldest`. `purged` tells of which corrupt files the
deletion succeeds. -/
def oldestLoop (env : Crates) (reading : File → Reading) (purged : File → Bool) :
    List File → Directory → Directory × Except String (Option (File × Event))
  | [], dir => (dir, .ok none)
  | f :: fs, dir =>
    match reading f with
    | .vanished => oldestLoop env reading purged fs (remove f.name dir)
    | .failed error => (dir, .error error)
    | .served =>
      match env.eventFromSlice f.bytes with
      | .ok event => (dir, .ok (some (f, event)))
      | .error _ =>
        oldestLoop env reading purged fs (if purged f then remove f.name dir else dir)

/-- One round of the loop. `before` and `during` are what other threads do before
the search and while the event is posted, `listed` and `counted` the errors of the
two listings, if any, and `removed` tells whether the deletion succeeds. -/
structure Round where
  expired : Bool
  before : List Change
  listed : Option String
  reading : File → Reading
  purged : File → Bool
  answer : Except String Nat
  during : List Change
  removed : Bool
  counted : Option String

/-- The running call: `posted` holds the files it has sent, each with the round
that sent it. -/
structure State where
  dir : Directory
  delivered : Nat
  posted : List (File × Round)
  result : Option (Except FlushError FlushReport)

def State.start (dir : Directory) : State := ⟨dir, 0, [], none⟩

/-- `Spool::oldest`. -/
def oldest (env : Crates) (r : Round) (dir : Directory) :
    Directory × Except String (Option (File × Event)) :=
  match r.listed with
  | some error => (dir, .error error)
  | none => oldestLoop env r.reading r.purged (paths dir) dir

/-- The report with the files that remain, or the error of `len`. -/
def report (delivered : Nat) (counted : Option String) (dir : Directory) :
    Except FlushError FlushReport :=
  match counted with
  | some error => .error ⟨error⟩
  | none => .ok ⟨delivered, (paths dir).length⟩

/-- The file was answered for good; the result of its deletion is discarded. -/
def State.discard (s : State) (r : Round) (file : File) (dir : Directory) : State :=
  { s with dir := if r.removed then remove file.name dir else dir }

/-- `deliver` and what comes after it, with the file and the directory of the search. -/
def State.deliver (s : State) (r : Round) (file : File) (dir : Directory) : State :=
  let dir := r.during.foldl Change.apply dir
  let s := { s with posted := s.posted ++ [(file, r)] }
  match outcome r.answer with
  | .delivered => { s.discard r file dir with delivered := s.delivered + 1 }
  | .permanentFailure => s.discard r file dir
  | .retry => { s with dir, result := some (report s.delivered r.counted dir) }

/-- One round; `none` once the call has returned. -/
def step (env : Crates) (s : State) (r : Round) : Option State :=
  match s.result with
  | some _ => none
  | none =>
    let dir := r.before.foldl Change.apply s.dir
    if r.expired then some { s with dir, result := some (report s.delivered r.counted dir) }
    else match oldest env r dir with
      | (dir, .error error) => some { s with dir, result := some (.error ⟨error⟩) }
      | (dir, .ok none) => some { s with dir, result := some (.ok ⟨s.delivered, 0⟩) }
      | (dir, .ok (some (file, _))) => some (s.deliver r file dir)

/-- The file that the round posts. -/
def found (env : Crates) (s : State) (r : Round) : Option File :=
  if r.expired then none
  else match (oldest env r (r.before.foldl Change.apply s.dir)).2 with
    | .ok (some (file, _)) => some file
    | .ok none | .error _ => none

/-- The file that the round posts is answered for good, and its deletion fails. -/
def Round.keeps (r : Round) : Bool := outcome r.answer != .retry && !r.removed

/-- The file is read as an event. -/
def Reads (env : Crates) (r : Round) (f : File) : Bool :=
  match r.reading f with
  | .served => (env.eventFromSlice f.bytes).isOk
  | .vanished | .failed _ => false

/-- No search goes past the file. -/
def Stops (env : Crates) (r : Round) (f : File) : Bool :=
  match r.reading f with
  | .served => (env.eventFromSlice f.bytes).isOk
  | .vanished => false
  | .failed _ => true

/-- Every answered file is deleted, or evicted before the next search, or the call
is over by then. -/
def Settled (s : State) (r : Round) : Prop :=
  r.expired = true ∨ r.listed.isSome = true ∨ ∀ p ∈ s.posted, p.2.keeps = true →
    ∀ f ∈ r.before.foldl Change.apply s.dir, f.name ≠ p.1.name

/-- The same, or a file that stayed cannot be read any more or comes after one
that no search goes past. -/
def Clear (env : Crates) (s : State) (r : Round) : Prop :=
  r.expired = true ∨ r.listed.isSome = true ∨ ∀ earlier f later,
    paths (r.before.foldl Change.apply s.dir) = earlier ++ f :: later →
      (∃ p ∈ s.posted, p.2.keeps = true ∧ p.1.name = f.name) → Reads env r f = true →
        ∃ g ∈ earlier, Stops env r g = true

/-- Names of new files are new. -/
def Fresh (s : State) (r : Round) : Prop :=
  ∀ file, .store file ∈ r.before ++ r.during → ∀ p ∈ s.posted, p.1.name ≠ file.name

/-- No other thread stores an event. -/
def Round.quiet (r : Round) : Prop := r.before = [] ∧ r.during = []

/-- Names of the posted files. -/
def State.names (s : State) : List String := s.posted.map fun p => p.1.name

/-- Names of the files the server accepted. -/
def State.accepted (s : State) : List String :=
  (s.posted.filter fun p => outcome p.2.answer = .delivered).map fun p => p.1.name

/-- No file is posted twice, the report counts different files, and without
concurrent stores the call returns after at most one round a file and one more. -/
structure OnceEach (dir : Directory) (rounds : List Round) (s : State) : Prop where
  posted : s.names.Nodup
  delivered : s.delivered = s.accepted.dedup.length
  reported : ∀ report, s.result = some (.ok report) → report.delivered = s.accepted.dedup.length
  rounds : (∀ r ∈ rounds, r.quiet) → rounds.length ≤ dir.length + 1 ∧
    (rounds.length = dir.length + 1 → s.result.isSome)

variable {env : Crates} {s t : State} {r : Round}

theorem mem_changes {changes : List Change} {dir : Directory} {f : File}
    (h : f ∈ changes.foldl Change.apply dir) : f ∈ dir ∨ .store f ∈ changes := by
  induction changes generalizing dir with
  | nil => exact .inl h
  | cons change changes ih =>
    rcases ih h with h | h
    · cases change with
      | store file =>
        rcases mem_rename_iff.mp h with ⟨h, -⟩ | rfl
        · exact .inl h
        · exact .inr List.mem_cons_self
      | evict name => exact .inl (mem_remove h)
    · exact .inr (List.mem_cons_of_mem _ h)

theorem oldestLoop_spec {reading : File → Reading} {purged : File → Bool} {files : List File}
    {dir after : Directory} {result : Except String (Option (File × Event))}
    (h : oldestLoop env reading purged files dir = (after, result)) :
    (∀ f ∈ after, f ∈ dir) ∧ ∀ f event, result = .ok (some (f, event)) → f ∈ files := by
  induction files generalizing dir with
  | nil =>
    cases h
    exact ⟨fun _ hf => hf, fun f event h => by cases h⟩
  | cons g files ih =>
    have hskip : ∀ dir', (∀ f ∈ dir', f ∈ dir) → oldestLoop env reading purged files dir' =
        (after, result) → (∀ f ∈ after, f ∈ dir) ∧
          ∀ f event, result = .ok (some (f, event)) → f ∈ g :: files := by
      intro dir' hsub h
      obtain ⟨hafter, hfound⟩ := ih h
      exact ⟨fun f hf => hsub f (hafter f hf),
        fun f event h => List.mem_cons_of_mem g (hfound f event h)⟩
    rw [oldestLoop] at h
    split at h
    · exact hskip _ (fun _ => mem_remove) h
    · cases h
      exact ⟨fun _ hf => hf, fun f event h => by cases h⟩
    · split at h
      · cases h
        refine ⟨fun _ hf => hf, fun f event h => ?_⟩
        cases h
        exact List.mem_cons_self
      · refine hskip _ (fun f hf => ?_) h
        split at hf
        · exact mem_remove hf
        · exact hf

theorem oldest_spec {dir after : Directory} {result : Except String (Option (File × Event))}
    (h : oldest env r dir = (after, result)) :
    (∀ f ∈ after, f ∈ dir) ∧ ∀ f event, result = .ok (some (f, event)) → f ∈ dir := by
  unfold oldest at h
  split at h
  · cases h
    exact ⟨fun _ hf => hf, fun f event h => by cases h⟩
  · obtain ⟨hsub, hfound⟩ := oldestLoop_spec h
    exact ⟨hsub, fun f event h => mem_paths.mp (hfound f event h)⟩

/-- The call returns at this round without posting. -/
structure Ended (env : Crates) (s : State) (r : Round) (t : State) : Prop where
  found : found env s r = none
  posted : t.posted = s.posted
  delivered : t.delivered = s.delivered
  returned : t.result.isSome
  reported : ∀ report, t.result = some (.ok report) → report.delivered = s.delivered
  dir : ∀ f ∈ t.dir, f ∈ s.dir ∨ .store f ∈ r.before ++ r.during

/-- The round posts the file it has found. -/
structure Sent (env : Crates) (s : State) (r : Round) (file : File) (t : State) : Prop where
  found : found env s r = some file
  mem : file ∈ s.dir ∨ .store file ∈ r.before
  posted : t.posted = s.posted ++ [(file, r)]
  delivered : t.delivered = s.delivered + if outcome r.answer = .delivered then 1 else 0
  returned : outcome r.answer = .retry ↔ t.result.isSome
  reported : ∀ report, t.result = some (.ok report) → report.delivered = t.delivered
  dir : ∀ f ∈ t.dir, f ∈ s.dir ∨ .store f ∈ r.before ++ r.during
  gone : outcome r.answer ≠ .retry → r.removed = true → ∀ f ∈ t.dir, f.name ≠ file.name

theorem reported_of_report {delivered : Nat} {counted : Option String} {dir : Directory}
    {result : FlushReport} (h : report delivered counted dir = .ok result) :
    result.delivered = delivered := by
  unfold report at h
  split at h <;> cases h
  rfl

/-- After an answer for good, whatever comes of the deletion. -/
theorem sent_discard {file : File} {after : Directory} (count : Nat)
    (hfound : found env s r = some file) (hmem : file ∈ s.dir ∨ .store file ∈ r.before)
    (hafter : ∀ f ∈ after, f ∈ s.dir ∨ .store f ∈ r.before) (hrunning : s.result = none)
    (hanswer : outcome r.answer ≠ .retry)
    (hcount : count = s.delivered + if outcome r.answer = .delivered then 1 else 0) :
    Sent env s r file
      { State.discard { s with posted := s.posted ++ [(file, r)] } r file
          (r.during.foldl Change.apply after) with delivered := count } where
  found := hfound
  mem := hmem
  posted := rfl
  delivered := hcount
  returned := by simp [State.discard, hanswer, hrunning]
  reported result hresult := by
    rw [State.discard, hrunning] at hresult
    cases hresult
  dir f hf := by
    have hf : f ∈ r.during.foldl Change.apply after := by
      simp only [State.discard] at hf
      split at hf
      · exact mem_remove hf
      · exact hf
    rcases mem_changes hf with hf | hf
    · exact (hafter f hf).imp id (List.mem_append_left _)
    · exact .inr (List.mem_append_right _ hf)
  gone _ hremoved f hf := by
    simp only [State.discard, hremoved, if_true] at hf
    exact (mem_remove_iff.mp hf).2

theorem sent_deliver {file : File} {after : Directory} (hfound : found env s r = some file)
    (hmem : file ∈ s.dir ∨ .store file ∈ r.before)
    (hafter : ∀ f ∈ after, f ∈ s.dir ∨ .store f ∈ r.before) (hrunning : s.result = none) :
    Sent env s r file (s.deliver r file after) := by
  have hdiscard := fun count => sent_discard count hfound hmem hafter hrunning
  unfold State.deliver
  cases hanswer : outcome r.answer with
  | delivered =>
    rw [hanswer] at hdiscard
    exact hdiscard (s.delivered + 1) (by simp) (by simp)
  | permanentFailure =>
    rw [hanswer] at hdiscard
    exact hdiscard s.delivered (by simp) (by simp)
  | retry =>
    refine ⟨hfound, hmem, rfl, by simp [hanswer], by simp [hanswer],
      fun result hresult => reported_of_report (Option.some.inj hresult), fun f hf => ?_,
      fun hne => absurd hanswer hne⟩
    rcases mem_changes hf with hf | hf
    · exact (hafter f hf).imp id (List.mem_append_left _)
    · exact .inr (List.mem_append_right _ hf)

theorem step_cases (h : step env s r = some t) :
    s.result = none ∧ (Ended env s r t ∨ ∃ file, Sent env s r file t) := by
  unfold step at h
  split at h
  · cases h
  · next hrunning =>
    refine ⟨hrunning, ?_⟩
    have hbefore : ∀ f ∈ r.before.foldl Change.apply s.dir, f ∈ s.dir ∨ .store f ∈ r.before :=
      fun f => mem_changes
    have hdir : ∀ f, f ∈ s.dir ∨ .store f ∈ r.before →
        f ∈ s.dir ∨ .store f ∈ r.before ++ r.during :=
      fun f hf => hf.imp id (List.mem_append_left _)
    by_cases hexpired : r.expired
    · simp only [hexpired, if_true, Option.some.injEq] at h
      subst h
      refine .inl ⟨by simp [found, hexpired], rfl, rfl, rfl, fun result hresult => ?_,
        fun f hf => hdir f (hbefore f hf)⟩
      exact reported_of_report (Option.some.inj hresult)
    · simp only [hexpired, Bool.false_eq_true, if_false] at h
      cases hsearch : oldest env r (r.before.foldl Change.apply s.dir) with
      | mk after result =>
        obtain ⟨hsub, hmem⟩ := oldest_spec hsearch
        have hafter : ∀ f ∈ after, f ∈ s.dir ∨ .store f ∈ r.before := fun f hf =>
          hbefore f (hsub f hf)
        rw [hsearch] at h
        cases result with
        | error error =>
          cases h
          refine .inl ⟨by simp [found, hexpired, hsearch], rfl, rfl, rfl, fun result hresult => ?_,
            fun f hf => hdir f (hafter f hf)⟩
          cases hresult
        | ok picked =>
          cases picked with
          | none =>
            cases h
            refine .inl ⟨by simp [found, hexpired, hsearch], rfl, rfl, rfl, fun result hresult => ?_,
              fun f hf => hdir f (hafter f hf)⟩
            cases hresult
            rfl
          | some picked =>
            obtain ⟨file, event⟩ := picked
            obtain rfl := Option.some.inj h
            exact .inr ⟨file, sent_deliver (by simp [found, hexpired, hsearch])
              (hbefore file (hmem file event rfl)) hafter hrunning⟩

/-- While the call runs, a posted file is gone, or it could not be deleted. -/
structure Inv (s : State) : Prop where
  gone : s.result = none → ∀ p ∈ s.posted, p.2.keeps = true ∨ ∀ f ∈ s.dir, f.name ≠ p.1.name
  delivered : s.delivered = s.accepted.length
  reported : ∀ report, s.result = some (.ok report) → report.delivered = s.delivered

theorem accepted_sent {file : File} (h : Sent env s r file t) :
    t.accepted.length = s.accepted.length + if outcome r.answer = .delivered then 1 else 0 := by
  simp only [State.accepted, h.posted, List.filter_append, List.map_append, List.length_append]
  by_cases hanswer : outcome r.answer = .delivered <;> simp [hanswer]

theorem inv_sent {file : File} (h : Inv s) (hrunning : s.result = none) (hfresh : Fresh s r)
    (hs : Sent env s r file t) : Inv t where
  gone hresult p hp := by
    have hanswer : outcome r.answer ≠ .retry := by
      intro hretry
      have := hs.returned.mp hretry
      rw [hresult] at this
      cases this
    rw [hs.posted] at hp
    rcases List.mem_append.mp hp with hp | hp
    · rcases h.gone hrunning p hp with hkeeps | hgone
      · exact .inl hkeeps
      · refine .inr fun f hf => ?_
        rcases hs.dir f hf with hf | hf
        · exact hgone f hf
        · exact (hfresh f hf p hp).symm
    · obtain rfl := List.mem_singleton.mp hp
      cases hremoved : r.removed with
      | true => exact .inr (hs.gone hanswer hremoved)
      | false => exact .inl (by simp [Round.keeps, hanswer, hremoved])
  delivered := by rw [hs.delivered, accepted_sent hs, h.delivered]
  reported := hs.reported

theorem inv_step (h : Inv s) (hfresh : Fresh s r) (hstep : step env s r = some t) : Inv t := by
  obtain ⟨hrunning, hended | ⟨file, hsent⟩⟩ := step_cases hstep
  · refine ⟨fun hresult => ?_, ?_, fun report hreport => ?_⟩
    · have := hended.returned
      rw [hresult] at this
      cases this
    · have haccepted : t.accepted = s.accepted := by simp only [State.accepted, hended.posted]
      rw [hended.delivered, h.delivered, haccepted]
    · rw [hended.reported report hreport, hended.delivered]
  · exact inv_sent h hrunning hfresh hsent

theorem names_sent {file : File} (h : Sent env s r file t) : t.names = s.names ++ [file.name] := by
  simp [State.names, h.posted]

theorem names_ended (h : Ended env s r t) : t.names = s.names := by
  rw [State.names, h.posted, State.names]

/-- The first file that is read, with none before it that no search goes past. -/
def First (env : Crates) (r : Round) (files : List File) (f : File) : Prop :=
  ∃ earlier later, files = earlier ++ f :: later ∧ Reads env r f = true ∧
    ∀ g ∈ earlier, Stops env r g = false

theorem first_cons {g f : File} {files : List File} : First env r (g :: files) f ↔
    (g = f ∧ Reads env r g = true) ∨ (Stops env r g = false ∧ First env r files f) := by
  constructor
  · rintro ⟨earlier, later, hfiles, hreads, hpassed⟩
    cases earlier with
    | nil =>
      obtain ⟨rfl, -⟩ := List.cons.inj hfiles
      exact .inl ⟨rfl, hreads⟩
    | cons g' earlier =>
      obtain ⟨rfl, hrest⟩ := List.cons.inj hfiles
      obtain ⟨hg, hpassed⟩ := List.forall_mem_cons.mp hpassed
      exact .inr ⟨hg, earlier, later, hrest, hreads, hpassed⟩
  · rintro (⟨rfl, hreads⟩ | ⟨hg, earlier, later, rfl, hreads, hpassed⟩)
    · exact ⟨[], files, rfl, hreads, fun _ h => (List.not_mem_nil h).elim⟩
    · exact ⟨g :: earlier, later, rfl, hreads, List.forall_mem_cons.mpr ⟨hg, hpassed⟩⟩

/-- The loop comes to the first such file. -/
theorem oldestLoop_eq_ok {files : List File} {dir : Directory} {f : File} :
    (∃ event, (oldestLoop env r.reading r.purged files dir).2 = .ok (some (f, event))) ↔
      First env r files f := by
  induction files generalizing dir with
  | nil =>
    refine iff_of_false (fun ⟨event, h⟩ => ?_) fun ⟨earlier, later, h, _⟩ => ?_
    · cases h
    · simp at h
  | cons g files ih =>
    rw [first_cons, oldestLoop]
    unfold Reads Stops
    cases hreading : r.reading g with
    | vanished => simpa using ih
    | failed error => simp
    | served =>
      cases hread : env.eventFromSlice g.bytes with
      | ok event =>
        simp [Except.isOk, Except.toBool]
      | error e => simpa [Except.isOk, Except.toBool] using ih

theorem found_eq_some {file : File} : found env s r = some file ↔ r.expired = false ∧
    r.listed = none ∧ First env r (paths (r.before.foldl Change.apply s.dir)) file := by
  unfold found oldest
  cases r.expired with
  | true => simp
  | false =>
    cases r.listed with
    | some error => simp
    | none =>
      rw [← @oldestLoop_eq_ok env r _ (r.before.foldl Change.apply s.dir)]
      simp only [Bool.false_eq_true, if_false, true_and]
      cases (oldestLoop env r.reading r.purged (paths (r.before.foldl Change.apply s.dir))
        (r.before.foldl Change.apply s.dir)).2 with
      | error e => simp
      | ok picked =>
        cases picked with
        | none => simp
        | some picked => simp [Prod.ext_iff]

/-- A file that was posted before is found only if its deletion failed. -/
theorem clear_iff (h : Inv s) (hfresh : Fresh s r) (hstep : step env s r = some t)
    (hnodup : s.names.Nodup) : t.names.Nodup ↔ Clear env s r := by
  obtain ⟨hrunning, hstep⟩ := step_cases hstep
  constructor
  · intro ht
    cases hexpired : r.expired with
    | true => exact .inl hexpired
    | false =>
      cases hlisted : r.listed with
      | some error => exact .inr (.inl (by rw [hlisted]; rfl))
      | none =>
        refine .inr (.inr fun earlier f later hpaths ⟨p, hp, _, hname⟩ hreads => ?_)
        by_contra hnone
        simp only [not_exists, not_and, Bool.not_eq_true] at hnone
        have hfound := found_eq_some.mpr ⟨hexpired, hlisted, earlier, later, hpaths, hreads, hnone⟩
        rcases hstep with hended | ⟨file, hsent⟩
        · rw [hended.found] at hfound
          cases hfound
        · obtain rfl : file = f := Option.some.inj (hsent.found.symm.trans hfound)
          rw [names_sent hsent] at ht
          exact (List.nodup_append.mp ht).2.2 file.name (List.mem_map.mpr ⟨p, hp, hname⟩) file.name
            (List.mem_singleton_self _) rfl
  · intro hclear
    rcases hstep with hended | ⟨file, hsent⟩
    · exact names_ended hended ▸ hnodup
    · obtain ⟨hexpired, hlisted, earlier, later, hpaths, hreads, hpassed⟩ := found_eq_some.mp hsent.found
      rw [names_sent hsent]
      refine List.nodup_append.mpr ⟨hnodup, List.nodup_singleton _, ?_⟩
      intro name hmem name' hname' hsame
      obtain rfl := List.mem_singleton.mp hname'
      obtain ⟨p, hp, hpname⟩ := List.mem_map.mp hmem
      have hname : p.1.name = file.name := hpname.trans hsame
      rcases h.gone hrunning p hp with hkeeps | hgone
      · rw [Clear, hexpired, hlisted] at hclear
        obtain ⟨g, hg, hstops⟩ := ((hclear.resolve_left Bool.false_ne_true).resolve_left
          Bool.false_ne_true) earlier file later hpaths ⟨p, hp, hkeeps, hname⟩ hreads
        rw [hpassed g hg] at hstops
        cases hstops
      · rcases hsent.mem with hdir | hstored
        · exact hgone file hdir hname.symm
        · exact hfresh file (List.mem_append_left _ hstored) p hp hname

theorem inv_start (dir : Directory) : Inv (State.start dir) where
  gone _ p hp := by cases hp
  delivered := rfl
  reported report h := by cases h

theorem names_step (h : step env s r = some t) : s.names <+: t.names := by
  obtain ⟨-, hended | ⟨file, hsent⟩⟩ := step_cases h
  · rw [names_ended hended]
  · rw [names_sent hsent]
    exact List.prefix_append _ _

/-- What a call posts twice, it posts twice at some round. -/
theorem clear_of_nodup {rounds : List Round} (hrun : Runs.run (step env) rounds s = some t)
    (hfresh : Runs.Along (step env) Fresh rounds s) (h : Inv s) (hnodup : t.names.Nodup) :
    Runs.Along (step env) (Clear env) rounds s := by
  induction rounds generalizing s with
  | nil => trivial
  | cons r rounds ih =>
    obtain ⟨u, hu, hrun⟩ := Runs.run_cons_some.mp hrun
    have hprefix : u.names <+: t.names := Runs.run_relation_of (I := fun _ => True)
      (R := fun s t => s.names <+: t.names) (fun _ => List.prefix_rfl)
      (fun _ _ _ => List.IsPrefix.trans) (fun _ _ _ _ _ => trivial) (fun _ _ _ _ h => names_step h)
      hrun trivial
    have hunodup := hnodup.sublist hprefix.sublist
    have hclear := (clear_iff h hfresh.1 hu (hunodup.sublist (names_step hu).sublist)).mp hunodup
    refine ⟨hclear, fun v hv => ?_⟩
    obtain rfl : u = v := Option.some.inj (hu.symm.trans hv)
    exact ih hrun (hfresh.2 u hu) (inv_step h hfresh.1 hu)

/-- Each round but the last posts a file. -/
theorem length_run {rounds : List Round} (hrun : Runs.run (step env) rounds s = some t) :
    s.names.length + rounds.length ≤ t.names.length + 1 ∧
      (t.result = none → s.names.length + rounds.length = t.names.length) := by
  induction rounds generalizing s with
  | nil =>
    obtain rfl : s = t := Option.some.inj hrun
    exact ⟨by simp, fun _ => rfl⟩
  | cons r rounds ih =>
    obtain ⟨u, hu, hrun⟩ := Runs.run_cons_some.mp hrun
    have hlast : u.result.isSome → rounds = [] ∧ u = t := by
      intro hreturned
      cases rounds with
      | nil => exact ⟨rfl, Option.some.inj hrun⟩
      | cons r' rounds =>
        obtain ⟨v, hv, -⟩ := Runs.run_cons_some.mp hrun
        rw [(step_cases hv).1] at hreturned
        cases hreturned
    obtain ⟨hle, heq⟩ := ih hrun
    obtain ⟨-, hended | ⟨file, hsent⟩⟩ := step_cases hu
    · obtain ⟨rfl, rfl⟩ := hlast hended.returned
      refine ⟨by simp [names_ended hended], fun hnone => ?_⟩
      have := hended.returned
      rw [hnone] at this
      cases this
    · have hnames : u.names.length = s.names.length + 1 := by simp [names_sent hsent]
      simp only [List.length_cons]
      exact ⟨by omega, fun hnone => by have := heq hnone; omega⟩

/-- Without concurrent stores only files that were there at the start are posted. -/
structure Within (names : List String) (s : State) : Prop where
  dir : ∀ f ∈ s.dir, f.name ∈ names
  posted : ∀ name ∈ s.names, name ∈ names

theorem within_step {names : List String} (h : Within names s) (hquiet : r.quiet)
    (hstep : step env s r = some t) : Within names t := by
  obtain ⟨hbefore, hduring⟩ := hquiet
  obtain ⟨-, hended | ⟨file, hsent⟩⟩ := step_cases hstep
  · refine ⟨fun f hf => ?_, names_ended hended ▸ h.posted⟩
    have hf := hended.dir f hf
    rw [hbefore, hduring] at hf
    exact h.dir f (hf.resolve_right List.not_mem_nil)
  · refine ⟨fun f hf => ?_, fun name hname => ?_⟩
    · have hf := hsent.dir f hf
      rw [hbefore, hduring] at hf
      exact h.dir f (hf.resolve_right List.not_mem_nil)
    · rw [names_sent hsent] at hname
      rcases List.mem_append.mp hname with hname | hname
      · exact h.posted name hname
      · obtain rfl := List.mem_singleton.mp hname
        have hmem := hsent.mem
        rw [hbefore] at hmem
        exact h.dir file (hmem.resolve_right List.not_mem_nil)

theorem within_run {names : List String} {rounds : List Round} (h : Within names s)
    (hquiet : ∀ r ∈ rounds, r.quiet) (hrun : Runs.run (step env) rounds s = some t) :
    Within names t := by
  induction rounds generalizing s with
  | nil =>
    obtain rfl : s = t := Option.some.inj hrun
    exact h
  | cons r rounds ih =>
    obtain ⟨u, hu, hrun⟩ := Runs.run_cons_some.mp hrun
    exact ih (within_step h (hquiet r List.mem_cons_self) hu)
      (fun r' hr' => hquiet r' (List.mem_cons_of_mem r hr')) hrun

theorem clear_of_settled (h : Settled s r) : Clear env s r := by
  rcases h with hexpired | hlisted | hgone
  · exact .inl hexpired
  · exact .inr (.inl hlisted)
  · refine .inr (.inr fun earlier f later hpaths ⟨p, hp, hkeeps, hname⟩ _ => ?_)
    refine absurd hname.symm (hgone p hp hkeeps f (mem_paths.mp ?_))
    rw [hpaths]
    exact List.mem_append_right _ List.mem_cons_self

theorem onceEach_of_clear {dir : Directory} {rounds : List Round}
    (hrun : Runs.run (step env) rounds (State.start dir) = some t)
    (hfresh : Runs.Along (step env) Fresh rounds (State.start dir))
    (hclear : Runs.Along (step env) (Clear env) rounds (State.start dir)) : OnceEach dir rounds t := by
  obtain ⟨hinv, hnodup⟩ : Inv t ∧ t.names.Nodup :=
    Runs.along_invariant (I := fun s => Inv s ∧ s.names.Nodup)
      (fun s r u h hc hs => ⟨inv_step h.1 hc.1 hs, (clear_iff h.1 hc.1 hs h.2).mpr hc.2⟩)
      hrun (hfresh.and hclear) ⟨inv_start dir, List.nodup_nil⟩
  have haccepted : t.accepted.dedup.length = t.accepted.length := by
    have hsub : t.accepted.Sublist t.names := List.filter_sublist.map _
    rw [(hnodup.sublist hsub).dedup]
  refine ⟨hnodup, hinv.delivered.trans haccepted.symm, fun report hreport => ?_, fun hquiet => ?_⟩
  · rw [hinv.reported report hreport, hinv.delivered, haccepted]
  · have hwithin : Within (dir.map File.name) t := within_run
      ⟨fun f hf => List.mem_map_of_mem hf, fun name h => by cases h⟩ hquiet hrun
    have hle : t.names.length ≤ dir.length := by
      have hsub : t.names ⊆ dir.map File.name := hwithin.posted
      have := (List.subperm_of_subset hnodup hsub).length_le
      simpa using this
    obtain ⟨hlength, hnone⟩ := length_run hrun
    have hstart : (State.start dir).names.length = 0 := rfl
    refine ⟨by omega, fun hmany => ?_⟩
    cases hresult : t.result with
    | some result => rfl
    | none =>
      have := hnone hresult
      omega

theorem settled_of_removed {rounds : List Round} (h : ∀ r ∈ rounds, r.removed = true)
    (hposted : ∀ p ∈ s.posted, p.2.removed = true) : Runs.Along (step env) Settled rounds s := by
  induction rounds generalizing s with
  | nil => trivial
  | cons r rounds ih =>
    obtain ⟨hr, hrounds⟩ := List.forall_mem_cons.mp h
    refine ⟨.inr (.inr fun p hp hkeeps => ?_), fun t ht => ih hrounds ?_⟩
    · rw [Round.keeps, hposted p hp] at hkeeps
      simp at hkeeps
    · obtain ⟨-, hended | ⟨file, hsent⟩⟩ := step_cases ht
      · rw [hended.posted]
        exact hposted
      · rw [hsent.posted]
        exact List.forall_mem_append.mpr ⟨hposted, List.forall_mem_singleton.mpr hr⟩

/-- Nobody stores a file whose name could be an old one. -/
theorem fresh_of_quiet {rounds : List Round} (h : ∀ r ∈ rounds, r.quiet) :
    Runs.Along (step env) Fresh rounds s := by
  induction rounds generalizing s with
  | nil => trivial
  | cons r rounds ih =>
    obtain ⟨⟨hbefore, hduring⟩, hrounds⟩ := List.forall_mem_cons.mp h
    refine ⟨fun file hfile => ?_, fun t _ => ih hrounds⟩
    rw [hbefore, hduring] at hfile
    exact (List.not_mem_nil hfile).elim

/-- For every spool, every sequence of answers, failures of the file system and
stores of other threads: one call sends each file at most once, counts each once,
and ends in time, exactly if no file that could not be deleted is still there to be
read; in particular if every one is deleted or evicted in time. -/
theorem drain_once {dir : Directory} {rounds : List Round}
    (hrun : Runs.run (step env) rounds (State.start dir) = some t)
    (hfresh : Runs.Along (step env) Fresh rounds (State.start dir)) :
    (OnceEach dir rounds t ↔ Runs.Along (step env) (Clear env) rounds (State.start dir)) ∧
      (Runs.Along (step env) Settled rounds (State.start dir) → OnceEach dir rounds t) := by
  refine ⟨⟨fun h => clear_of_nodup hrun hfresh (inv_start dir) h.posted, onceEach_of_clear hrun hfresh⟩,
    fun hsettled => onceEach_of_clear hrun hfresh (hsettled.mono fun _ _ => clear_of_settled)⟩

/-- A round in which the file system serves everything and nobody interferes. -/
structure Round.Plain (r : Round) : Prop where
  running : r.expired = false
  quiet : r.quiet
  listed : r.listed = none
  reading : ∀ f, r.reading f = .served
  purged : ∀ f, r.purged f = true

theorem oldestLoop_plain (h : r.Plain) (files : List File) (dir : Directory) :
    oldestLoop env r.reading r.purged files dir =
      ((Spool.oldestLoop env files dir).1, .ok (Spool.oldestLoop env files dir).2) := by
  induction files generalizing dir with
  | nil => rfl
  | cons f files ih =>
    rw [oldestLoop, Spool.oldestLoop, h.reading, h.purged]
    cases env.eventFromSlice f.bytes with
    | ok event => rfl
    | error e => exact ih _

/-- The sender thread between two searches of the call, or after it. -/
structure Tracks (w : Blocking.World) (s : State) : Prop where
  disk : w.disk = s.dir
  storing : w.storing = none
  sender : w.client.sender = if s.result.isSome then .waiting else .draining

section Sender

variable {config : Sdk.Config} {w : Blocking.World}

/-- A search that finds nothing ends the call. -/
theorem pick_none (htracks : Tracks w s) (hrunning : s.result = none) {dir : Directory}
    (hsearch : Spool.oldestLoop env (paths s.dir) s.dir = (dir, none)) :
    ∃ w', Runs.run (Blocking.step env config) [.pick (paths s.dir).length] w = some w' ∧
      Tracks w' { s with dir, result := some (.ok ⟨s.delivered, 0⟩) } := by
  have hsender : w.client.sender = .draining := by rw [htracks.sender, hrunning]; rfl
  refine ⟨{ w with disk := dir }.setSender .waiting, ?_, rfl, htracks.storing, rfl⟩
  simp [Blocking.step, hsender, htracks.storing, htracks.disk, hsearch]

/-- A search that finds a file is followed by a request, its answer, and the
deletion when the file is answered for good. -/
theorem pick_some (htracks : Tracks w s) (hrunning : s.result = none) (hduring : r.during = [])
    {dir : Directory} {file : File} {event : Event} {body : Bytes}
    (hsearch : Spool.oldestLoop env (paths s.dir) s.dir = (dir, some (file, event)))
    (hbody : env.eventToVec event = .ok body) :
    ∃ labels w', Runs.run (Blocking.step env config) labels w = some w' ∧
      Tracks w' (s.deliver r file dir) := by
  have hsender : w.client.sender = .draining := by rw [htracks.sender, hrunning]; rfl
  have hpick : Blocking.step env config w (.pick (paths s.dir).length) =
      some ({ w with disk := dir }.setSender (.redelivering file.name ⟨file.origin, event⟩)) := by
    simp [Blocking.step, hsender, htracks.storing, htracks.disk, hsearch]
  have htransmit : Blocking.step env config ({ w with disk := dir }.setSender
      (.redelivering file.name ⟨file.origin, event⟩)) .transmit =
        some ({ w with disk := dir }.setSender (.reposted file.name ⟨file.origin, event⟩)) := by
    simp [Blocking.step, Sender.outgoing, Blocking.World.setSender, hbody]
  have hposted : Runs.run (Blocking.step env config)
      [.pick (paths s.dir).length, .transmit, .answer r.answer] w =
        Blocking.answer ({ w with disk := dir }.setSender
          (.reposted file.name ⟨file.origin, event⟩)) r.answer := by
    rw [Runs.run_cons, hpick, Option.bind_some, Runs.run_cons, htransmit, Option.bind_some,
      Runs.run_singleton]
    rfl
  have hanswered : ∀ sender,
      (Sender.reposted file.name ⟨file.origin, event⟩).settle (outcome r.answer) = some sender →
        ∃ w', Runs.run (Blocking.step env config)
          [.pick (paths s.dir).length, .transmit, .answer r.answer] w = some w' ∧
            w'.disk = dir ∧ w'.storing = none ∧ w'.client.sender = sender := by
    intro sender hsettle
    exact ⟨_, hposted.trans (Option.map_eq_some_iff.mpr ⟨sender, hsettle, rfl⟩), rfl,
      htracks.storing, rfl⟩
  cases hanswer : outcome r.answer with
  | retry =>
    obtain ⟨w', hw', hdisk', hstoring', hsender'⟩ := hanswered .waiting (by rw [hanswer]; rfl)
    refine ⟨_, w', hw', ?_, hstoring', ?_⟩
    · simp [State.deliver, hanswer, hduring, hdisk']
    · simp [State.deliver, hanswer, hsender']
  | delivered | permanentFailure =>
    obtain ⟨w', hw', hdisk', hstoring', hsender'⟩ :=
      hanswered (.removing file.name) (by rw [hanswer]; rfl)
    have hremove : Blocking.step env config w' (.remove r.removed) = some ({ w' with
        disk := if r.removed then remove file.name w'.disk else w'.disk }.setSender .draining) := by
      simp only [Blocking.step, hsender']
    refine ⟨_, _, Runs.run_append_some.mpr ⟨w', hw',
      (Runs.run_singleton (.remove r.removed) w').trans hremove⟩, ?_, ?_, ?_⟩
    · simp [State.deliver, State.discard, hanswer, hduring, hdisk', Blocking.World.setSender]
    · exact hstoring'
    · simp [State.deliver, State.discard, hanswer, hrunning, Blocking.World.setSender]

variable (hencodes : ∀ bytes event, env.eventFromSlice bytes = .ok event →
  ∃ body, env.eventToVec event = .ok body)

include hencodes

/-- Such a round is the work of the sender thread between two searches. -/
theorem round_sender (hplain : r.Plain) (htracks : Tracks w s) (hstep : step env s r = some t) :
    ∃ labels w', Runs.run (Blocking.step env config) labels w = some w' ∧ Tracks w' t := by
  obtain ⟨hbefore, hduring⟩ := hplain.quiet
  have hrunning := (step_cases hstep).1
  cases hsearch : Spool.oldestLoop env (paths s.dir) s.dir with
  | mk dir picked =>
    have holdest : oldest env r s.dir = (dir, .ok picked) := by
      rw [oldest, hplain.listed]
      dsimp only
      rw [oldestLoop_plain hplain, hsearch]
    simp only [step, hrunning, hplain.running, hbefore, List.foldl_nil, holdest, Bool.false_eq_true,
      if_false] at hstep
    cases picked with
    | none =>
      cases hstep
      exact ⟨_, pick_none htracks hrunning hsearch⟩
    | some picked =>
      cases hstep
      obtain ⟨body, hbody⟩ := hencodes _ _ ((Spool.oldestLoop_spec hsearch).2 _ _ rfl).2
      exact pick_some htracks hrunning hduring hsearch hbody

/-- A call that nothing interferes with is a run of the sender thread. -/
theorem run_sender {rounds : List Round} (hplain : ∀ r ∈ rounds, r.Plain) (htracks : Tracks w s)
    (hrun : Runs.run (step env) rounds s = some t) :
    ∃ labels w', Runs.run (Blocking.step env config) labels w = some w' ∧ Tracks w' t := by
  induction rounds generalizing s w with
  | nil =>
    obtain rfl : s = t := Option.some.inj hrun
    exact ⟨[], w, rfl, htracks⟩
  | cons r rounds ih =>
    obtain ⟨hr, hrounds⟩ := List.forall_mem_cons.mp hplain
    obtain ⟨u, hu, hrun⟩ := Runs.run_cons_some.mp hrun
    obtain ⟨labels, w', hw', htracks'⟩ := round_sender hencodes hr htracks hu
    obtain ⟨later, w'', hw'', htracks''⟩ := ih hrounds htracks' hrun
    exact ⟨labels ++ later, w'', Runs.run_append_some.mpr ⟨w', hw', hw''⟩, htracks''⟩

/-- A client that nobody interferes with and whose deletions succeed: the flush that the
sender thread has begun posts each file at most once and counts each once, and the
thread leaves the spool as the call does. -/
theorem sender_drains_once (hstoring : w.storing = none) (hsender : w.client.sender = .draining)
    {rounds : List Round} (hplain : ∀ r ∈ rounds, r.Plain) (hremoved : ∀ r ∈ rounds, r.removed = true)
    (hrun : Runs.run (step env) rounds (State.start w.disk) = some t) :
    OnceEach w.disk rounds t ∧
      ∃ labels w', Runs.run (Blocking.step env config) labels w = some w' ∧ Tracks w' t := by
  have hfresh : Runs.Along (step env) Fresh rounds (State.start w.disk) :=
    fresh_of_quiet fun r hr => (hplain r hr).quiet
  have hsettled : Runs.Along (step env) Settled rounds (State.start w.disk) :=
    settled_of_removed hremoved fun _ hp => (List.not_mem_nil hp).elim
  have htracks : Tracks w (State.start w.disk) := ⟨rfl, hstoring, hsender⟩
  exact ⟨onceEach_of_clear hrun hfresh (hsettled.mono fun _ _ => clear_of_settled),
    run_sender hencodes hplain htracks hrun⟩

end Sender

namespace Sample

/-- A directory with one event. -/
def spooled : Directory :=
  [⟨Blocking.fileName 1767323045000 0 "7d9f", Zbierak.Sample.eventBody "n", 0⟩]

/-- The server accepts the event, and its deletion goes as `removed` says. -/
def sent (removed : Bool) : Round where
  expired := false
  before := []
  listed := none
  reading := fun _ => .served
  purged := fun _ => true
  answer := .ok 202
  during := []
  removed := removed
  counted := none

end Sample

set_option maxRecDepth 20000 in
theorem drain_once_deleted :
    ∃ t, Runs.run (step (SpoolRuns.Sample.crates ["n"])) [Sample.sent true, Sample.sent true]
        (State.start Sample.spooled) = some t ∧
      OnceEach Sample.spooled [Sample.sent true, Sample.sent true] t := by
  have hsome : (Runs.run (step (SpoolRuns.Sample.crates ["n"])) [Sample.sent true, Sample.sent true]
      (State.start Sample.spooled)).isSome = true := by decide +kernel
  obtain ⟨t, ht⟩ := Option.isSome_iff_exists.mp hsome
  have hfresh : Runs.Along (step (SpoolRuns.Sample.crates ["n"])) Fresh [Sample.sent true, Sample.sent true]
      (State.start Sample.spooled) :=
    ⟨by simp [Fresh, Sample.sent], fun u _ => ⟨by simp [Fresh, Sample.sent], fun _ _ => trivial⟩⟩
  refine ⟨t, ht, (drain_once ht hfresh).2 (settled_of_removed (by simp [Sample.sent]) ?_)⟩
  exact fun p hp => (List.not_mem_nil hp).elim

/-- The sender thread of a client that has begun to flush this directory. -/
def Sample.draining : Blocking.World :=
  { Blocking.World.start Sample.spooled 0 with client := ⟨[], [], .draining⟩ }

set_option maxRecDepth 20000 in
theorem sender_drains_once_spooled :
    ∃ t, OnceEach Sample.spooled [Sample.sent true, Sample.sent true] t ∧
      ∃ labels w', Runs.run (Blocking.step (SpoolRuns.Sample.crates ["n"])
        ⟨none, "spool", 1000, 1, ⟨none, none, none, none⟩⟩) labels Sample.draining = some w' ∧
          Tracks w' t := by
  have hsome : (Runs.run (step (SpoolRuns.Sample.crates ["n"])) [Sample.sent true, Sample.sent true]
      (State.start Sample.spooled)).isSome = true := by decide +kernel
  obtain ⟨t, ht⟩ := Option.isSome_iff_exists.mp hsome
  have hencodes : ∀ bytes event, (SpoolRuns.Sample.crates ["n"]).eventFromSlice bytes = .ok event →
      ∃ body, (SpoolRuns.Sample.crates ["n"]).eventToVec event = .ok body := by
    intro bytes event h
    simp only [SpoolRuns.Sample.crates] at h
    split at h
    · cases h
      exact ⟨_, rfl⟩
    · cases h
  have hplain : ∀ r ∈ [Sample.sent true, Sample.sent true], r.Plain := by
    intro r hr
    obtain rfl : r = Sample.sent true := by simpa using hr
    exact ⟨rfl, ⟨rfl, rfl⟩, rfl, fun _ => rfl, fun _ => rfl⟩
  have hremoved : ∀ r ∈ [Sample.sent true, Sample.sent true], r.removed = true := by simp [Sample.sent]
  have hstoring : Sample.draining.storing = none := rfl
  exact ⟨t, sender_drains_once hencodes hstoring rfl hplain hremoved ht⟩

set_option maxRecDepth 20000 in
/-- The only file cannot be deleted: it is posted three times and counted three
times, and the call is still running. -/
theorem drain_repeats :
    ∃ t, Runs.run (step (SpoolRuns.Sample.crates ["n"]))
        [Sample.sent false, Sample.sent false, Sample.sent false] (State.start Sample.spooled) =
          some t ∧ t.delivered = 3 ∧ t.result.isNone ∧
      ¬ OnceEach Sample.spooled [Sample.sent false, Sample.sent false, Sample.sent false] t := by
  have hrun : ((Runs.run (step (SpoolRuns.Sample.crates ["n"]))
      [Sample.sent false, Sample.sent false, Sample.sent false] (State.start Sample.spooled)).map
        fun t => (t.names.length, t.accepted.dedup.length, t.delivered, t.result.isNone)) =
          some (3, 1, 3, true) := by
    decide +kernel
  obtain ⟨t, ht, hview⟩ := Option.map_eq_some_iff.mp hrun
  simp only [Prod.mk.injEq] at hview
  obtain ⟨-, hdistinct, hdelivered, hnone⟩ := hview
  refine ⟨t, ht, hdelivered, hnone, fun h => ?_⟩
  have := h.delivered
  omega

end Zbierak.Drain
