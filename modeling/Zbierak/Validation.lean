import Zbierak.Protocol

/-!
# What validation accepts

`Event::validate` stops at the first violated limit. It accepts exactly the
events that meet all of them, in whatever order they are checked.
-/
namespace Zbierak

variable {ε α : Type} {parse : String → Option OffsetDateTime}

theorem error_ne_ok (e : ε) (a : α) : (Except.error e : Except ε α) ≠ .ok a := fun h => by cases h

/-- A check before the rest of a block. -/
theorem check_ok {c : Prop} [Decidable c] {e : ε} {rest : PUnit → Except ε Unit} :
    (if c then Except.error e >>= rest else rest ⟨⟩) = .ok () ↔ ¬ c ∧ rest ⟨⟩ = .ok () := by
  split
  · next h => exact iff_of_false (error_ne_ok e ()) fun hc => hc.1 h
  · next h => exact (and_iff_right h).symm

theorem then_ok {first : Except ε Unit} {rest : Unit → Except ε Unit} :
    (first >>= rest) = .ok () ↔ first = .ok () ∧ rest () = .ok () := by
  cases first with
  | error e => exact iff_of_false (error_ne_ok e ()) fun h => error_ne_ok e () h.1
  | ok u => exact (and_iff_right rfl).symm

theorem forM_ok {f : α → Except ε Unit} {l : List α} :
    l.forM f = .ok () ↔ ∀ x ∈ l, f x = .ok () := by
  induction l with
  | nil => exact iff_of_true rfl fun x hx => nomatch hx
  | cons x l ih =>
    rw [List.forall_mem_cons, ← ih]
    exact then_ok

theorem validateOptional_ok {field value : String} {max : Nat} :
    validateOptional field value max = .ok () ↔ Text.byteLen value ≤ max := by
  unfold validateOptional
  split
  · next hlong => exact iff_of_false (error_ne_ok _ _) (by omega)
  · next hfits => exact iff_of_true rfl (by omega)

theorem validateRequired_ok {field value : String} {max : Nat} :
    validateRequired field value max = .ok () ↔ Text.trim value ≠ "" ∧ Text.byteLen value ≤ max := by
  unfold validateRequired
  split
  · next hblank => exact iff_of_false (error_ne_ok _ _) fun h => h.1 hblank
  · next htext => rw [validateOptional_ok, and_iff_right htext]

/-- Frames within the limits, whatever field they are in. -/
structure FramesFit (frames : List StackFrame) : Prop where
  few : frames.length ≤ maxStackFrames
  short : ∀ frame ∈ frames, ∀ value ∈ [frame.function, frame.filename, frame.module],
    Text.byteLen (value.getD "") ≤ maxFrameFieldBytes

theorem validateStackFrames_ok {field : String} {frames : List StackFrame} :
    validateStackFrames field frames = .ok () ↔ FramesFit frames := by
  unfold validateStackFrames
  rw [check_ok, forM_ok]
  constructor
  · rintro ⟨hfew, hshort⟩
    refine ⟨Nat.not_lt.mp hfew, fun frame hframe value hvalue => ?_⟩
    exact validateOptional_ok.mp (forM_ok.mp (hshort frame hframe) value hvalue)
  · rintro ⟨hfew, hshort⟩
    refine ⟨Nat.not_lt.mpr hfew, fun frame hframe => forM_ok.mpr fun value hvalue => ?_⟩
    exact validateOptional_ok.mpr (hshort frame hframe value hvalue)

theorem validateTimestamp_ok {field value : String} :
    validateTimestamp parse field value = .ok () ↔ ∃ parsed, parse value = some parsed ∧
      minTimestampYear ≤ parsed.year ∧ parsed.year ≤ maxTimestampYear := by
  unfold validateTimestamp
  split
  · next hnone => exact iff_of_false (error_ne_ok _ _) (by simp [hnone])
  · next parsed hsome =>
    split
    · next hyear => exact iff_of_true rfl ⟨parsed, hsome, hyear⟩
    · next hyear =>
      refine iff_of_false (error_ne_ok _ _) ?_
      rintro ⟨other, hother, hin⟩
      obtain rfl : parsed = other := Option.some.inj (hsome.symm.trans hother)
      exact hyear hin

/-- A required text: not blank, and of at most `max` bytes. -/
def Required (max : Nat) (value : String) : Prop :=
  Text.trim value ≠ "" ∧ Text.byteLen value ≤ max

/-- The protocol invariants and ingestion limits, all of them. -/
structure Event.Valid (parse : String → Option OffsetDateTime) (event : Event) : Prop where
  version : event.version = protocolVersion
  eventId : Required 128 event.eventId
  timestamp : Required 64 event.timestamp
  date : ∃ parsed, parse event.timestamp = some parsed ∧
    minTimestampYear ≤ parsed.year ∧ parsed.year ≤ maxTimestampYear
  message : Required 16384 event.message
  fewTags : event.tags.length ≤ 100
  tags : ∀ entry ∈ event.tags, Required 128 entry.1 ∧ Text.byteLen entry.2 ≤ 1024
  fewContexts : event.contexts.length ≤ 50
  fewBreadcrumbs : event.breadcrumbs.length ≤ 1000
  frames : FramesFit event.stackFrames
  errorFrames : ∀ error ∈ event.error, FramesFit error.stackFrames
  fingerprint : ∀ parts ∈ event.fingerprint, parts ≠ [] ∧ parts.length ≤ 10 ∧
    ∀ part ∈ parts, Required 1024 part

theorem fingerprint_ok {parts : List String} :
    (if parts.isEmpty = true ∨ parts.length > 10 then do
        Except.error
          ⟨"fingerprint", "must contain between 1 and 10 components"⟩
        parts.forM fun part => validateRequired "fingerprint" part 1024
      else parts.forM fun part => validateRequired "fingerprint" part 1024) = .ok () ↔
      parts ≠ [] ∧ parts.length ≤ 10 ∧ ∀ part ∈ parts, Required 1024 part := by
  rw [check_ok, forM_ok, not_or, List.isEmpty_iff, Nat.not_lt, and_assoc]
  simp only [validateRequired_ok, Required]

/-- Validation accepts an event when it meets every limit. -/
theorem validate_ok {event : Event} : event.validate parse = .ok () ↔ event.Valid parse := by
  unfold Event.validate
  simp only [check_ok, then_ok, forM_ok, validateRequired_ok, validateOptional_ok,
    validateTimestamp_ok, validateStackFrames_ok, not_not, Nat.not_lt]
  constructor
  · rintro ⟨version, eventId, timestamp, date, message, fewTags, tags, fewContexts,
      fewBreadcrumbs, frames, rest⟩
    refine ⟨version, eventId, timestamp, date, message, fewTags, tags, fewContexts, fewBreadcrumbs,
      frames, ?_, ?_⟩
    · intro error herror
      rw [Option.mem_def] at herror
      simp only [herror, then_ok, validateStackFrames_ok] at rest
      exact rest.1
    · intro parts hparts
      rw [Option.mem_def] at hparts
      cases herror : event.error <;>
        simp only [herror, hparts, then_ok, validateStackFrames_ok, fingerprint_ok] at rest
      · exact rest
      · exact rest.2
  · rintro ⟨version, eventId, timestamp, date, message, fewTags, tags, fewContexts,
      fewBreadcrumbs, frames, errorFrames, fingerprint⟩
    refine ⟨version, eventId, timestamp, date, message, fewTags, tags, fewContexts, fewBreadcrumbs,
      frames, ?_⟩
    cases herror : event.error <;> cases hparts : event.fingerprint <;>
      simp only [then_ok, validateStackFrames_ok, fingerprint_ok]
    · rfl
    · exact fingerprint _ hparts
    · exact ⟨errorFrames _ herror, rfl⟩
    · exact ⟨errorFrames _ herror, fingerprint _ hparts⟩

end Zbierak
