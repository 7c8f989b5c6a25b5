import Zbierak.Server
import Zbierak.Bevy

/-!
# The three loops that cut a text

The outbox, the Bevy pipeline and the stack capture cut texts at a limit in
bytes, each with a loop of its own that goes back to a character boundary.
-/
namespace Zbierak.Truncation

open Boundary

/-- What a call has come to after so many tests of its loop. -/
inductive Outcome where
  | returned (text : String)
  | underflowed
  | panicked
  | running
  deriving DecidableEq, Repr

/-- Go on with the index at which the loop stopped. -/
def Outcome.after (loop : Search) (next : Nat → Outcome) : Outcome :=
  match loop with
  | .found index => next index
  | .underflow => .underflowed
  | .running => .running

/-- `&text[..end]`, which panics inside a character. -/
def slice (text : String) (index : Nat) : Outcome :=
  if h : isCharBoundary (Text.toUtf8 text) index = true then .returned (sliceTo text index h)
  else .panicked

/-- `String::truncate`, which does nothing beyond the end of the text. -/
def truncateAt (text : String) (index : Nat) : Outcome :=
  if index ≤ Text.byteLen text then slice text index else .returned text

def truncateUtf8 (fuel : Nat) (text : String) (maxBytes : Nat) : Outcome :=
  if Text.byteLen text ≤ maxBytes then .returned text
  else .after (search (Text.toUtf8 text) fuel maxBytes) (slice text)

/-- `truncate_utf8` of the outbox. -/
def Outbox.truncateUtf8 (fuel : Nat) (value : String) (maxBytes : Nat) : Outcome :=
  Truncation.truncateUtf8 fuel value maxBytes

/-- `truncate_utf8` of the Bevy pipeline. -/
def Bevy.truncateUtf8 (fuel : Nat) (text : String) (maxBytes : Nat) : Outcome :=
  Truncation.truncateUtf8 fuel text maxBytes

/-- The body of the loop over the fields in `truncate_frame_fields`. -/
def Stacktrace.truncateFrameField (fuel : Nat) (text : String) (maxBytes : Nat) : Outcome :=
  if Text.byteLen text > maxBytes then
    .after (search (Text.toUtf8 text) fuel maxBytes) (truncateAt text)
  else .returned text

/-- A call whose loop starts at `max` ends with `t`, and never with anything else. -/
structure EndsWith (max : Nat) (call : Nat → Outcome) (t : String) : Prop where
  ends : ∀ fuel, max < fuel → call fuel = .returned t
  safe : ∀ fuel, call fuel = .returned t ∨ call fuel = .running

theorem slice_eq {text : String} {index : Nat}
    (h : isCharBoundary (Text.toUtf8 text) index = true) :
    slice text index = .returned (sliceTo text index h) := dif_pos h

theorem truncateAt_eq {text : String} {index : Nat}
    (h : isCharBoundary (Text.toUtf8 text) index = true) :
    truncateAt text index = slice text index :=
  if_pos (length_toUtf8 text ▸ le_of_isCharBoundary h)

/-- A loop that starts at `max` and slices where it stops. -/
theorem endsWith_slice (text : String) (max : Nat) {next : Nat → Outcome}
    (hnext : ∀ index, isCharBoundary (Text.toUtf8 text) index = true →
      next index = slice text index) :
    EndsWith max (fun fuel => .after (search (Text.toUtf8 text) fuel max) next)
      (sliceTo text (floor (Text.toUtf8 text) max) (isCharBoundary_floor _ _)) := by
  have hfloor := isCharBoundary_floor (Text.toUtf8 text) max
  constructor
  · intro fuel hfuel
    simp only [search_eq _ hfuel, Outcome.after]
    rw [hnext _ hfloor, slice_eq hfloor]
  · intro fuel
    -- A loop that stops within its tests stops where it would with more of them.
    cases hloop : search (Text.toUtf8 text) fuel max with
    | found index =>
      have hindex := search_found hloop
      subst hindex
      exact .inl (by simp only [Outcome.after]; rw [hnext _ hfloor, slice_eq hfloor])
    | underflow => exact absurd hloop (search_ne_underflow _ _ _)
    | running => exact .inr rfl

theorem endsWith_truncateUtf8 (text : String) (max : Nat) :
    EndsWith max (truncateUtf8 · text max) (truncate text max) := by
  unfold truncateUtf8 truncate
  split
  · exact ⟨fun _ _ => rfl, fun _ => .inl rfl⟩
  · exact endsWith_slice text max fun _ _ => rfl

theorem endsWith_truncateFrameField (text : String) (max : Nat) :
    EndsWith max (Stacktrace.truncateFrameField · text max) (truncate text max) := by
  unfold Stacktrace.truncateFrameField truncate
  by_cases hfits : Text.byteLen text ≤ max
  · simp only [if_neg (Nat.not_lt.mpr hfits), if_pos hfits]
    exact ⟨fun _ _ => rfl, fun _ => .inl rfl⟩
  · simp only [if_pos (Nat.not_le.mp hfits), if_neg hfits]
    exact endsWith_slice text max fun _ => truncateAt_eq

/-- The three loops end at every limit, without stepping below zero, with the
same text: the longest well-formed beginning within the limit. -/
theorem loops_cut_maximally (s : String) (max : Nat) :
    ∃ t, EndsWith max (Outbox.truncateUtf8 · s max) t ∧
      EndsWith max (Bevy.truncateUtf8 · s max) t ∧
      EndsWith max (Stacktrace.truncateFrameField · s max) t ∧
      LongestUtf8 max s t ∧ (Text.byteLen s ≤ max → t = s) :=
  ⟨truncate s max, endsWith_truncateUtf8 s max, endsWith_truncateUtf8 s max,
    endsWith_truncateFrameField s max, (longestPrefix_truncate s max).longestUtf8,
    fun hfits => if_pos hfits⟩

/-- What is kept of a text is what the loop returns for it, the longest well-formed
beginning within the limit. -/
structure Cut (max : Nat) (call : Nat → Outcome) (s t : String) : Prop where
  returned : EndsWith max call t
  longest : LongestUtf8 max s t

theorem cut_truncate {max : Nat} {call : Nat → Outcome} {s : String}
    (h : EndsWith max call (truncate s max)) : Cut max call s (truncate s max) :=
  ⟨h, (longestPrefix_truncate s max).longestUtf8⟩

section Errors

open Server

variable {cfg : Setup} {now : Int} {db : Db} {id : Int} {row : OutboxRow} {t : String}

/-- An update of some rows changes the error of a row, or keeps it. -/
theorem lastError_update {p : Int → OutboxRow → Bool} {f : OutboxRow → OutboxRow}
    (hrow : (db.outbox.update p f).get? id = some row) (ht : row.lastError = some t) :
    ∃ old, db.outbox.get? id = some old ∧
      (old.lastError = some t ∨ (p id old = true ∧ (f old).lastError = some t)) := by
  rw [Table.get?_update, Option.map_eq_some_iff] at hrow
  obtain ⟨old, hold, rfl⟩ := hrow
  refine ⟨old, hold, ?_⟩
  split at ht
  · next hp => exact .inr ⟨hp, ht⟩
  · exact .inl ht

/-- Only a failed delivery gives a row its error. -/
theorem lastError_step {op : Op} (hrow : (exec cfg now db op).2.outbox.get? id = some row)
    (ht : row.lastError = some t) :
    (∃ old, db.outbox.get? id = some old ∧ old.lastError = some t) ∨
      ∃ attempts error, op = .worker (.fail id attempts error) ∧ t = Text.truncateUtf8 error 1000 := by
  cases op with
  | request r =>
    rcases request_row cfg now db r hrow with hold | ⟨-, endpointId, eventType, payloadJson, readyAt, rfl⟩
    · exact .inl ⟨row, hold, ht⟩
    · cases ht
  | worker w =>
    cases w with
    | claim =>
      simp only [exec, execWorker] at hrow
      rcases Outbox.claim_cases now db with ⟨hc, -⟩ | ⟨claimed, due, -, -, hdb, -⟩
      · rw [hc] at hrow
        exact .inl ⟨row, hrow, ht⟩
      · rw [hdb] at hrow
        obtain ⟨old, hold, hkept | ⟨-, hkept⟩⟩ := lastError_update hrow ht
        · exact .inl ⟨old, hold, hkept⟩
        · exact .inl ⟨old, hold, hkept⟩
    | markDelivered rowId =>
      obtain ⟨old, hold, hkept | ⟨-, hkept⟩⟩ := lastError_update hrow ht
      · exact .inl ⟨old, hold, hkept⟩
      · exact .inl ⟨old, hold, hkept⟩
    | fail rowId attempts error =>
      obtain ⟨old, hold, hkept | ⟨hid, hcut⟩⟩ := lastError_update hrow ht
      · exact .inl ⟨old, hold, hkept⟩
      · obtain rfl := of_decide_eq_true hid
        exact .inr ⟨attempts, error, rfl, (Option.some.inj hcut).symm⟩

theorem lastError_after {ops : List (Int × Op)} (hrow : (after cfg ops db).outbox.get? id = some row)
    (ht : row.lastError = some t) :
    (∃ old, db.outbox.get? id = some old ∧ old.lastError = some t) ∨
      ∃ at_ attempts error, (at_, Op.worker (.fail id attempts error)) ∈ ops ∧
        t = Text.truncateUtf8 error 1000 := by
  induction ops generalizing db with
  | nil => exact .inl ⟨row, hrow, ht⟩
  | cons op ops ih =>
    rcases ih hrow with ⟨old, hold, hkept⟩ | ⟨at_, attempts, error, hmem, hcut⟩
    · rcases lastError_step hold hkept with hbefore | ⟨attempts, error, hop, hcut⟩
      · exact .inl hbefore
      · exact .inr ⟨op.1, attempts, error, hop ▸ List.mem_cons_self, hcut⟩
    · exact .inr ⟨at_, attempts, error, List.mem_cons_of_mem op hmem, hcut⟩

end Errors

/-- The texts of a captured frame are those of a symbol on the stack, cut. -/
theorem captureFrames_symbol {symbols : List Stacktrace.BacktraceSymbol} {frame : StackFrame}
    (h : frame ∈ Stacktrace.captureFrames symbols) : ∃ symbol ∈ symbols,
      frame.function = Stacktrace.truncateField symbol.name ∧
      frame.filename = Stacktrace.truncateField (symbol.filename.bind Text.fromUtf8) ∧
      frame.module = none := by
  obtain ⟨raw, hraw, rfl⟩ := List.mem_map.mp h
  have hafter := (Stacktrace.afterLast_drainThrough Stacktrace.beginsUnwind
    (symbols.filterMap Stacktrace.symbolFrame)).2
  have hraw := (List.mem_filter.mp (List.mem_of_mem_take hraw)).1
  have hraw : raw ∈ symbols.filterMap Stacktrace.symbolFrame := by
    rcases hafter with hall | ⟨before, last, -, hall⟩
    · rwa [hall]
    · rw [hall]
      exact List.mem_append_right before (List.mem_cons_of_mem last hraw)
  obtain ⟨symbol, hsymbol, hframe⟩ := List.mem_filterMap.mp hraw
  refine ⟨symbol, hsymbol, ?_⟩
  unfold Stacktrace.symbolFrame at hframe
  dsimp only at hframe
  split at hframe
  · cases hframe
  · cases hframe
    exact ⟨rfl, rfl, rfl⟩

/-- So are the errors in the outbox, in every state that the service reaches, the
messages of captured logs, and the texts of captured frames. -/
theorem kept_texts (cfg : Server.Setup) (ops : List (Int × Server.Op)) (config : Bevy.ReportConfig)
    (captured : Bevy.CapturedLog) (symbols : List Stacktrace.BacktraceSymbol) :
    (∀ id row t, (Server.after cfg ops .empty).outbox.get? id = some row → row.lastError = some t →
      ∃ at_ attempts error, (at_, Server.Op.worker (.fail id attempts error)) ∈ ops ∧
        Cut 1000 (Outbox.truncateUtf8 · error 1000) error t) ∧
    Cut config.maxMessageBytes (Bevy.truncateUtf8 · captured.message config.maxMessageBytes)
      captured.message (Bevy.logEvent config captured).message ∧
    ∀ frame ∈ Stacktrace.captureFrames symbols, ∃ symbol ∈ symbols,
      (∀ t ∈ frame.function, ∃ name ∈ symbol.name,
        Cut 1024 (Stacktrace.truncateFrameField · name 1024) name t) ∧
      (∀ t ∈ frame.filename, ∃ path ∈ symbol.filename.bind Text.fromUtf8,
        Cut 1024 (Stacktrace.truncateFrameField · path 1024) path t) ∧
      frame.module = none := by
  have hfield : ∀ field : Option String, ∀ t ∈ Stacktrace.truncateField field, ∃ text ∈ field,
      Cut 1024 (Stacktrace.truncateFrameField · text 1024) text t := by
    intro field t ht
    obtain ⟨text, htext, rfl⟩ := Option.map_eq_some_iff.mp ht
    exact ⟨text, htext, cut_truncate (endsWith_truncateFrameField text _)⟩
  refine ⟨fun id row t hrow ht => ?_, cut_truncate (endsWith_truncateUtf8 _ _), fun frame hframe => ?_⟩
  · rcases lastError_after hrow ht with ⟨old, hold, -⟩ | ⟨at_, attempts, error, hop, rfl⟩
    · cases hold
    · rw [← truncate_eq]
      exact ⟨at_, attempts, error, hop, cut_truncate (endsWith_truncateUtf8 error 1000)⟩
  · obtain ⟨symbol, hsymbol, hfunction, hfilename, hmodule⟩ := captureFrames_symbol hframe
    refine ⟨symbol, hsymbol, ?_, ?_, hmodule⟩
    · rw [hfunction]
      exact hfield symbol.name
    · rw [hfilename]
      exact hfield (symbol.filename.bind Text.fromUtf8)

end Zbierak.Truncation
