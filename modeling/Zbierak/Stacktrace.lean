import Zbierak.Lib.Boundary
import Zbierak.Validation
import Mathlib.Data.List.Forall2
import Mathlib.Data.List.Induction

/-!
# Stack frame capture

Resolved symbols become frames: what the panic runtime, the SDK and the capture
machinery put on the stack is dropped, and what is left is cut to the limits of
the protocol, so that a captured frame never invalidates its event.
-/
namespace Zbierak.Stacktrace

open Boundary

def maxFrames : Nat := 128

def maxFrameFieldBytes : Nat := 1024

/-- A symbol as the `backtrace` crate resolved it. A path is any bytes. -/
structure BacktraceSymbol where
  name : Option String
  filename : Option Bytes
  lineno : Option Nat
  colno : Option Nat

/-- Application code, as opposed to toolchain and registry code. -/
def classifyInApp (filename : String) : Bool :=
  !(filename.contains "library/std" || filename.contains "library/core" ||
    filename.contains "library/alloc" || filename.contains "library\\std" ||
    filename.contains "library\\core" || filename.contains "library\\alloc" ||
    filename.contains "/rustc/" || filename.contains "\\rustc\\" ||
    filename.contains "/.cargo/registry/" || filename.contains "\\.cargo\\registry\\")

/-- Frames with neither a name nor a readable file are not reported. -/
def symbolFrame (symbol : BacktraceSymbol) : Option StackFrame :=
  let filename := symbol.filename.bind Text.fromUtf8
  if symbol.name.isNone && filename.isNone then none
  else some {
    function := symbol.name
    inApp := filename.map classifyInApp
    filename
    line := symbol.lineno
    column := symbol.colno
    module := none }

/-- What starts the names that `is_internal_frame` recognizes. -/
def internalStarts : List String :=
  ["zbierak_sdk", "std::panicking", "core::panicking", "backtrace", "gimli", "addr2line", "object[",
    "object::", "tracing::", "tracing[", "tracing_core::", "tracing_core[", "tracing_subscriber::",
    "tracing_subscriber[", "alloc::boxed::Box<"]

/-- `trim_start_matches('<')`. -/
def trimAngles (function : String) : String :=
  String.ofList (function.toList.dropWhile (· == '<'))

/-- Frames of the runtime, the SDK, the capture machinery or the dispatch of
`tracing`. -/
def isInternalFrame (function : String) : Bool :=
  internalStarts.any fun start => (trimAngles function).startsWith start

/-- The panic runtime ends at a frame of this name. -/
def beginsUnwind (frame : StackFrame) : Bool := frame.function == some "rust_begin_unwind"

def isInternal (frame : StackFrame) : Bool := frame.function.any isInternalFrame

/-- `rposition`. -/
def rposition {α : Type} (p : α → Bool) (l : List α) : Option Nat :=
  (l.reverse.findIdx? p).map fun index => l.length - 1 - index

/-- `drain(..=start)` for the last match, if there is one. -/
def drainThrough {α : Type} (p : α → Bool) (l : List α) : List α :=
  match rposition p l with
  | some start => l.drop (start + 1)
  | none => l

def truncateField (field : Option String) : Option String :=
  field.map fun text => truncate text maxFrameFieldBytes

def truncateFrameFields (frame : StackFrame) : StackFrame :=
  { frame with
    function := truncateField frame.function
    filename := truncateField frame.filename
    module := truncateField frame.module }

/-- Drop, filter, cap and truncate, in this order. -/
def captureFrames (symbols : List BacktraceSymbol) : List StackFrame :=
  let frames := drainThrough beginsUnwind (symbols.filterMap symbolFrame)
  let frames := frames.filter fun frame => !isInternal frame
  (frames.take maxFrames).map truncateFrameFields

/-- The part of a list after its last element that satisfies `p`, or all of it. -/
def AfterLast {α : Type} (p : α → Bool) (l rest : List α) : Prop :=
  (∀ x ∈ rest, p x = false) ∧ (l = rest ∨ ∃ before x, p x = true ∧ l = before ++ x :: rest)

theorem rposition_append {α : Type} (p : α → Bool) (l : List α) (x : α) :
    rposition p (l ++ [x]) = if p x then some l.length else rposition p l := by
  rw [rposition, rposition, List.reverse_append, List.reverse_singleton, List.singleton_append,
    List.findIdx?_cons, List.length_append, List.length_singleton]
  split
  · simp
  · rw [Option.map_map]
    congr 1
    funext index
    simp only [Function.comp_apply]
    omega

theorem rposition_lt {α : Type} {p : α → Bool} {l : List α} {start : Nat}
    (h : rposition p l = some start) : start < l.length := by
  induction l using List.reverseRecOn with
  | nil => cases h
  | append_singleton l x ih =>
    rw [rposition_append] at h
    rw [List.length_append, List.length_singleton]
    split at h
    · cases h
      omega
    · have := ih h
      omega

theorem drainThrough_append {α : Type} (p : α → Bool) (l : List α) (x : α) :
    drainThrough p (l ++ [x]) = if p x then [] else drainThrough p l ++ [x] := by
  unfold drainThrough
  rw [rposition_append]
  by_cases hx : p x = true
  · rw [if_pos hx, if_pos hx]
    exact List.drop_eq_nil_of_le (by simp)
  · rw [if_neg hx, if_neg hx]
    cases hstart : rposition p l with
    | none => rfl
    | some start => exact List.drop_append_of_le_length (rposition_lt hstart)

theorem afterLast_drainThrough {α : Type} (p : α → Bool) (l : List α) :
    AfterLast p l (drainThrough p l) := by
  induction l using List.reverseRecOn with
  | nil => exact ⟨fun x hx => (List.not_mem_nil hx).elim, .inl rfl⟩
  | append_singleton l x ih =>
    obtain ⟨hnone, hsplit⟩ := ih
    rw [drainThrough_append]
    by_cases hx : p x = true
    · rw [if_pos hx]
      exact ⟨fun y hy => (List.not_mem_nil hy).elim, .inr ⟨l, x, hx, rfl⟩⟩
    · rw [if_neg hx]
      constructor
      · intro y hy
        rcases List.mem_append.mp hy with hy | hy
        · exact hnone y hy
        · rw [List.mem_singleton.mp hy]
          exact Bool.eq_false_iff.mpr hx
      · rcases hsplit with hall | ⟨before, last, hlast, hl⟩
        · exact .inl (congrArg (· ++ [x]) hall)
        · refine .inr ⟨before, last, hlast, ?_⟩
          rw [← List.cons_append, ← List.append_assoc, ← hl]

/-- A field that is there is cut to the longest run of leading characters that
fits. -/
def FieldCut (max : Nat) : Option String → Option String → Prop :=
  Option.Rel (LongestPrefix max)

/-- The captured frame of a frame: its texts are cut, the rest is kept. -/
structure FrameCut (max : Nat) (frame captured : StackFrame) : Prop where
  function : FieldCut max frame.function captured.function
  filename : FieldCut max frame.filename captured.filename
  module : FieldCut max frame.module captured.module
  line : captured.line = frame.line
  column : captured.column = frame.column
  inApp : captured.inApp = frame.inApp

theorem fieldCut_truncateField (field : Option String) :
    FieldCut maxFrameFieldBytes field (truncateField field) := by
  cases field with
  | none => exact .none
  | some text => exact .some (longestPrefix_truncate text maxFrameFieldBytes)

theorem FieldCut.byteLen_le {max : Nat} {field captured : Option String}
    (h : FieldCut max field captured) : Text.byteLen (captured.getD "") ≤ max := by
  cases h with
  | none => exact Nat.zero_le max
  | some h => exact h.fits

theorem frameCut_truncateFrameFields (frame : StackFrame) :
    FrameCut maxFrameFieldBytes frame (truncateFrameFields frame) where
  function := fieldCut_truncateField frame.function
  filename := fieldCut_truncateField frame.filename
  module := fieldCut_truncateField frame.module
  line := rfl
  column := rfl
  inApp := rfl

/-- Captured frames are within the limits of the protocol. -/
theorem framesFit_captureFrames (symbols : List BacktraceSymbol) :
    FramesFit (captureFrames symbols) := by
  constructor
  · rw [captureFrames, List.length_map, List.length_take]
    exact Nat.le_trans (Nat.min_le_left _ _) (by decide)
  · intro captured hcaptured value hvalue
    obtain ⟨frame, -, rfl⟩ := List.mem_map.mp hcaptured
    have hcut := frameCut_truncateFrameFields frame
    simp only [List.mem_cons, List.not_mem_nil, or_false] at hvalue
    rcases hvalue with rfl | rfl | rfl
    · exact hcut.function.byteLen_le
    · exact hcut.filename.byteLen_le
    · exact hcut.module.byteLen_le

/-- Captured frames are the application's frames, from the panicking call site
on, cut to what validation accepts. -/
theorem captured_frames_validate (symbols : List BacktraceSymbol) :
    (∃ rest, AfterLast beginsUnwind (symbols.filterMap symbolFrame) rest ∧
      List.Forall₂ (FrameCut 1024) ((rest.filter fun frame => !isInternal frame).take 128)
        (captureFrames symbols)) ∧
    ∀ field, validateStackFrames field (captureFrames symbols) = .ok () := by
  refine ⟨⟨_, afterLast_drainThrough _ _, ?_⟩, fun field => ?_⟩
  · rw [captureFrames, List.forall₂_map_right_iff]
    exact List.forall₂_same.mpr fun frame _ => frameCut_truncateFrameFields frame
  · exact validateStackFrames_ok.mpr (framesFit_captureFrames symbols)

/-- What ends the crate name in a path, in either mangling style. -/
def endsCrate (c : Char) : Bool := c == ':' || c == '['

/-- The crate a demangled name begins with. -/
def crateSegment (function : String) : String :=
  String.ofList ((trimAngles function).toList.takeWhile fun c => !endsCrate c)

/-- The crates with frames that are meant to be hidden. -/
def hiddenCrates : List String :=
  ["zbierak_sdk", "std", "core", "alloc", "backtrace", "gimli", "addr2line", "object", "tracing",
    "tracing_core", "tracing_subscriber"]

/-- The recognized starts that do not reach the end of the crate name. -/
def openStarts : List String := ["zbierak_sdk", "backtrace", "gimli", "addr2line"]

theorem prefix_takeWhile_iff {α : Type} {p : α → Bool} {l m : List α} (h : ∀ x ∈ l, p x = true) :
    l <+: m.takeWhile p ↔ l <+: m := by
  refine ⟨fun hl => hl.trans (List.takeWhile_prefix p), ?_⟩
  rintro ⟨rest, rfl⟩
  rw [List.takeWhile_append_of_pos h]
  exact List.prefix_append _ _

theorem takeWhile_eq_of_prefix {α : Type} {p : α → Bool} {l m : List α} (h : l <+: m)
    (hstop : (l.takeWhile p).length ≠ l.length) : m.takeWhile p = l.takeWhile p := by
  obtain ⟨rest, rfl⟩ := h
  rw [List.takeWhile_append, if_neg hstop]

/-- A recognized start is the beginning of a crate name, or goes past the end of
the name of a hidden crate. -/
theorem internalStarts_cases : ∀ start ∈ internalStarts,
    (start ∈ openStarts ∧ (start.toList.all fun c => !endsCrate c) = true) ∨
    (String.ofList (start.toList.takeWhile fun c => !endsCrate c) ∈ hiddenCrates ∧
      (start.toList.takeWhile fun c => !endsCrate c).length ≠ start.toList.length) := by
  decide +kernel

theorem openStarts_subset : openStarts ⊆ internalStarts := by decide

theorem isInternalFrame_iff (function : String) : isInternalFrame function = true ↔
    ∃ start ∈ internalStarts, start.toList <+: (trimAngles function).toList := by
  simp only [isInternalFrame, List.any_eq_true, String.startsWith_string_iff]

/-- Outside the hidden crates, a name is taken for an internal one when its crate
name begins with an open start. -/
theorem isInternalFrame_lookalike {function : String} (h : crateSegment function ∉ hiddenCrates) :
    isInternalFrame function = true ↔
      ∃ start ∈ openStarts, start.toList <+: (crateSegment function).toList := by
  rw [isInternalFrame_iff, crateSegment, String.toList_ofList]
  constructor
  · rintro ⟨start, hstart, hprefix⟩
    rcases internalStarts_cases start hstart with ⟨hopen, hname⟩ | ⟨hhidden, hpast⟩
    · exact ⟨start, hopen, (prefix_takeWhile_iff (List.all_eq_true.mp hname)).mpr hprefix⟩
    · rw [crateSegment, takeWhile_eq_of_prefix hprefix hpast] at h
      exact absurd hhidden h
  · rintro ⟨start, hopen, hprefix⟩
    exact ⟨start, openStarts_subset hopen, hprefix.trans (List.takeWhile_prefix _)⟩

/-- A frame outside the hidden crates is reported when its crate name begins with
none of the open starts. -/
theorem lookalike_visible_iff (function : String) (h : crateSegment function ∉ hiddenCrates) :
    (isInternalFrame function = false ∧
      ∀ frames : List StackFrame, ∀ frame ∈ frames, frame.function = some function →
        frame ∈ frames.filter fun frame => !isInternal frame) ↔
    ∀ start ∈ openStarts, ¬ start.toList <+: (crateSegment function).toList := by
  have hiff : isInternalFrame function = false ↔
      ∀ start ∈ openStarts, ¬ start.toList <+: (crateSegment function).toList := by
    rw [← Bool.not_eq_true, isInternalFrame_lookalike h]
    simp only [not_exists, not_and]
  rw [← hiff, and_iff_left_iff_imp]
  intro hvisible frames frame hframe hfunction
  rw [List.mem_filter, isInternal, hfunction, Option.any_some, hvisible]
  exact ⟨hframe, rfl⟩

theorem lookalike_visible_iff_backend :
    isInternalFrame "backend::app::route" = false ∧
      ∀ frames : List StackFrame, ∀ frame ∈ frames, frame.function = some "backend::app::route" →
        frame ∈ frames.filter fun frame => !isInternal frame :=
  (lookalike_visible_iff "backend::app::route" (by decide +kernel)).mpr (by decide +kernel)

/-- A viewer of debugging information is taken for the symbolizer. -/
theorem lookalike_is_hidden : crateSegment "gimli_viewer::draw" ∉ hiddenCrates ∧
    isInternalFrame "gimli_viewer::draw" = true ∧
    captureFrames [⟨some "gimli_viewer::draw", none, some 7, none⟩] = [] := by
  decide +kernel

end Zbierak.Stacktrace
