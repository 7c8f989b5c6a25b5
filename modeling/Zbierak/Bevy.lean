import Zbierak.Sdk
import Zbierak.Stacktrace

/-!
# The Bevy log pipeline

A layer of the tracing subscriber turns log events into captured logs and sends
them through a channel; a system of the game loop takes them out, limits their
rate, suppresses repetitions and queues the rest on the client. Instants and
durations are in nanoseconds.
-/
namespace Zbierak.Bevy

open Sdk Stacktrace

inductive Level where
  | error | warn | info | debug | trace
  deriving DecidableEq, Repr

/-- Levels are ordered by verbosity. -/
def Level.verbosity : Level → Nat
  | .error => 0
  | .warn => 1
  | .info => 2
  | .debug => 3
  | .trace => 4

structure ReportConfig where
  captureLevel : Level
  rateWindow : Nat
  maxEventsPerWindow : Nat
  duplicateSuppression : Nat
  maxTrackedMessages : Nat
  maxMessageBytes : Nat
  excludedTargets : List String
  captureStackFrames : Bool

def ReportConfig.default : ReportConfig where
  captureLevel := .error
  rateWindow := 60 * 10 ^ 9
  maxEventsPerWindow := 20
  duplicateSuppression := 60 * 10 ^ 9
  maxTrackedMessages := 1024
  maxMessageBytes := 4096
  excludedTargets := ["zbierak"]
  captureStackFrames := true

def severityFor : Level → Severity
  | .error => .error
  | .warn => .warning
  | .info => .info
  | .trace | .debug => .debug

/-- A log event on its way to the drain system. -/
structure CapturedLog where
  message : String
  target : String
  level : Level
  frames : List StackFrame

/-- What the layer sends for a log event, from the symbols on the stack of the
thread that logs it. Panics are left to the panic hook. -/
def onEvent (config : ReportConfig) (level : Level) (target : String) (message : Option String)
    (stack : List BacktraceSymbol) : Option CapturedLog :=
  if config.captureLevel.verbosity < level.verbosity then none
  else if config.excludedTargets.any fun start => target.startsWith start then none
  else match message with
    | none => none
    | some message =>
      if message.startsWith "panic at " then none
      else some {
        message, target, level
        frames := if config.captureStackFrames then captureFrames stack else [] }

/-- The event of a captured log. -/
def logEvent (config : ReportConfig) (captured : CapturedLog) : Event :=
  let message := Boundary.truncate captured.message config.maxMessageBytes
  { Event.default with
    message
    severity := severityFor captured.level
    error := some { typeName := "log", value := some message, stackFrames := captured.frames }
    tags := [("target", captured.target)] }

/-- `lastSent` holds each message at most once. -/
structure ThrottleState where
  lastSent : List (String × Nat)
  windowStart : Option Nat
  sentInWindow : Nat
  droppedInWindow : Nat

def ThrottleState.default : ThrottleState := ⟨[], none, 0, 0⟩

/-- Open a new window when there is none or the last one is over. -/
def ThrottleState.roll (config : ReportConfig) (now : Nat) (state : ThrottleState) : ThrottleState :=
  if state.windowStart.any fun start => now - start < config.rateWindow then state
  else { state with windowStart := some now, sentInWindow := 0, droppedInWindow := 0 }

/-- Whether the message was sent within the suppression window. -/
def ThrottleState.suppresses (config : ReportConfig) (now : Nat) (message : String)
    (state : ThrottleState) : Bool :=
  (state.lastSent.lookup message).any fun sent => now - sent < config.duplicateSuppression

/-- Whether the next message that is sent empties the table. -/
def ThrottleState.full (config : ReportConfig) (state : ThrottleState) : Bool :=
  config.maxTrackedMessages ≤ state.lastSent.length

def ThrottleState.remember (config : ReportConfig) (now : Nat) (message : String)
    (state : ThrottleState) : ThrottleState :=
  let lastSent := if state.full config then [] else state.lastSent
  { state with
    sentInWindow := state.sentInWindow + 1
    lastSent := (message, now) :: lastSent.filter fun entry => entry.1 != message }

/-- One turn of the loop: the clock, the log, and the client as it answers then. -/
structure Turn where
  now : Nat
  captured : CapturedLog
  captureEvent : Event → Except CaptureError String

/-- A log that was queued, and whether the table was full then. -/
structure Sent where
  now : Nat
  message : String
  full : Bool
  deriving DecidableEq, Repr

/-- The state of the drain system, and everything it has queued so far. -/
structure Pipeline where
  state : ThrottleState
  sent : List Sent

def Pipeline.start : Pipeline := ⟨.default, []⟩

/-- One turn of `process_captured`. -/
def processTurn (config : ReportConfig) (p : Pipeline) (turn : Turn) : Pipeline :=
  let state := p.state.roll config turn.now
  let message := turn.captured.message
  if config.maxEventsPerWindow ≤ state.sentInWindow then
    { p with state := { state with droppedInWindow := state.droppedInWindow + 1 } }
  else if state.suppresses config turn.now message then { p with state }
  else match turn.captureEvent (logEvent config turn.captured) with
    | .error _ => { p with state }
    | .ok _ =>
      { state := state.remember config turn.now message
        sent := p.sent ++ [⟨turn.now, message, state.full config⟩] }

def processCaptured (config : ReportConfig) (p : Pipeline) (turns : List Turn) : Pipeline :=
  turns.foldl (processTurn config) p

/-- The drain system runs once in every frame of the game. -/
def drainAll (config : ReportConfig) (calls : List (List Turn)) : Pipeline :=
  calls.foldl (processCaptured config) .start

/-- How the logs are distributed over the calls does not matter. -/
theorem drainAll_eq (config : ReportConfig) (calls : List (List Turn)) :
    drainAll config calls = processCaptured config .start calls.flatten := by
  rw [processCaptured, List.foldl_flatten]
  rfl

/-- A state that has opened its window lets the log through and the client takes it. -/
def ThrottleState.Passes (config : ReportConfig) (state : ThrottleState) (turn : Turn) : Prop :=
  state.sentInWindow < config.maxEventsPerWindow ∧
    state.suppresses config turn.now turn.captured.message = false ∧
    (turn.captureEvent (logEvent config turn.captured)).isOk = true

instance (config : ReportConfig) (state : ThrottleState) (turn : Turn) :
    Decidable (state.Passes config turn) :=
  inferInstanceAs (Decidable (_ ∧ _ ∧ _))

theorem processCaptured_append (config : ReportConfig) (p : Pipeline) (turns later : List Turn) :
    processCaptured config p (turns ++ later) =
      processCaptured config (processCaptured config p turns) later := by
  rw [processCaptured, processCaptured, processCaptured, List.foldl_append]

variable {config : ReportConfig} {p : Pipeline} {turn : Turn}

/-- What a turn can do: queue the log, or leave everything but the window and the
count of dropped logs. -/
theorem processTurn_cases (config : ReportConfig) (p : Pipeline) (turn : Turn) :
    ((p.state.roll config turn.now).Passes config turn ∧
      processTurn config p turn =
        ⟨(p.state.roll config turn.now).remember config turn.now turn.captured.message,
          p.sent ++ [⟨turn.now, turn.captured.message, (p.state.roll config turn.now).full config⟩]⟩) ∨
    (¬ (p.state.roll config turn.now).Passes config turn ∧
      ∃ dropped, processTurn config p turn =
        ⟨{ p.state.roll config turn.now with droppedInWindow := dropped }, p.sent⟩) := by
  unfold processTurn ThrottleState.Passes
  dsimp only
  split
  · next hover => exact .inr ⟨fun h => Nat.not_lt.mpr hover h.1, _, rfl⟩
  · next hunder =>
    split
    · next hrepeat =>
      refine .inr ⟨fun h => ?_, _, rfl⟩
      rw [hrepeat] at h
      exact Bool.noConfusion h.2.1
    · next hnew =>
      split
      · next herror =>
        refine .inr ⟨fun h => ?_, _, rfl⟩
        rw [herror] at h
        exact Bool.noConfusion h.2.2
      · next hok =>
        exact .inl ⟨⟨Nat.not_le.mp hunder, Bool.eq_false_iff.mpr hnew, by rw [hok]; rfl⟩, rfl⟩

end Zbierak.Bevy
