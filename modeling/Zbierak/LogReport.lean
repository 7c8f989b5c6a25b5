import Zbierak.PanicReport
import Zbierak.Bevy

/-!
# Reporting logs

Threads log. The layer notices some of it and sends it through a channel, from which
the game loop takes one log after another. Whatever is queued on the client in the
end was logged, once each and in that order.
-/
namespace Zbierak.LogReport

open Bevy PanicReport Sdk Stacktrace

/-- A log event, on the thread that logs it. -/
structure LogLine where
  level : Level
  target : String
  message : Option String
  stack : List BacktraceSymbol

def LogLine.captured (config : ReportConfig) (line : LogLine) : Option CapturedLog :=
  onEvent config line.level line.target line.message line.stack

/-- What the layer asks of a line. -/
structure Noticed (config : ReportConfig) (line : LogLine) (text : String) : Prop where
  level : line.level.verbosity ≤ config.captureLevel.verbosity
  target : ∀ start ∈ config.excludedTargets, line.target.startsWith start = false
  message : line.message = some text
  noPanic : text.startsWith "panic at " = false

theorem captured_eq_some {config : ReportConfig} {line : LogLine} {captured : CapturedLog} :
    line.captured config = some captured ↔ Noticed config line captured.message ∧
      captured.target = line.target ∧ captured.level = line.level ∧
      captured.frames = if config.captureStackFrames then captureFrames line.stack else [] := by
  unfold LogLine.captured onEvent
  constructor
  · intro h
    split at h
    · cases h
    · next hlevel =>
      split at h
      · cases h
      · next htarget =>
        split at h
        · cases h
        · next text hmessage =>
          split at h
          · cases h
          · next hpanic =>
            cases h
            have htarget : ∀ start ∈ config.excludedTargets, line.target.startsWith start = false := by
              simpa using htarget
            exact ⟨⟨Nat.not_lt.mp hlevel, htarget, hmessage, Bool.eq_false_iff.mpr hpanic⟩, rfl, rfl, rfl⟩
  · rintro ⟨hnoticed, htarget, hlevel, hframes⟩
    have hexcluded : (config.excludedTargets.any fun start => line.target.startsWith start) = false := by
      simpa using hnoticed.target
    rw [if_neg (Nat.not_lt.mpr hnoticed.level), hexcluded, if_neg Bool.false_ne_true, hnoticed.message]
    dsimp only
    rw [hnoticed.noPanic, if_neg Bool.false_ne_true, ← htarget, ← hlevel, ← hframes]

/-- A thread logs, or the game loop takes the next log from the channel. -/
inductive Act where
  | log (line : LogLine)
  | turn (now : Nat) (captureEvent : Event → Except CaptureError String)

def Act.line : Act → Option LogLine
  | .log line => some line
  | .turn _ _ => none

def Act.now : Act → Option Nat
  | .log _ => none
  | .turn now _ => some now

structure Reporter where
  channel : List CapturedLog
  pipeline : Pipeline

def Reporter.start : Reporter := ⟨[], .start⟩

def step (config : ReportConfig) (r : Reporter) : Act → Reporter
  | .log line => { r with channel := r.channel ++ (line.captured config).toList }
  | .turn now captureEvent =>
    match r.channel with
    | [] => r
    | captured :: channel => ⟨channel, processTurn config r.pipeline ⟨now, captured, captureEvent⟩⟩

def run (config : ReportConfig) (acts : List Act) : Reporter := acts.foldl (step config) .start

/-- The turns of the loop so far: what they took is what was noticed, up to what is
still in the channel. -/
structure Taken (config : ReportConfig) (acts : List Act) (turns : List Turn) : Prop where
  pipeline : (run config acts).pipeline = processCaptured config .start turns
  channel : turns.map Turn.captured ++ (run config acts).channel =
    (acts.filterMap Act.line).filterMap (LogLine.captured config)
  times : (turns.map Turn.now).Sublist (acts.filterMap Act.now)

theorem run_append (config : ReportConfig) (acts : List Act) (act : Act) :
    run config (acts ++ [act]) = step config (run config acts) act := by
  rw [run, List.foldl_append]
  rfl

theorem taken_step {config : ReportConfig} {acts : List Act} {turns : List Turn}
    (h : Taken config acts turns) (act : Act) : ∃ turns', Taken config (acts ++ [act]) turns' := by
  cases act with
  | log line =>
    have hnew : ([Act.log line].filterMap Act.line).filterMap (LogLine.captured config) =
        (line.captured config).toList := by
      cases hcaptured : line.captured config <;> simp [Act.line, hcaptured]
    refine ⟨turns, ?_, ?_, ?_⟩
    · rw [run_append]
      exact h.pipeline
    · rw [run_append, step, ← List.append_assoc, h.channel, List.filterMap_append,
        List.filterMap_append, hnew]
    · rw [List.filterMap_append]
      exact h.times.trans (List.sublist_append_left _ _)
  | turn now captureEvent =>
    have hlines : (acts ++ [Act.turn now captureEvent]).filterMap Act.line = acts.filterMap Act.line := by
      rw [List.filterMap_append]
      exact List.append_nil _
    cases hchannel : (run config acts).channel with
    | nil =>
      have hstep : step config (run config acts) (.turn now captureEvent) = run config acts := by
        simp only [step, hchannel]
      refine ⟨turns, ?_, ?_, ?_⟩
      · rw [run_append, hstep]
        exact h.pipeline
      · rw [run_append, hstep, hlines]
        exact h.channel
      · rw [List.filterMap_append]
        exact h.times.trans (List.sublist_append_left _ _)
    | cons captured channel =>
      have hstep : step config (run config acts) (.turn now captureEvent) =
          ⟨channel, processTurn config (run config acts).pipeline ⟨now, captured, captureEvent⟩⟩ := by
        simp only [step, hchannel]
      refine ⟨turns ++ [⟨now, captured, captureEvent⟩], ?_, ?_, ?_⟩
      · rw [run_append, hstep, h.pipeline, processCaptured_append]
        rfl
      · rw [run_append, hstep, hlines, ← h.channel, hchannel]
        simp
      · rw [List.filterMap_append, List.map_append]
        exact h.times.append (List.Sublist.refl _)

theorem run_taken (config : ReportConfig) (acts : List Act) : ∃ turns, Taken config acts turns := by
  induction acts using List.reverseRecOn with
  | nil => exact ⟨[], rfl, rfl, .slnil⟩
  | append_singleton acts act ih =>
    obtain ⟨turns, h⟩ := ih
    exact taken_step h act

/-- The turns that queued a log, in their order. -/
theorem sent_turns (config : ReportConfig) (turns : List Turn) : ∃ passed : List Turn,
    passed.Sublist turns ∧ (processCaptured config .start turns).sent.map Sent.message =
      passed.map fun turn => turn.captured.message := by
  induction turns using List.reverseRecOn with
  | nil => exact ⟨[], .slnil, rfl⟩
  | append_singleton turns turn ih =>
    obtain ⟨passed, hpassed, hsent⟩ := ih
    have hlast : processCaptured config .start (turns ++ [turn]) =
        processTurn config (processCaptured config .start turns) turn := by
      rw [processCaptured_append]
      rfl
    rw [hlast]
    rcases processTurn_cases config (processCaptured config .start turns) turn with
      ⟨-, heq⟩ | ⟨-, dropped, heq⟩
    · refine ⟨passed ++ [turn], hpassed.append (List.Sublist.refl _), ?_⟩
      rw [heq, List.map_append, List.map_append, hsent]
      rfl
    · refine ⟨passed, hpassed.trans (List.sublist_append_left _ _), ?_⟩
      rw [heq]
      exact hsent

/-- What a partial function finds in a list, beside what it finds it in. -/
theorem forall₂_filterMap {α β : Type} (f : α → Option β) (l : List α) :
    List.Forall₂ (fun a b => f a = some b) (l.filter fun a => (f a).isSome) (l.filterMap f) := by
  induction l with
  | nil => exact .nil
  | cons a l ih =>
    cases ha : f a with
    | none => simpa [ha] using ih
    | some b => simpa [ha] using ih

/-- Every log that is queued on the client is one that a thread logged and the layer
noticed. None is queued twice, and none before one that was logged earlier. -/
theorem logs_reported (config : ReportConfig) (acts : List Act) : ∃ lines : List LogLine,
    lines.Sublist (acts.filterMap Act.line) ∧
      List.Forall₂ (fun line (sent : Sent) => Noticed config line sent.message) lines
        (run config acts).pipeline.sent := by
  obtain ⟨turns, htaken⟩ := run_taken config acts
  obtain ⟨passed, hpassed, hsent⟩ := sent_turns config turns
  have hnoticed : (passed.map Turn.captured).Sublist
      ((acts.filterMap Act.line).filterMap (LogLine.captured config)) := by
    rw [← htaken.channel]
    exact (hpassed.map _).trans (List.sublist_append_left _ _)
  obtain ⟨lines, hlines, hcaptured⟩ := List.sublist_filterMap_iff.mp hnoticed
  refine ⟨lines.filter fun line => (line.captured config).isSome, List.filter_sublist.trans hlines, ?_⟩
  have hpairs := forall₂_filterMap (LogLine.captured config) lines
  rw [← hcaptured] at hpairs
  have hmessages : List.Forall₂ (fun line text => Noticed config line text)
      (lines.filter fun line => (line.captured config).isSome)
      (passed.map fun turn => turn.captured.message) := by
    rw [List.forall₂_map_right_iff] at hpairs ⊢
    exact hpairs.imp fun line turn h => (captured_eq_some.mp h).1
  rw [← hsent, ← htaken.pipeline, List.forall₂_map_right_iff] at hmessages
  exact hmessages

section Client

variable {env : Crates} {format : OffsetDateTime → Option String} {now : OffsetDateTime}
  {context : CaptureContext} {breadcrumbs : List Breadcrumb} {uuid : String} {config : ReportConfig}
  {line : LogLine} {captured : CapturedLog}

end Client

namespace Sample

def line : LogLine := ⟨.error, "game", some "no save slot", []⟩

def captured : CapturedLog := ⟨"no save slot", "game", .error, []⟩

end Sample

end Zbierak.LogReport
