import Zbierak.Codec
import Zbierak.PanicReport
import Zbierak.Lib.Trail

/-!
# Breadcrumbs

Clients, their clones and the tracing layer share one trail of breadcrumbs behind
a lock. A capture copies the trail into an event that brings none. The protocol
takes a thousand of them, whatever capacity the trail was given.
-/
namespace Zbierak.Breadcrumbs

open PanicReport Sdk Stacktrace

inductive Level where
  | trace | debug | info | warn | error
  deriving DecidableEq, Repr

def tracingSeverity : Level → Severity
  | .trace | .debug => .debug
  | .info => .info
  | .warn => .warning
  | .error => .error

/-- A field as the visitor is shown it; whatever has no method of its own is
shown in its debug form. -/
inductive FieldValue where
  | i64 (n : Int)
  | u64 (n : Nat)
  | bool (b : Bool)
  | str (text : String)
  | debug (text : String)
  deriving DecidableEq, Repr

structure EventVisitor where
  message : Option String
  data : List (String × Value)

def EventVisitor.default : EventVisitor := ⟨none, []⟩

/-- Only text can be the message; a number of that name is data. -/
def EventVisitor.record (visitor : EventVisitor) (field : String × FieldValue) : EventVisitor :=
  match field.2 with
  | .i64 n => { visitor with data := Record.insert field.1 (.number (.int n)) visitor.data }
  | .u64 n => { visitor with data := Record.insert field.1 (.number (.int n)) visitor.data }
  | .bool b => { visitor with data := Record.insert field.1 (.bool b) visitor.data }
  | .str text | .debug text =>
    if field.1 = "message" then { visitor with message := some text }
    else { visitor with data := Record.insert field.1 (.string text) visitor.data }

/-- A log event with its metadata. -/
structure TracingEvent where
  name : String
  target : String
  level : Level
  fields : List (String × FieldValue)

/-- The breadcrumb of a log event. -/
def crumbOf (timestamp : String) (event : TracingEvent) : Breadcrumb :=
  let visitor := event.fields.foldl EventVisitor.record .default
  { timestamp
    message := visitor.message.getD event.name
    severity := tracingSeverity event.level
    category := some event.target
    data := visitor.data }

abbrev Crumbs := List Breadcrumb

def pushBreadcrumb (capacity : Nat) (breadcrumb : Breadcrumb) (breadcrumbs : Crumbs) : Crumbs :=
  Trail.push capacity breadcrumb breadcrumbs

/-- The tracing layer. -/
def onEvent (capacity : Nat) (timestamp : String) (event : TracingEvent) (breadcrumbs : Crumbs) :
    Crumbs :=
  if capacity = 0 then breadcrumbs else pushBreadcrumb capacity (crumbOf timestamp event) breadcrumbs

/-- What any thread does with the trail, under its lock. -/
inductive Act where
  | addBreadcrumb (breadcrumb : Breadcrumb)
  | trace (timestamp : String) (event : TracingEvent)
  | capture

def Act.run (capacity : Nat) (breadcrumbs : Crumbs) : Act → Crumbs
  | .addBreadcrumb breadcrumb => pushBreadcrumb capacity breadcrumb breadcrumbs
  | .trace timestamp event => onEvent capacity timestamp event breadcrumbs
  | .capture => breadcrumbs

/-- The trail of a client after what its threads did, in the order of the lock. -/
def trail (capacity : Nat) (acts : List Act) : Crumbs := acts.foldl (Act.run capacity) []

def Act.recorded : Act → Option Breadcrumb
  | .addBreadcrumb breadcrumb => some breadcrumb
  | .trace timestamp event => some (crumbOf timestamp event)
  | .capture => none

/-- Everything that was recorded. -/
def recorded (acts : List Act) : Crumbs := acts.filterMap Act.recorded

theorem run_eq (capacity : Nat) (breadcrumbs : Crumbs) (act : Act) :
    act.run capacity breadcrumbs =
      act.recorded.toList.foldl (fun trail crumb => Trail.push capacity crumb trail) breadcrumbs := by
  cases act with
  | addBreadcrumb => rfl
  | trace timestamp event =>
    by_cases h : capacity = 0
    · simp [Act.run, Act.recorded, onEvent, h, Trail.push]
    · simp [Act.run, Act.recorded, onEvent, h, pushBreadcrumb]
  | capture => rfl

/-- The trail holds the newest of what was recorded. -/
theorem trail_eq (capacity : Nat) (acts : List Act) :
    trail capacity acts = (recorded acts).rtake capacity := by
  induction acts using List.reverseRecOn with
  | nil => simp [trail, recorded]
  | append_singleton acts act ih =>
    rw [trail, List.foldl_append, List.foldl_cons, List.foldl_nil, ← trail, ih, run_eq,
      Trail.foldl_push, recorded, recorded, List.filterMap_append]
    cases act <;> rfl

/-- Data of a log event are a map. -/
theorem typed_record {visitor : EventVisitor} (h : TypedMap visitor.data) (field : String × FieldValue) :
    TypedMap (visitor.record field).data := by
  have hinsert : ∀ v : Value, v.Ordered → TypedMap (Record.insert field.1 v visitor.data) := fun v hv =>
    ⟨h.ascending.insert field.1 v, fun entry hentry => by
      rcases Record.mem_of_mem_insert hentry with rfl | hold
      · exact hv
      · exact h.values entry hold⟩
  obtain ⟨name, value⟩ := field
  cases value with
  | i64 | u64 | bool => exact hinsert _ trivial
  | str text | debug text =>
    dsimp only [EventVisitor.record]
    split
    · exact h
    · exact hinsert _ trivial

/-- What the layer records can be written to the spool and read back. -/
theorem typed_crumb (timestamp : String) (event : TracingEvent) :
    TypedMap (crumbOf timestamp event).data := by
  have hfold : ∀ (fields : List (String × FieldValue)) (visitor : EventVisitor), TypedMap visitor.data →
      TypedMap (fields.foldl EventVisitor.record visitor).data := by
    intro fields
    induction fields with
    | nil => exact fun _ h => h
    | cons field fields ih => exact fun visitor h => ih _ (typed_record h field)
  exact hfold event.fields .default ⟨List.Pairwise.nil, fun _ h => (List.not_mem_nil h).elim⟩

theorem validate_crumbs {parse : String → Option OffsetDateTime} {event : Event} (h : event.Valid parse)
    {breadcrumbs : Crumbs} (hmany : 1000 < breadcrumbs.length) :
    Event.validate parse { event with breadcrumbs } =
      .error ⟨"breadcrumbs", "must contain at most 1000 entries"⟩ := by
  have htags : (event.tags.forM fun entry => do
      validateRequired "tags.key" entry.1 128
      validateOptional "tags.value" entry.2 1024 : Except ValidationError Unit) = .ok () := by
    rw [forM_ok]
    intro entry hentry
    rw [then_ok, validateRequired_ok, validateOptional_ok]
    exact h.tags entry hentry
  simp only [bind, Except.bind] at htags
  simp only [Event.validate, h.version, ne_eq, not_true_eq_false, if_false, bind, Except.bind,
    validateRequired_ok.mpr h.eventId, validateRequired_ok.mpr h.timestamp,
    validateTimestamp_ok.mpr h.date, validateRequired_ok.mpr h.message,
    if_neg (Nat.not_lt.mpr h.fewTags), htags, if_neg (Nat.not_lt.mpr h.fewContexts), if_pos hmany]

/-- Upper bound on the causes that are written down. -/
def maxErrorChain : Nat := 10

/-- The causes of an error, from the nearest on. -/
def errorChainContext (causes : List String) : List Value :=
  (causes.take maxErrorChain).map fun cause =>
    .object [("type", .string "cause"), ("value", .string cause)]

/-- What an application reports: a message, or an error with its type, its text
and the texts of its causes. -/
inductive Report where
  | message (text : String) (severity : Severity)
  | error (typeName text : String) (causes : List String) (stack : List BacktraceSymbol)
    (severity : Severity)

def Report.text : Report → String
  | .message text _ => text
  | .error _ text _ _ _ => text

def errorEvent (typeName text : String) (causes : List String) (stack : List BacktraceSymbol)
    (severity : Severity) : Event :=
  let chain := errorChainContext causes
  { Event.default with
    message := text
    severity
    error := some { typeName, value := some text, stackFrames := captureFrames stack }
    contexts := if chain.isEmpty then [] else [("error_chain", .array chain)] }

theorem length_errorContexts (causes : List String) :
    (if (errorChainContext causes).isEmpty then []
      else [("error_chain", Value.array (errorChainContext causes))]).length ≤ 50 := by
  split
  · exact Nat.zero_le 50
  · exact Nat.succ_le_succ (Nat.zero_le 49)

/-- `capture_message` and `capture_error`. -/
def Report.event : Report → Event
  | .message text severity => { Event.default with message := text, severity }
  | .error typeName text causes stack severity => errorEvent typeName text causes stack severity

theorem built_report (r : Report) : Built r.event := by
  cases r with
  | message text severity =>
    exact ⟨rfl, rfl, rfl, rfl, Nat.zero_le _, Nat.zero_le _, framesFit_nil, nofun, rfl⟩
  | error typeName text causes stack severity =>
    refine ⟨rfl, rfl, rfl, rfl, Nat.zero_le _, length_errorContexts causes, framesFit_nil, ?_, rfl⟩
    rintro error ⟨⟩
    exact framesFit_captureFrames stack

/-- All other limits are met by what the client fills in. -/
theorem fits_report (r : Report) (breadcrumbs : Crumbs) :
    Fits r.event breadcrumbs ↔ Required 16384 r.text ∧ breadcrumbs.length ≤ 1000 := by
  cases r <;>
    exact ⟨fun h => ⟨h.message, h.breadcrumbs⟩, fun h => ⟨h.1, by simp [Report.event, errorEvent, Event.default], h.2⟩⟩

namespace Sample

def logEvent : TracingEvent :=
  ⟨"event src/main.rs:7", "demo::net", .warn, [("retries", .u64 3), ("message", .debug "retrying")]⟩

def acts : List Act :=
  [.addBreadcrumb ⟨"2026-01-02T03:04:01Z", "started", .info, none, []⟩, .capture,
    .trace "2026-01-02T03:04:02Z" logEvent]

def boot : Event := (Report.message "boot" .info).event

theorem typed_boot : boot.Typed :=
  ⟨by decide, by simp [boot, Report.event, Event.default],
    by simp [boot, Report.event, Event.default], by simp [boot, Report.event, Event.default],
    .nil, ⟨.nil, by simp [boot, Report.event, Event.default]⟩,
    by simp [boot, Report.event, Event.default]⟩

theorem prepare_boot {breadcrumbs : Crumbs} (h : breadcrumbs.length ≤ 1000) :
    PanicReport.Sample.context.prepare Zbierak.Sample.crates PanicReport.Sample.uuid
      "2026-01-02T03:04:05Z" breadcrumbs boot =
        .ok (fill PanicReport.Sample.context PanicReport.Sample.uuid "2026-01-02T03:04:05Z"
          breadcrumbs boot) :=
  (prepare_ok rfl).mpr ⟨((built_report _).valid_iff PanicReport.Sample.context breadcrumbs
    PanicReport.Sample.hyphenated_uuid PanicReport.Sample.writes_now (by decide)).mpr
      ((fits_report _ _).mpr ⟨⟨by decide, by decide⟩, h⟩), rfl⟩

end Sample

/-- An event without breadcrumbs of its own is captured with the newest that were
recorded, as many as the trail keeps, and is refused for them alone when these
are more than a thousand. -/
theorem trail_captured (env : Crates) (context : CaptureContext) (hredactor : context.redactor = none)
    (capacity : Nat) (acts : List Act) (uuid timestamp : String) {event plain : Event}
    (hempty : event.breadcrumbs = []) (hplain : context.prepare env uuid timestamp [] event = .ok plain) :
    context.prepare env uuid timestamp (trail capacity acts) event =
      if min capacity (recorded acts).length ≤ 1000 then
        .ok { plain with breadcrumbs := (recorded acts).rtake capacity }
      else .error (.invalidEvent ⟨"breadcrumbs", "must contain at most 1000 entries"⟩) := by
  obtain ⟨hvalid, rfl⟩ := (prepare_ok hredactor).mp hplain
  have hfill : fill context uuid timestamp (trail capacity acts) event =
      { fill context uuid timestamp [] event with breadcrumbs := (recorded acts).rtake capacity } := by
    simp only [fill, hempty, trail_eq, List.isEmpty_nil, if_true]
  have hlength : ((recorded acts).rtake capacity).length = min capacity (recorded acts).length :=
    Trail.length_rtake _ _
  split
  · next hfew =>
    refine (prepare_ok hredactor).mpr ⟨?_, hfill⟩
    rw [hfill]
    exact { hvalid with fewBreadcrumbs := hlength.trans_le hfew }
  · next hmany =>
    rw [prepare_fill env hredactor, hfill, validate_crumbs hvalid (by omega)]
    rfl

/-- A trail of one, on which a log event pushed the first breadcrumb out. -/
theorem trail_captured_newest : PanicReport.Sample.context.prepare Zbierak.Sample.crates
    PanicReport.Sample.uuid "2026-01-02T03:04:05Z" (trail 1 Sample.acts)
      Sample.boot =
    .ok { Sample.boot with
      eventId := PanicReport.Sample.uuid
      timestamp := "2026-01-02T03:04:05Z"
      breadcrumbs := [{
        timestamp := "2026-01-02T03:04:02Z"
        message := "retrying"
        severity := .warning
        category := some "demo::net"
        data := [("retries", .number (.int 3))] }] } :=
  trail_captured Zbierak.Sample.crates PanicReport.Sample.context rfl 1 Sample.acts
    PanicReport.Sample.uuid "2026-01-02T03:04:05Z" rfl
    (Sample.prepare_boot (Nat.zero_le _))

theorem typed_trail {capacity : Nat} {acts : List Act}
    (hadded : ∀ crumb, Act.addBreadcrumb crumb ∈ acts → TypedMap crumb.data) :
    ∀ crumb ∈ trail capacity acts, TypedMap crumb.data := by
  intro crumb hcrumb
  rw [trail_eq] at hcrumb
  obtain ⟨act, hact, hrecorded⟩ := List.mem_filterMap.mp (List.mem_of_mem_drop hcrumb)
  cases act with
  | addBreadcrumb added =>
    obtain rfl := Option.some.inj hrecorded
    exact hadded _ hact
  | trace timestamp event =>
    obtain rfl := Option.some.inj hrecorded
    exact typed_crumb timestamp event
  | capture => cases hrecorded

/-- Whatever was logged before, an event that is captured survives the spool. -/
theorem captured_readBack (env : Crates) (context : CaptureContext) (hredactor : context.redactor = none)
    (capacity : Nat) (acts : List Act)
    (hadded : ∀ crumb, Act.addBreadcrumb crumb ∈ acts → TypedMap crumb.data)
    (uuid timestamp : String) {event prepared : Event} (htyped : event.Typed)
    (hprepared : context.prepare env uuid timestamp (trail capacity acts) event = .ok prepared) :
    Event.deserialize prepared.serialize = some prepared := by
  obtain ⟨-, rfl⟩ := (prepare_ok hredactor).mp hprepared
  refine Event.deserialize_serialize { htyped with breadcrumbs := ?_ }
  dsimp only [fill]
  split
  · exact typed_trail hadded
  · exact htyped.breadcrumbs

theorem captured_readBack_traced :
    let prepared := { Sample.boot with
      eventId := PanicReport.Sample.uuid
      timestamp := "2026-01-02T03:04:05Z"
      breadcrumbs := trail 100 Sample.acts }
    Event.deserialize prepared.serialize = some prepared :=
  captured_readBack Zbierak.Sample.crates PanicReport.Sample.context rfl 100 Sample.acts
    (fun crumb hcrumb => by
      obtain rfl : crumb = ⟨"2026-01-02T03:04:01Z", "started", .info, none, []⟩ := by
        simpa [Sample.acts] using hcrumb
      exact ⟨List.Pairwise.nil, fun _ h => (List.not_mem_nil h).elim⟩)
    PanicReport.Sample.uuid "2026-01-02T03:04:05Z"
    Sample.typed_boot
    (Sample.prepare_boot (by decide))

/-- A message or an error of any type, with any causes and any stack, is captured
when its text is not blank and fits, and the trail does not hold too many. -/
theorem report_captured_iff (env : Crates) (format : OffsetDateTime → Option String)
    (context : CaptureContext) (hredactor : context.redactor = none) (capacity : Nat)
    (acts : List Act) (uuid : String) (huuid : Hyphenated uuid) (now : OffsetDateTime)
    (htext : ∃ text, Writes env format now text) (hyear : 2000 ≤ now.year ∧ now.year ≤ 2100)
    (r : Report) :
    (∃ event, context.prepare env uuid (nowTimestamp format now) (trail capacity acts) r.event =
        .ok event) ↔
      Required 16384 r.text ∧ min capacity (recorded acts).length ≤ 1000 := by
  rw [(built_report r).captured_iff hredactor huuid htext hyear, fits_report, trail_eq,
    Trail.length_rtake]

/-- An error with a cause, after what was logged. -/
theorem report_captured_iff_caused : ∃ event, PanicReport.Sample.context.prepare Zbierak.Sample.crates
    PanicReport.Sample.uuid (nowTimestamp PanicReport.Sample.format PanicReport.Sample.now)
      (trail 100 Sample.acts) (Report.error "demo::Error" "boom" ["refused"] [] .error).event =
        .ok event :=
  (report_captured_iff Zbierak.Sample.crates PanicReport.Sample.format PanicReport.Sample.context rfl
    100 Sample.acts PanicReport.Sample.uuid PanicReport.Sample.hyphenated_uuid PanicReport.Sample.now
    ⟨_, PanicReport.Sample.writes_now⟩ (by decide) _).mpr ⟨⟨by decide, by decide⟩, by decide⟩

end Zbierak.Breadcrumbs
