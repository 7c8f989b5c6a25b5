import Zbierak.Json

/-!
# The event protocol

Events as producers send them and the limits a server enforces before it
accepts one. Maps keep their entries in key order.
-/
namespace Zbierak

/-- The newest event schema understood by this version. -/
def protocolVersion : Nat := 1

inductive Severity where
  | debug | info | warning | error | fatal
  deriving DecidableEq, Repr

structure StackFrame where
  filename : Option String
  function : Option String
  line : Option Nat
  column : Option Nat
  module : Option String
  inApp : Option Bool
  deriving DecidableEq, Repr

structure ErrorInfo where
  typeName : String
  value : Option String
  stackFrames : List StackFrame
  deriving DecidableEq, Repr

structure Breadcrumb where
  timestamp : String
  message : String
  severity : Severity
  category : Option String
  data : List (String × Value)
  deriving Repr

structure UserInfo where
  id : Option String
  email : Option String
  username : Option String
  ipAddress : Option String
  data : List (String × Value)
  deriving Repr

structure Event where
  version : Nat
  eventId : String
  timestamp : String
  message : String
  error : Option ErrorInfo
  severity : Severity
  release : Option String
  environment : Option String
  platform : Option String
  stackFrames : List StackFrame
  breadcrumbs : List Breadcrumb
  tags : List (String × String)
  contexts : List (String × Value)
  user : Option UserInfo
  fingerprint : Option (List String)
  deriving Repr

/-- The event every builder starts from. -/
def Event.default : Event where
  version := protocolVersion
  eventId := ""
  timestamp := ""
  message := ""
  error := none
  severity := .error
  release := none
  environment := none
  platform := none
  stackFrames := []
  breadcrumbs := []
  tags := []
  contexts := []
  user := none
  fingerprint := none

/-- Successful ingestion response. -/
structure IngestResponse where
  id : String
  issueId : Int
  fingerprint : String
  duplicate : Bool
  deriving DecidableEq, Repr

structure ValidationError where
  field : String
  message : String
  deriving DecidableEq, Repr

/-- Civil date and time with the offset written in the text. -/
structure OffsetDateTime where
  year : Int
  month : Nat
  day : Nat
  hour : Nat
  minute : Nat
  second : Nat
  nanosecond : Nat
  offsetSeconds : Int
  deriving DecidableEq, Repr

def validateOptional (field value : String) (max : Nat) : Except ValidationError Unit :=
  if Text.byteLen value > max then .error ⟨field, s!"must be at most {max} bytes"⟩ else .ok ()

def validateRequired (field value : String) (max : Nat) : Except ValidationError Unit :=
  if Text.trim value = "" then .error ⟨field, "must not be empty"⟩
  else validateOptional field value max

def maxStackFrames : Nat := 256

def maxFrameFieldBytes : Nat := 1024

def validateStackFrames (field : String) (frames : List StackFrame) :
    Except ValidationError Unit := do
  if frames.length > maxStackFrames then
    .error ⟨field, s!"must contain at most {maxStackFrames} frames"⟩
  frames.forM fun frame =>
    [frame.function, frame.filename, frame.module].forM fun value =>
      validateOptional field (value.getD "") maxFrameFieldBytes

def minTimestampYear : Int := 2000

def maxTimestampYear : Int := 2100

/-- The year is the one written in the text, in the text's own offset. -/
def validateTimestamp (parseRfc3339 : String → Option OffsetDateTime) (field value : String) :
    Except ValidationError Unit :=
  match parseRfc3339 value with
  | none => .error ⟨field, "must be an RFC 3339 timestamp such as 2026-09-24T12:00:00Z"⟩
  | some parsed =>
    if minTimestampYear ≤ parsed.year ∧ parsed.year ≤ maxTimestampYear then .ok ()
    else .error ⟨field, s!"must fall between years {minTimestampYear} and {maxTimestampYear}"⟩

/-- Protocol invariants and ingestion limits; the error names the first field
that violates one. -/
def Event.validate (parseRfc3339 : String → Option OffsetDateTime) (event : Event) :
    Except ValidationError Unit := do
  if event.version ≠ protocolVersion then
    .error ⟨"version", s!"unsupported protocol version {event.version}"⟩
  validateRequired "event_id" event.eventId 128
  validateRequired "timestamp" event.timestamp 64
  validateTimestamp parseRfc3339 "timestamp" event.timestamp
  validateRequired "message" event.message 16384
  if event.tags.length > 100 then
    .error ⟨"tags", "must contain at most 100 entries"⟩
  event.tags.forM fun entry => do
    validateRequired "tags.key" entry.1 128
    validateOptional "tags.value" entry.2 1024
  if event.contexts.length > 50 then
    .error ⟨"contexts", "must contain at most 50 entries"⟩
  if event.breadcrumbs.length > 1000 then
    .error ⟨"breadcrumbs", "must contain at most 1000 entries"⟩
  validateStackFrames "stack_frames" event.stackFrames
  if let some error := event.error then
    validateStackFrames "error.stack_frames" error.stackFrames
  if let some parts := event.fingerprint then
    if parts.isEmpty ∨ parts.length > 10 then
      .error ⟨"fingerprint", "must contain between 1 and 10 components"⟩
    parts.forM fun part => validateRequired "fingerprint" part 1024

end Zbierak
