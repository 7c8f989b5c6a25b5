import Zbierak.Crates
import Zbierak.Lib.Record
import Mathlib.Data.String.Basic
import Mathlib.Algebra.Group.Int.Defs

/-!
# Events as JSON documents

The derived writers and readers of the wire types. A writer lists its members
in the order of the fields and leaves out what is absent or empty; a reader
takes members in any order, ignores those it does not know and fills in
defaults. The text of a reader's error is not kept.
-/
namespace Zbierak

namespace Value

mutual

/-- The tree a document is read into: each object becomes a map. -/
def ofDocument : Value → Value
  | .array items => .array (itemsOfDocument items)
  | .object fields => .object (Record.collect (fieldsOfDocument fields))
  | .null => .null
  | .bool b => .bool b
  | .number n => .number n
  | .string text => .string text

def itemsOfDocument : List Value → List Value
  | [] => []
  | v :: rest => ofDocument v :: itemsOfDocument rest

def fieldsOfDocument : List (String × Value) → List (String × Value)
  | [] => []
  | field :: rest => fieldOfDocument field :: fieldsOfDocument rest

def fieldOfDocument : String × Value → String × Value
  | (key, v) => (key, ofDocument v)

end

mutual

/-- Every object is a map: its keys ascend. -/
def Ordered : Value → Prop
  | .array items => OrderedItems items
  | .object fields => Record.Ascending fields ∧ OrderedFields fields
  | .null | .bool _ | .number _ | .string _ => True

def OrderedItems : List Value → Prop
  | [] => True
  | v :: rest => Ordered v ∧ OrderedItems rest

def OrderedFields : List (String × Value) → Prop
  | [] => True
  | field :: rest => OrderedField field ∧ OrderedFields rest

def OrderedField : String × Value → Prop
  | (_, v) => Ordered v

end

mutual

theorem ofDocument_ordered : ∀ {v : Value}, Ordered v → ofDocument v = v
  | .array items, h => by
    rw [ofDocument, itemsOfDocument_ordered h]
  | .object fields, h => by
    rw [ofDocument, fieldsOfDocument_ordered h.2, Record.collect_ascending h.1]
  | .null, _ | .bool _, _ | .number _, _ | .string _, _ => rfl

theorem itemsOfDocument_ordered : ∀ {items : List Value}, OrderedItems items →
    itemsOfDocument items = items
  | [], _ => rfl
  | v :: rest, h => by
    rw [itemsOfDocument, ofDocument_ordered h.1, itemsOfDocument_ordered h.2]

theorem fieldsOfDocument_ordered : ∀ {fields : List (String × Value)}, OrderedFields fields →
    fieldsOfDocument fields = fields
  | [], _ => rfl
  | field :: rest, h => by
    rw [fieldsOfDocument, fieldOfDocument_ordered h.1, fieldsOfDocument_ordered h.2]

theorem fieldOfDocument_ordered : ∀ {field : String × Value}, OrderedField field →
    fieldOfDocument field = field
  | (key, v), h => by
    rw [fieldOfDocument, ofDocument_ordered h]

end

/-- An integer of that many bits. -/
def asUnsigned (bits : Nat) : Value → Option Nat
  | .number (.int n) => if 0 ≤ n ∧ n < 2 ^ bits then some n.toNat else none
  | _ => none

def asOption {α : Type} (read : Value → Option α) : Value → Option (Option α)
  | .null => some none
  | v => (read v).map some

def asVec {α : Type} (read : Value → Option α) : Value → Option (List α)
  | .array items => items.mapM read
  | _ => none

def asMap {α : Type} (read : Value → Option α) : Value → Option (List (String × α))
  | .object fields =>
    (fields.mapM fun field => (read field.2).map fun a => (field.1, a)).map Record.collect
  | _ => none

/-- A record of `size` fields, written as an object or as an array. -/
def asRecord {α : Type} (size : Nat) (read : Record.Source String Value → Option α) :
    Value → Option α
  | .object fields => read (.named fields)
  | .array items => if items.length ≤ size then read (.listed items) else none
  | _ => none

def unsigned (n : Nat) : Value := .number (.int n)

/-- A collection that is left out when it is empty. -/
def unlessEmpty {α : Type} (values : List α) (written : Value) : Option Value :=
  if values.isEmpty then none else some written

def ofVec {α : Type} (write : α → Value) (values : List α) : Option Value :=
  unlessEmpty values (.array (values.map write))

def ofMap {α : Type} (write : α → Value) (map : List (String × α)) : Option Value :=
  unlessEmpty map (.object (map.map fun entry => (entry.1, write entry.2)))

theorem asUnsigned_unsigned {bits n : Nat} (h : n < 2 ^ bits) :
    asUnsigned bits (unsigned n) = some n := by
  have hrange : (0 : Int) ≤ n ∧ (n : Int) < 2 ^ bits := ⟨by omega, by exact_mod_cast h⟩
  rw [unsigned, asUnsigned, if_pos hrange, Int.toNat_natCast]

theorem elim_asOption {α : Type} {write : α → Value} {read : Value → Option α} {o : Option α}
    (hnull : ∀ a, write a ≠ .null) (h : ∀ a, o = some a → read (write a) = some a) :
    (o.map write).elim (some none) (asOption read) = some o := by
  cases o with
  | none => rfl
  | some a =>
    rw [Option.map_some, Option.elim_some, asOption, h a rfl, Option.map_some]
    exact hnull a

theorem asVec_map {α : Type} {write : α → Value} {read : Value → Option α} {values : List α}
    (h : ∀ a ∈ values, read (write a) = some a) :
    asVec read (.array (values.map write)) = some values := by
  have hread := Record.mapM_map (f := id) h
  rw [List.map_id] at hread
  exact hread

theorem elim_asVec {α : Type} {write : α → Value} {read : Value → Option α} {values : List α}
    (h : ∀ a ∈ values, read (write a) = some a) :
    (ofVec write values).elim (some []) (asVec read) = some values := by
  cases values with
  | nil => rfl
  | cons a values => exact asVec_map h

theorem elim_asMap {α : Type} {write : α → Value} {read : Value → Option α}
    {map : List (String × α)} (hmap : Record.Ascending map)
    (h : ∀ entry ∈ map, read (write entry.2) = some entry.2) :
    (ofMap write map).elim (some []) (asMap read) = some map := by
  cases hcases : map with
  | nil => rfl
  | cons entry rest =>
    rw [← hcases]
    have hread : (map.map fun entry => (entry.1, write entry.2)).mapM
        (fun field => (read field.2).map fun a => (field.1, a)) = some (map.map id) := by
      refine Record.mapM_map fun entry hentry => ?_
      rw [h entry hentry]
      rfl
    rw [ofMap, unlessEmpty, if_neg (by simp [hcases]), Option.elim_some, asMap, hread, List.map_id,
      Option.map_some, Record.collect_ascending hmap]

end Value

open Value (asStr asBool asUnsigned asOption asVec asMap asRecord unsigned ofVec ofMap)

/-- Names of the variants in lower case. -/
def Severity.asStr : Severity → String
  | .debug => "debug"
  | .info => "info"
  | .warning => "warning"
  | .error => "error"
  | .fatal => "fatal"

def Severity.parse (name : String) : Option Severity :=
  [Severity.debug, .info, .warning, .error, .fatal].find? fun severity => severity.asStr = name

def Severity.serialize (severity : Severity) : Value := .string severity.asStr

/-- A variant is a name, or an object with that name and nothing under it. -/
def Severity.deserialize : Value → Option Severity
  | .string name => Severity.parse name
  | .object [(name, .null)] => Severity.parse name
  | _ => none

def StackFrame.fields (frame : StackFrame) : List (String × Option Value) :=
  [("filename", frame.filename.map .string), ("function", frame.function.map .string),
    ("line", frame.line.map unsigned), ("column", frame.column.map unsigned),
    ("module", frame.module.map .string), ("in_app", frame.inApp.map .bool)]

def StackFrame.serialize (frame : StackFrame) : Value := .object (Record.members frame.fields)

def StackFrame.read (source : Record.Source String Value) : Option StackFrame := do
  let filename ← source.field 0 "filename" (asOption Value.asStr) (some none)
  let function ← source.field 1 "function" (asOption Value.asStr) (some none)
  let line ← source.field 2 "line" (asOption (asUnsigned 32)) (some none)
  let column ← source.field 3 "column" (asOption (asUnsigned 32)) (some none)
  let module ← source.field 4 "module" (asOption Value.asStr) (some none)
  let inApp ← source.field 5 "in_app" (asOption asBool) (some none)
  return { filename, function, line, column, module, inApp }

def StackFrame.deserialize : Value → Option StackFrame := asRecord 6 StackFrame.read

/-- `type_name` is renamed. -/
def ErrorInfo.fields (error : ErrorInfo) : List (String × Option Value) :=
  [("type", some (.string error.typeName)), ("value", error.value.map .string),
    ("stack_frames", ofVec StackFrame.serialize error.stackFrames)]

def ErrorInfo.serialize (error : ErrorInfo) : Value := .object (Record.members error.fields)

def ErrorInfo.read (source : Record.Source String Value) : Option ErrorInfo := do
  let typeName ← source.field 0 "type" Value.asStr none
  let value ← source.field 1 "value" (asOption Value.asStr) (some none)
  let stackFrames ← source.field 2 "stack_frames" (asVec StackFrame.deserialize) (some [])
  return { typeName, value, stackFrames }

def ErrorInfo.deserialize : Value → Option ErrorInfo := asRecord 3 ErrorInfo.read

def Breadcrumb.fields (crumb : Breadcrumb) : List (String × Option Value) :=
  [("timestamp", some (.string crumb.timestamp)), ("message", some (.string crumb.message)),
    ("severity", some crumb.severity.serialize), ("category", crumb.category.map .string),
    ("data", ofMap (fun v => v) crumb.data)]

def Breadcrumb.serialize (crumb : Breadcrumb) : Value := .object (Record.members crumb.fields)

/-- A breadcrumb without a severity is informational, unlike an event. -/
def Breadcrumb.read (source : Record.Source String Value) : Option Breadcrumb := do
  let timestamp ← source.field 0 "timestamp" Value.asStr none
  let message ← source.field 1 "message" Value.asStr none
  let severity ← source.field 2 "severity" Severity.deserialize (some .info)
  let category ← source.field 3 "category" (asOption Value.asStr) (some none)
  let data ← source.field 4 "data" (asMap fun v => some v.ofDocument) (some [])
  return { timestamp, message, severity, category, data }

def Breadcrumb.deserialize : Value → Option Breadcrumb := asRecord 5 Breadcrumb.read

def UserInfo.fields (user : UserInfo) : List (String × Option Value) :=
  [("id", user.id.map .string), ("email", user.email.map .string),
    ("username", user.username.map .string), ("ip_address", user.ipAddress.map .string),
    ("data", ofMap (fun v => v) user.data)]

def UserInfo.serialize (user : UserInfo) : Value := .object (Record.members user.fields)

def UserInfo.read (source : Record.Source String Value) : Option UserInfo := do
  let id ← source.field 0 "id" (asOption Value.asStr) (some none)
  let email ← source.field 1 "email" (asOption Value.asStr) (some none)
  let username ← source.field 2 "username" (asOption Value.asStr) (some none)
  let ipAddress ← source.field 3 "ip_address" (asOption Value.asStr) (some none)
  let data ← source.field 4 "data" (asMap fun v => some v.ofDocument) (some [])
  return { id, email, username, ipAddress, data }

def UserInfo.deserialize : Value → Option UserInfo := asRecord 5 UserInfo.read

def Event.fields (event : Event) : List (String × Option Value) :=
  [("version", some (unsigned event.version)), ("event_id", some (.string event.eventId)),
    ("timestamp", some (.string event.timestamp)), ("message", some (.string event.message)),
    ("error", event.error.map ErrorInfo.serialize), ("severity", some event.severity.serialize),
    ("release", event.release.map .string), ("environment", event.environment.map .string),
    ("platform", event.platform.map .string),
    ("stack_frames", ofVec StackFrame.serialize event.stackFrames),
    ("breadcrumbs", ofVec Breadcrumb.serialize event.breadcrumbs),
    ("tags", ofMap .string event.tags), ("contexts", ofMap (fun v => v) event.contexts),
    ("user", event.user.map UserInfo.serialize),
    ("fingerprint", event.fingerprint.map fun parts => .array (parts.map .string))]

def Event.serialize (event : Event) : Value := .object (Record.members event.fields)

def Event.read (source : Record.Source String Value) : Option Event := do
  let version ← source.field 0 "version" (asUnsigned 16) (some protocolVersion)
  let eventId ← source.field 1 "event_id" Value.asStr none
  let timestamp ← source.field 2 "timestamp" Value.asStr none
  let message ← source.field 3 "message" Value.asStr none
  let error ← source.field 4 "error" (asOption ErrorInfo.deserialize) (some none)
  let severity ← source.field 5 "severity" Severity.deserialize (some .error)
  let release ← source.field 6 "release" (asOption Value.asStr) (some none)
  let environment ← source.field 7 "environment" (asOption Value.asStr) (some none)
  let platform ← source.field 8 "platform" (asOption Value.asStr) (some none)
  let stackFrames ← source.field 9 "stack_frames" (asVec StackFrame.deserialize) (some [])
  let breadcrumbs ← source.field 10 "breadcrumbs" (asVec Breadcrumb.deserialize) (some [])
  let tags ← source.field 11 "tags" (asMap Value.asStr) (some [])
  let contexts ← source.field 12 "contexts" (asMap fun v => some v.ofDocument) (some [])
  let user ← source.field 13 "user" (asOption UserInfo.deserialize) (some none)
  let fingerprint ← source.field 14 "fingerprint" (asOption (asVec Value.asStr)) (some none)
  return {
    version, eventId, timestamp, message, error, severity, release, environment, platform,
    stackFrames, breadcrumbs, tags, contexts, user, fingerprint }

def Event.deserialize : Value → Option Event := asRecord 15 Event.read

/-- What the types of the fields promise: unsigned numbers of 16 or 32 bits, and
maps in key order. -/
structure StackFrame.Typed (frame : StackFrame) : Prop where
  line : ∀ n, frame.line = some n → n < 2 ^ 32
  column : ∀ n, frame.column = some n → n < 2 ^ 32

/-- A map of JSON values. -/
structure TypedMap (map : List (String × Value)) : Prop where
  ascending : Record.Ascending map
  values : ∀ entry ∈ map, entry.2.Ordered

structure Event.Typed (event : Event) : Prop where
  version : event.version < 2 ^ 16
  error : ∀ error, event.error = some error → ∀ frame ∈ error.stackFrames, frame.Typed
  stackFrames : ∀ frame ∈ event.stackFrames, frame.Typed
  breadcrumbs : ∀ crumb ∈ event.breadcrumbs, TypedMap crumb.data
  tags : Record.Ascending event.tags
  contexts : TypedMap event.contexts
  user : ∀ user, event.user = some user → TypedMap user.data

theorem Severity.deserialize_serialize (severity : Severity) :
    Severity.deserialize severity.serialize = some severity := by
  cases severity <;> rfl

theorem asStr_string (o : Option String) :
    (o.map Value.string).elim (some none) (asOption Value.asStr) = some o :=
  Value.elim_asOption (fun _ => Value.noConfusion) fun _ _ => rfl

theorem asBool_bool (o : Option Bool) :
    (o.map Value.bool).elim (some none) (asOption asBool) = some o :=
  Value.elim_asOption (fun _ => Value.noConfusion) fun _ _ => rfl

theorem unsigned_elim {bits : Nat} {o : Option Nat} (h : ∀ n, o = some n → n < 2 ^ bits) :
    (o.map unsigned).elim (some none) (asOption (asUnsigned bits)) = some o :=
  Value.elim_asOption (fun _ => Value.noConfusion) fun n hn => Value.asUnsigned_unsigned (h n hn)

theorem TypedMap.elim {map : List (String × Value)} (h : TypedMap map) :
    (ofMap (fun v => v) map).elim (some []) (asMap fun v => some v.ofDocument) = some map :=
  Value.elim_asMap h.ascending fun entry hentry =>
    congrArg some (Value.ofDocument_ordered (h.values entry hentry))

theorem StackFrame.fields_distinct (frame : StackFrame) : (frame.fields.map Prod.fst).Nodup := by
  change ["filename", "function", "line", "column", "module", "in_app"].Nodup
  decide

theorem StackFrame.deserialize_serialize {frame : StackFrame} (h : frame.Typed) :
    StackFrame.deserialize frame.serialize = some frame := by
  have hfield : ∀ {α : Type} {key : String} (o : Option Value), (key, o) ∈ frame.fields →
      ∀ (index : Nat) (read : Value → Option α) (missing : Option α),
        (Record.Source.named (Record.members frame.fields)).field index key read missing =
          o.elim missing read := fun _ hmem => Record.field_members frame.fields_distinct hmem
  simp only [StackFrame.deserialize, StackFrame.serialize, asRecord, StackFrame.read]
  rw [hfield (frame.filename.map .string) (by simp [StackFrame.fields]), asStr_string]
  rw [hfield (frame.function.map .string) (by simp [StackFrame.fields]), asStr_string]
  rw [hfield (frame.line.map unsigned) (by simp [StackFrame.fields]), unsigned_elim h.line]
  rw [hfield (frame.column.map unsigned) (by simp [StackFrame.fields]), unsigned_elim h.column]
  rw [hfield (frame.module.map .string) (by simp [StackFrame.fields]), asStr_string]
  rw [hfield (frame.inApp.map .bool) (by simp [StackFrame.fields]), asBool_bool]
  rfl

theorem ErrorInfo.fields_distinct (error : ErrorInfo) : (error.fields.map Prod.fst).Nodup := by
  change ["type", "value", "stack_frames"].Nodup
  decide

theorem ErrorInfo.deserialize_serialize {error : ErrorInfo}
    (h : ∀ frame ∈ error.stackFrames, frame.Typed) :
    ErrorInfo.deserialize error.serialize = some error := by
  have hfield : ∀ {α : Type} {key : String} (o : Option Value), (key, o) ∈ error.fields →
      ∀ (index : Nat) (read : Value → Option α) (missing : Option α),
        (Record.Source.named (Record.members error.fields)).field index key read missing =
          o.elim missing read := fun _ hmem => Record.field_members error.fields_distinct hmem
  simp only [ErrorInfo.deserialize, ErrorInfo.serialize, asRecord, ErrorInfo.read]
  rw [hfield (some (.string error.typeName)) (by simp [ErrorInfo.fields]),
    Option.elim_some, Value.asStr]
  rw [hfield (error.value.map .string) (by simp [ErrorInfo.fields]), asStr_string]
  rw [hfield (ofVec StackFrame.serialize error.stackFrames) (by simp [ErrorInfo.fields]),
    Value.elim_asVec fun frame hmem => StackFrame.deserialize_serialize (h frame hmem)]
  rfl

theorem Breadcrumb.fields_distinct (crumb : Breadcrumb) : (crumb.fields.map Prod.fst).Nodup := by
  change ["timestamp", "message", "severity", "category", "data"].Nodup
  decide

theorem Breadcrumb.deserialize_serialize {crumb : Breadcrumb} (h : TypedMap crumb.data) :
    Breadcrumb.deserialize crumb.serialize = some crumb := by
  have hfield : ∀ {α : Type} {key : String} (o : Option Value), (key, o) ∈ crumb.fields →
      ∀ (index : Nat) (read : Value → Option α) (missing : Option α),
        (Record.Source.named (Record.members crumb.fields)).field index key read missing =
          o.elim missing read := fun _ hmem => Record.field_members crumb.fields_distinct hmem
  simp only [Breadcrumb.deserialize, Breadcrumb.serialize, asRecord, Breadcrumb.read]
  rw [hfield (some (.string crumb.timestamp)) (by simp [Breadcrumb.fields]),
    Option.elim_some, Value.asStr]
  rw [hfield (some (.string crumb.message)) (by simp [Breadcrumb.fields]),
    Option.elim_some, Value.asStr]
  rw [hfield (some crumb.severity.serialize) (by simp [Breadcrumb.fields]),
    Option.elim_some, Severity.deserialize_serialize]
  rw [hfield (crumb.category.map .string) (by simp [Breadcrumb.fields]), asStr_string]
  rw [hfield (ofMap (fun v => v) crumb.data) (by simp [Breadcrumb.fields]), h.elim]
  rfl

theorem UserInfo.fields_distinct (user : UserInfo) : (user.fields.map Prod.fst).Nodup := by
  change ["id", "email", "username", "ip_address", "data"].Nodup
  decide

theorem UserInfo.deserialize_serialize {user : UserInfo} (h : TypedMap user.data) :
    UserInfo.deserialize user.serialize = some user := by
  have hfield : ∀ {α : Type} {key : String} (o : Option Value), (key, o) ∈ user.fields →
      ∀ (index : Nat) (read : Value → Option α) (missing : Option α),
        (Record.Source.named (Record.members user.fields)).field index key read missing =
          o.elim missing read := fun _ hmem => Record.field_members user.fields_distinct hmem
  simp only [UserInfo.deserialize, UserInfo.serialize, asRecord, UserInfo.read]
  rw [hfield (user.id.map .string) (by simp [UserInfo.fields]), asStr_string]
  rw [hfield (user.email.map .string) (by simp [UserInfo.fields]), asStr_string]
  rw [hfield (user.username.map .string) (by simp [UserInfo.fields]), asStr_string]
  rw [hfield (user.ipAddress.map .string) (by simp [UserInfo.fields]), asStr_string]
  rw [hfield (ofMap (fun v => v) user.data) (by simp [UserInfo.fields]), h.elim]
  rfl

theorem Event.fields_distinct (event : Event) : (event.fields.map Prod.fst).Nodup := by
  change ["version", "event_id", "timestamp", "message", "error", "severity", "release",
    "environment", "platform", "stack_frames", "breadcrumbs", "tags", "contexts", "user",
    "fingerprint"].Nodup
  decide

/-- Reading what was written gives the event back. -/
theorem Event.deserialize_serialize {event : Event} (h : event.Typed) :
    Event.deserialize event.serialize = some event := by
  have hfield : ∀ {α : Type} {key : String} (o : Option Value), (key, o) ∈ event.fields →
      ∀ (index : Nat) (read : Value → Option α) (missing : Option α),
        (Record.Source.named (Record.members event.fields)).field index key read missing =
          o.elim missing read := fun _ hmem => Record.field_members event.fields_distinct hmem
  have herror : (event.error.map ErrorInfo.serialize).elim (some none)
      (asOption ErrorInfo.deserialize) = some event.error :=
    Value.elim_asOption (fun _ => Value.noConfusion) fun error hsome =>
      ErrorInfo.deserialize_serialize (h.error error hsome)
  have hframes := Value.elim_asVec fun frame hmem =>
    StackFrame.deserialize_serialize (h.stackFrames frame hmem)
  have hcrumbs := Value.elim_asVec fun crumb hmem =>
    Breadcrumb.deserialize_serialize (h.breadcrumbs crumb hmem)
  have htags : (ofMap .string event.tags).elim (some []) (asMap Value.asStr) = some event.tags :=
    Value.elim_asMap h.tags fun _ _ => rfl
  have huser : (event.user.map UserInfo.serialize).elim (some none)
      (asOption UserInfo.deserialize) = some event.user :=
    Value.elim_asOption (fun _ => Value.noConfusion) fun user hsome =>
      UserInfo.deserialize_serialize (h.user user hsome)
  have hfingerprint : (event.fingerprint.map fun parts => Value.array (parts.map .string)).elim
      (some none) (asOption (asVec Value.asStr)) = some event.fingerprint :=
    Value.elim_asOption (fun _ => Value.noConfusion) fun parts _ => Value.asVec_map fun _ _ => rfl
  simp only [Event.deserialize, Event.serialize, asRecord, Event.read]
  rw [hfield (some (unsigned event.version)) (by simp [Event.fields]),
    Option.elim_some, Value.asUnsigned_unsigned h.version]
  rw [hfield (some (.string event.eventId)) (by simp [Event.fields]), Option.elim_some, Value.asStr]
  rw [hfield (some (.string event.timestamp)) (by simp [Event.fields]),
    Option.elim_some, Value.asStr]
  rw [hfield (some (.string event.message)) (by simp [Event.fields]), Option.elim_some, Value.asStr]
  rw [hfield (event.error.map ErrorInfo.serialize) (by simp [Event.fields]), herror]
  rw [hfield (some event.severity.serialize) (by simp [Event.fields]),
    Option.elim_some, Severity.deserialize_serialize]
  rw [hfield (event.release.map .string) (by simp [Event.fields]), asStr_string]
  rw [hfield (event.environment.map .string) (by simp [Event.fields]), asStr_string]
  rw [hfield (event.platform.map .string) (by simp [Event.fields]), asStr_string]
  rw [hfield (ofVec StackFrame.serialize event.stackFrames) (by simp [Event.fields]), hframes]
  rw [hfield (ofVec Breadcrumb.serialize event.breadcrumbs) (by simp [Event.fields]), hcrumbs]
  rw [hfield (ofMap .string event.tags) (by simp [Event.fields]), htags]
  rw [hfield (ofMap (fun v => v) event.contexts) (by simp [Event.fields]), h.contexts.elim]
  rw [hfield (event.user.map UserInfo.serialize) (by simp [Event.fields]), huser]
  rw [hfield (event.fingerprint.map fun parts => .array (parts.map .string))
      (by simp [Event.fields]), hfingerprint]
  rfl

/-- What an event was read from. -/
theorem Event.read_some {source : Record.Source String Value} {event : Event}
    (h : Event.read source = some event) :
    source.field 0 "version" (asUnsigned 16) (some protocolVersion) = some event.version ∧
      source.field 1 "event_id" Value.asStr none = some event.eventId ∧
      source.field 3 "message" Value.asStr none = some event.message ∧
      source.field 14 "fingerprint" (asOption (asVec Value.asStr)) (some none) =
        some event.fingerprint := by
  obtain ⟨version, hversion, h⟩ := Option.bind_eq_some_iff.mp h
  obtain ⟨eventId, heventId, h⟩ := Option.bind_eq_some_iff.mp h
  obtain ⟨timestamp, -, h⟩ := Option.bind_eq_some_iff.mp h
  obtain ⟨message, hmessage, h⟩ := Option.bind_eq_some_iff.mp h
  obtain ⟨error, -, h⟩ := Option.bind_eq_some_iff.mp h
  obtain ⟨severity, -, h⟩ := Option.bind_eq_some_iff.mp h
  obtain ⟨release, -, h⟩ := Option.bind_eq_some_iff.mp h
  obtain ⟨environment, -, h⟩ := Option.bind_eq_some_iff.mp h
  obtain ⟨platform, -, h⟩ := Option.bind_eq_some_iff.mp h
  obtain ⟨stackFrames, -, h⟩ := Option.bind_eq_some_iff.mp h
  obtain ⟨breadcrumbs, -, h⟩ := Option.bind_eq_some_iff.mp h
  obtain ⟨tags, -, h⟩ := Option.bind_eq_some_iff.mp h
  obtain ⟨contexts, -, h⟩ := Option.bind_eq_some_iff.mp h
  obtain ⟨user, -, h⟩ := Option.bind_eq_some_iff.mp h
  obtain ⟨fingerprint, hfingerprint, h⟩ := Option.bind_eq_some_iff.mp h
  cases h
  exact ⟨hversion, heventId, hmessage, hfingerprint⟩

end Zbierak
