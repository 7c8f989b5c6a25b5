import Zbierak.Codec
import Zbierak.Idempotence
import Zbierak.Spool

/-!
# A retry from the spool

What the spool holds is the text of an event. Read back and written again it is
the same text, so that the service takes the retry of an accepted event for the
duplicate it is.
-/
namespace Zbierak

namespace Value

mutual

def floatFree : Value → Bool
  | .array items => floatFreeItems items
  | .object fields => floatFreeFields fields
  | .number (.float _) => false
  | .number (.int _) | .null | .bool _ | .string _ => true

def floatFreeItems : List Value → Bool
  | [] => true
  | v :: rest => floatFree v && floatFreeItems rest

def floatFreeFields : List (String × Value) → Bool
  | [] => true
  | field :: rest => floatFreeField field && floatFreeFields rest

def floatFreeField : String × Value → Bool
  | (_, v) => floatFree v

end

mutual

/-- How deep arrays and objects are nested. -/
def depth : Value → Nat
  | .array items => depthItems items + 1
  | .object fields => depthFields fields + 1
  | .null | .bool _ | .number _ | .string _ => 0

def depthItems : List Value → Nat
  | [] => 0
  | v :: rest => max (depth v) (depthItems rest)

def depthFields : List (String × Value) → Nat
  | [] => 0
  | field :: rest => max (depthField field) (depthFields rest)

def depthField : String × Value → Nat
  | (_, v) => depth v

end

/-- The parser refuses documents that are nested this deep. -/
def recursionLimit : Nat := 128

theorem floatFreeItems_iff {items : List Value} :
    floatFreeItems items = true ↔ ∀ v ∈ items, floatFree v = true := by
  induction items with
  | nil => simp [floatFreeItems]
  | cons v rest ih => simp [floatFreeItems, ih]

theorem floatFreeFields_iff {fields : List (String × Value)} :
    floatFreeFields fields = true ↔ ∀ field ∈ fields, floatFree field.2 = true := by
  induction fields with
  | nil => simp [floatFreeFields]
  | cons field rest ih =>
    obtain ⟨key, v⟩ := field
    rw [floatFreeFields, Bool.and_eq_true, ih, List.forall_mem_cons, floatFreeField]

end Value

namespace SpoolRetry

open Value (floatFree)

/-- The values of a map hold no floating point number. -/
def FloatFreeMap (map : List (String × Value)) : Prop :=
  ∀ entry ∈ map, floatFree entry.2 = true

/-- None of the JSON values an event carries holds one. -/
structure FloatFree (event : Event) : Prop where
  contexts : FloatFreeMap event.contexts
  breadcrumbs : ∀ crumb ∈ event.breadcrumbs, FloatFreeMap crumb.data
  user : ∀ user, event.user = some user → FloatFreeMap user.data

/-- A written field, when there is one, holds none. -/
def FloatFreeField (o : Option Value) : Prop := ∀ v, o = some v → floatFree v = true

theorem floatFree_record {fields : List (String × Option Value)}
    (h : ∀ field ∈ fields, FloatFreeField field.2) :
    floatFree (.object (Record.members fields)) = true := by
  rw [floatFree, Value.floatFreeFields_iff]
  intro member hmember
  obtain ⟨field, hfield, hsome⟩ := List.mem_filterMap.mp hmember
  obtain ⟨v, hv, rfl⟩ := Option.map_eq_some_iff.mp hsome
  exact h field hfield v hv

theorem floatFreeField_string (text : String) : FloatFreeField (some (.string text)) := by
  rintro _ ⟨⟩
  rfl

theorem floatFreeField_map {α : Type} {write : α → Value} {o : Option α}
    (h : ∀ a, o = some a → floatFree (write a) = true) : FloatFreeField (o.map write) := by
  intro v hv
  obtain ⟨a, ha, rfl⟩ := Option.map_eq_some_iff.mp hv
  exact h a ha

theorem floatFreeField_vec {α : Type} {write : α → Value} {values : List α}
    (h : ∀ a ∈ values, floatFree (write a) = true) : FloatFreeField (Value.ofVec write values) := by
  intro v hv
  unfold Value.ofVec Value.unlessEmpty at hv
  split at hv
  · cases hv
  · cases hv
    rw [floatFree, Value.floatFreeItems_iff]
    simpa using h

theorem floatFreeField_ofMap {α : Type} {write : α → Value} {map : List (String × α)}
    (h : ∀ entry ∈ map, floatFree (write entry.2) = true) :
    FloatFreeField (Value.ofMap write map) := by
  intro v hv
  unfold Value.ofMap Value.unlessEmpty at hv
  split at hv
  · cases hv
  · cases hv
    rw [floatFree, Value.floatFreeFields_iff]
    intro field hfield
    obtain ⟨entry, hentry, rfl⟩ := List.mem_map.mp hfield
    exact h entry hentry

theorem FloatFreeMap.field {map : List (String × Value)} (h : FloatFreeMap map) :
    FloatFreeField (Value.ofMap (fun v => v) map) := floatFreeField_ofMap h

theorem floatFreeField_text (o : Option String) : FloatFreeField (o.map .string) :=
  floatFreeField_map fun _ _ => rfl

theorem floatFree_frame (frame : StackFrame) : floatFree frame.serialize = true := by
  apply floatFree_record
  simp only [StackFrame.fields, List.forall_mem_cons]
  exact ⟨floatFreeField_text _, floatFreeField_text _, floatFreeField_map fun _ _ => rfl,
    floatFreeField_map fun _ _ => rfl, floatFreeField_text _, floatFreeField_map fun _ _ => rfl,
    List.forall_mem_nil _⟩

theorem floatFree_error (error : ErrorInfo) : floatFree error.serialize = true := by
  apply floatFree_record
  simp only [ErrorInfo.fields, List.forall_mem_cons]
  exact ⟨floatFreeField_string _, floatFreeField_text _,
    floatFreeField_vec fun frame _ => floatFree_frame frame, List.forall_mem_nil _⟩

theorem floatFree_crumb {crumb : Breadcrumb} (h : FloatFreeMap crumb.data) :
    floatFree crumb.serialize = true := by
  apply floatFree_record
  simp only [Breadcrumb.fields, List.forall_mem_cons]
  exact ⟨floatFreeField_string _, floatFreeField_string _, floatFreeField_string _,
    floatFreeField_text _, h.field, List.forall_mem_nil _⟩

theorem floatFree_user {user : UserInfo} (h : FloatFreeMap user.data) :
    floatFree user.serialize = true := by
  apply floatFree_record
  simp only [UserInfo.fields, List.forall_mem_cons]
  exact ⟨floatFreeField_text _, floatFreeField_text _, floatFreeField_text _,
    floatFreeField_text _, h.field, List.forall_mem_nil _⟩

/-- Nothing else in the document of an event is a floating point number. -/
theorem FloatFree.serialize {event : Event} (h : FloatFree event) :
    floatFree event.serialize = true := by
  have hversion : FloatFreeField (some (Value.unsigned event.version)) := by
    rintro _ ⟨⟩
    rfl
  have herror := floatFreeField_map fun error (_ : event.error = some error) =>
    floatFree_error error
  have hframes := floatFreeField_vec fun frame (_ : frame ∈ event.stackFrames) =>
    floatFree_frame frame
  have hcrumbs := floatFreeField_vec fun crumb hmem => floatFree_crumb (h.breadcrumbs crumb hmem)
  have htags : FloatFreeField (Value.ofMap .string event.tags) :=
    floatFreeField_ofMap fun _ _ => rfl
  have huser := floatFreeField_map fun user hsome => floatFree_user (h.user user hsome)
  have hfingerprint : FloatFreeField
      (event.fingerprint.map fun parts => .array (parts.map .string)) :=
    floatFreeField_map fun parts _ => by simp [floatFree, Value.floatFreeItems_iff]
  apply floatFree_record
  simp only [Event.fields, List.forall_mem_cons]
  exact ⟨hversion, floatFreeField_string _, floatFreeField_string _, floatFreeField_string _,
    herror, floatFreeField_string _, floatFreeField_text _, floatFreeField_text _,
    floatFreeField_text _, hframes, hcrumbs, htags, h.contexts.field, huser, hfingerprint,
    List.forall_mem_nil _⟩

/-- What is relied on of the JSON library for the document of one event: its
text is read back to the same document unless there are floating point numbers
in it or it is nested too deep, and events are written to and read from text
through their documents. -/
structure JsonText (env : Crates) (text : Value → Bytes) (tree : Bytes → Option Value)
    (event : Event) : Prop where
  codec : floatFree event.serialize = true → event.serialize.depth < Value.recursionLimit →
    tree (text event.serialize) = some event.serialize
  toVec : env.eventToVec event = .ok (text event.serialize)
  fromSlice : ∀ document, tree (text event.serialize) = some document →
    (env.eventFromSlice (text event.serialize)).toOption = Event.deserialize document

theorem JsonText.fromSlice_toVec {env : Crates} {text : Value → Bytes} {tree : Bytes → Option Value}
    {event : Event} (h : JsonText env text tree event) (htyped : event.Typed)
    (hfree : FloatFree event) (hdepth : event.serialize.depth < Value.recursionLimit) :
    ∃ body, env.eventToVec event = .ok body ∧ env.eventFromSlice body = .ok event := by
  have hread := h.fromSlice _ (h.codec hfree.serialize hdepth)
  rw [Event.deserialize_serialize htyped] at hread
  refine ⟨_, h.toVec, ?_⟩
  cases hslice : env.eventFromSlice (text event.serialize) with
  | error e => simp [hslice, Except.toOption] at hread
  | ok event' =>
    rw [hslice] at hread
    exact congrArg Except.ok (Option.some.inj hread)

open Server
open Ingest (IngestProject)

/-- An event comes back from its document, its text is the same when it is read
and written again, and a retry of the file that `store` wrote for it repeats the
answer of the first acceptance. -/
theorem retry_duplicate (cfg : Setup) (text : Value → Bytes) (tree : Bytes → Option Value)
    (event : Event) (hjson : JsonText cfg.env text tree event) (htyped : event.Typed)
    (hfree : FloatFree event) (hdepth : event.serialize.depth < Value.recursionLimit) :
    Event.deserialize event.serialize = some event ∧
    (∃ body, cfg.env.eventToVec event = .ok body ∧
      (cfg.env.eventFromSlice body).bind cfg.env.eventToVec = .ok body) ∧
    ∀ (before between : List (Int × Op)) (now : Int) (req : IngestProject) (body : Bytes)
      (storageId : String) (first : IngestResponse) (maxBytes : Nat) (dir left : Spool.Directory)
      (file : Spool.File) (retried : Event) (resent : Bytes) (again : IngestProject)
      (storageId' : String) (now' : Int),
      cfg.env.eventToVec event = .ok body →
      (exec cfg now (after cfg before .empty) (.request (.ingest req body storageId))).1 =
        .ok (.ingested first) →
      first.duplicate = false →
      Spool.encode cfg.env maxBytes event = .ok file.bytes →
      Spool.oldest cfg.env dir = (left, some (file, retried)) →
      cfg.env.eventToVec retried = .ok resent →
      again.projectId = req.projectId →
      let db := after cfg between
        (exec cfg now (after cfg before .empty) (.request (.ingest req body storageId))).2
      resent = body ∧ Ingest.ingest cfg.env cfg.publicUrl again resent storageId' now' db =
        (.ok { first with duplicate := true }, Ingest.touchKey db again.keyId now') := by
  obtain ⟨written, hwritten, hread⟩ := hjson.fromSlice_toVec htyped hfree hdepth
  refine ⟨Event.deserialize_serialize htyped, ⟨written, hwritten, ?_⟩, ?_⟩
  · rw [hread]
    exact hwritten
  · intro before between now req body storageId first maxBytes dir left file retried resent again
      storageId' now' hbody hfirst hnew hfile holdest hresent hproject db
    obtain rfl : written = body := Except.ok.inj (hwritten.symm.trans hbody)
    have hbytes : written = file.bytes :=
      Except.ok.inj (hwritten.symm.trans (Spool.encode_ok hfile))
    obtain ⟨-, hslice⟩ := (Spool.oldest_spec holdest).2 file retried rfl
    rw [← hbytes, hread] at hslice
    cases hslice
    obtain rfl : written = resent := Except.ok.inj (hwritten.symm.trans hresent)
    exact ⟨rfl, (Idempotence.ingest_idempotent cfg before between now req written storageId first
      hfirst hnew).1 again storageId' now' hproject⟩

set_option maxRecDepth 20000 in
/-- An event that was accepted, its issue resolved, and its file sent again. -/
theorem retry_duplicate_resolved :
    let cfg : Setup := ⟨Sample.crates, none⟩
    let installed := after cfg (Server.Sample.installation.map fun r => (0, .request r)) .empty
    let stored := (exec cfg 10 installed
      (.request (.ingest ⟨1, 1, "demo"⟩ (Sample.eventBody "m") "018f"))).2
    let db := after cfg [(20, .request (.setIssueStatus 1 1 1 .resolved))] stored
    Ingest.ingest Sample.crates none ⟨1, 1, "demo"⟩ (Sample.eventBody "m") "0190" 30 db =
      (.ok ⟨"e1", 1, Sample.crates.blake3Hex "message:m", true⟩, Ingest.touchKey db 1 30) := by
  intro cfg installed stored db
  have htyped : (Sample.event "m").Typed :=
    ⟨by decide, by simp [Sample.event, Event.default], by simp [Sample.event, Event.default],
      by simp [Sample.event, Event.default], .nil, ⟨.nil, by simp [Sample.event, Event.default]⟩,
      by simp [Sample.event, Event.default]⟩
  have hfree : FloatFree (Sample.event "m") := by
    constructor <;> simp [Sample.event, Event.default, FloatFreeMap]
  have hjson : JsonText Sample.crates (fun _ => Sample.eventBody "m")
      (fun bytes =>
        if bytes = Sample.eventBody "m" then some (Sample.event "m").serialize else none)
      (Sample.event "m") := by
    constructor
    · intro _ _
      rw [if_pos rfl]
    · rfl
    · intro document hdocument
      rw [if_pos rfl] at hdocument
      cases hdocument
      rw [Event.deserialize_serialize htyped]
      rfl
  exact ((retry_duplicate cfg _ _ (Sample.event "m") hjson htyped hfree (by decide)).2.2
    (Server.Sample.installation.map fun r => (0, .request r))
    [(20, .request (.setIssueStatus 1 1 1 .resolved))] 10 ⟨1, 1, "demo"⟩ (Sample.eventBody "m")
    "018f" ⟨"e1", 1, Sample.crates.blake3Hex "message:m", false⟩ 1000
    [⟨"f", Sample.eventBody "m", 0⟩] [⟨"f", Sample.eventBody "m", 0⟩] ⟨"f", Sample.eventBody "m", 0⟩
    (Sample.event "m") (Sample.eventBody "m") ⟨1, 1, "demo"⟩ "0190" 30 rfl rfl rfl rfl rfl rfl
    rfl).2

end SpoolRetry

end Zbierak
