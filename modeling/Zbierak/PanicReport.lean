import Zbierak.Blocking
import Zbierak.Stacktrace
import Mathlib.Data.Bool.AllAny
import Mathlib.Data.List.TakeWhile

/-!
# The panic hook

The hook turns a panic into an event and captures it, ignoring the outcome. The
SDK cuts the frames of the event to the limits of the protocol, but not its
message, which holds the location and the whole payload.
-/
namespace Zbierak.PanicReport

open Sdk Stacktrace

/-- What the hook is given: the payload, if it is text, and the file, line and
column, if they are known. -/
structure PanicInfo where
  payload : Option String
  location : Option (String × Nat × Nat)

def panicParts (info : PanicInfo) : String × String :=
  let payload := info.payload.getD "non-string panic payload"
  let location := info.location.elim "unknown location" fun (file, line, column) =>
    s!"{file}:{line}:{column}"
  (location, payload)

def panicEventParts (stack : List BacktraceSymbol) (location payload : String) : Event :=
  { Event.default with
    message := "panic at " ++ location ++ ": " ++ payload
    severity := .fatal
    error := some {
      typeName := "panic", value := some payload, stackFrames := captureFrames stack } }

def panicEvent (stack : List BacktraceSymbol) (info : PanicInfo) : Event :=
  panicEventParts stack (panicParts info).1 (panicParts info).2

/-- The current time, written by the `time` crate. -/
def nowTimestamp (format : OffsetDateTime → Option String) (now : OffsetDateTime) : String :=
  (format now).getD "1970-01-01T00:00:00Z"

/-- The hook of the blocking client. -/
def panicHook (env : Crates) (config : Config) (w : Blocking.World) (stack : List BacktraceSymbol)
    (info : PanicInfo) (uuid timestamp : String) (breadcrumbs : List Breadcrumb) : Blocking.World :=
  Blocking.capture env config w (panicEvent stack info) uuid timestamp breadcrumbs

/-- The hyphenated form of a UUID. -/
def Hyphenated (uuid : String) : Prop :=
  uuid.toList.length = 36 ∧ ∀ c ∈ uuid.toList, c = '-' ∨ c.isDigit = true ∨ ('a' ≤ c ∧ c ≤ 'f')

/-- The text the `time` crate writes for a date: short, without blanks, and read
back as the same date. -/
structure Writes (env : Crates) (format : OffsetDateTime → Option String) (now : OffsetDateTime)
    (text : String) : Prop where
  written : format now = some text
  readBack : env.parseRfc3339 text = some now
  nonempty : text ≠ ""
  short : Text.byteLen text ≤ 64
  noBlank : ∀ c ∈ text.toList, Text.isWhitespace c = false

theorem mem_dropWhile {α : Type} {p : α → Bool} {l : List α} {x : α} (hx : x ∈ l)
    (hp : p x = false) : x ∈ l.dropWhile p := by
  rcases List.mem_append.mp (List.takeWhile_append_dropWhile (p := p) (l := l) ▸ hx) with h | h
  · rw [List.mem_takeWhile_imp h] at hp
    cases hp
  · exact h

theorem trim_ne_empty {s : String} {c : Char} (hc : c ∈ s.toList)
    (hblank : Text.isWhitespace c = false) : Text.trim s ≠ "" := by
  have hmem : c ∈ (Text.trim s).toList := by
    rw [Text.trim, String.toList_ofList, Text.trimEnd, List.mem_reverse]
    exact mem_dropWhile (List.mem_reverse.mpr (mem_dropWhile hc hblank)) hblank
  intro hempty
  rw [hempty] at hmem
  exact List.not_mem_nil hmem

/-- Printable ASCII characters are not blank and take one byte. -/
theorem printable {c : Char} (hlow : 33 ≤ c.toNat) (hhigh : c.toNat ≤ 126) :
    Text.isWhitespace c = false ∧ c.utf8Size = 1 := by
  constructor
  · simp only [Text.isWhitespace, Bool.or_eq_false_iff, Bool.and_eq_false_iff, beq_eq_false_iff_ne,
      decide_eq_false_iff_not, ne_eq]
    omega
  · rw [Char.utf8Size_eq_one_iff, UInt32.le_iff_toNat_le]
    exact Nat.le_trans hhigh (by decide)

theorem Hyphenated.printable {uuid : String} (h : Hyphenated uuid) {c : Char} (hc : c ∈ uuid.toList) :
    Text.isWhitespace c = false ∧ c.utf8Size = 1 := by
  rcases h.2 c hc with rfl | hdigit | ⟨hlow, hhigh⟩
  · decide
  · obtain ⟨hlow, hhigh⟩ := Char.isDigit_iff_toNat.mp hdigit
    exact PanicReport.printable (Nat.le_trans (by decide) hlow) (Nat.le_trans hhigh (by decide))
  · have hlow : ('a' : Char).toNat ≤ c.toNat := hlow
    have hhigh : c.toNat ≤ ('f' : Char).toNat := hhigh
    exact PanicReport.printable (Nat.le_trans (by decide) hlow) (Nat.le_trans hhigh (by decide))

theorem Hyphenated.required {uuid : String} (h : Hyphenated uuid) : Required 128 uuid := by
  have hpos : 0 < uuid.toList.length := h.1 ▸ (by decide)
  have hc := List.getElem_mem hpos
  refine ⟨trim_ne_empty hc (h.printable hc).1, ?_⟩
  rw [← Boundary.length_toUtf8, Boundary.toUtf8_eq_encode,
    Boundary.length_encode_ascii fun c hc => (h.printable hc).2, h.1]
  decide

section Built

variable {env : Crates} {format : OffsetDateTime → Option String} {now : OffsetDateTime}

theorem Writes.required {text : String} (h : Writes env format now text) : Required 64 text := by
  rw [Required, Text.trim_of_no_whitespace h.noBlank]
  exact ⟨h.nonempty, h.short⟩

/-- What `prepare` validates when there is no redactor. -/
def fill (context : CaptureContext) (uuid timestamp : String) (breadcrumbs : List Breadcrumb)
    (event : Event) : Event :=
  { event with
    eventId := if event.eventId = "" then uuid else event.eventId
    timestamp := if event.timestamp = "" then timestamp else event.timestamp
    release := event.release.or context.release
    environment := event.environment.or context.environment
    platform := event.platform.or context.platform
    breadcrumbs := if event.breadcrumbs.isEmpty then breadcrumbs else event.breadcrumbs }

variable {context : CaptureContext} {breadcrumbs : List Breadcrumb} {uuid timestamp : String}
  {event prepared : Event}

theorem prepare_fill (env : Crates) (hredactor : context.redactor = none) (uuid timestamp : String)
    (breadcrumbs : List Breadcrumb) (event : Event) :
    context.prepare env uuid timestamp breadcrumbs event =
      (((fill context uuid timestamp breadcrumbs event).validate env.parseRfc3339).mapError
        CaptureError.invalidEvent).map fun _ => fill context uuid timestamp breadcrumbs event := by
  rw [CaptureContext.prepare, hredactor]
  dsimp only [Option.elim]
  split
  · next error herror =>
    have hfill : (fill context uuid timestamp breadcrumbs event).validate env.parseRfc3339 =
      .error error := herror
    rw [hfill]
    rfl
  · next hok =>
    have hfill : (fill context uuid timestamp breadcrumbs event).validate env.parseRfc3339 = .ok () := hok
    rw [hfill]
    rfl

/-- Without a redactor only validation stands between an event and the queue. -/
theorem prepare_ok (hredactor : context.redactor = none) :
    context.prepare env uuid timestamp breadcrumbs event = .ok prepared ↔
      (fill context uuid timestamp breadcrumbs event).Valid env.parseRfc3339 ∧
        fill context uuid timestamp breadcrumbs event = prepared := by
  rw [prepare_fill env hredactor, ← validate_ok]
  cases (fill context uuid timestamp breadcrumbs event).validate env.parseRfc3339 with
  | error error => simp [Except.mapError, Except.map]
  | ok => simp [Except.mapError, Except.map]

/-- An event that the SDK builds itself: it leaves to the client what that fills in,
and has no more of anything than fits. -/
structure Built (event : Event) : Prop where
  version : event.version = protocolVersion
  eventId : event.eventId = ""
  timestamp : event.timestamp = ""
  breadcrumbs : event.breadcrumbs = []
  fewTags : event.tags.length ≤ 100
  fewContexts : event.contexts.length ≤ 50
  frames : FramesFit event.stackFrames
  errorFrames : ∀ error ∈ event.error, FramesFit error.stackFrames
  fingerprint : event.fingerprint = none

/-- What is left to check: the message, the tags, and the breadcrumbs of the trail. -/
structure Fits (event : Event) (breadcrumbs : List Breadcrumb) : Prop where
  message : Required 16384 event.message
  tags : ∀ entry ∈ event.tags, Required 128 entry.1 ∧ Text.byteLen entry.2 ≤ 1024
  breadcrumbs : breadcrumbs.length ≤ 1000

theorem framesFit_nil : FramesFit [] :=
  ⟨Nat.zero_le _, fun _ hframe => (List.not_mem_nil hframe).elim⟩

theorem Built.valid_iff (h : Built event) (context : CaptureContext) (breadcrumbs : List Breadcrumb)
    {text : String} (huuid : Hyphenated uuid) (htext : Writes env format now text)
    (hyear : 2000 ≤ now.year ∧ now.year ≤ 2100) :
    (fill context uuid text breadcrumbs event).Valid env.parseRfc3339 ↔ Fits event breadcrumbs := by
  have hid : (fill context uuid text breadcrumbs event).eventId = uuid := if_pos h.eventId
  have htime : (fill context uuid text breadcrumbs event).timestamp = text := if_pos h.timestamp
  have hcrumbs : (fill context uuid text breadcrumbs event).breadcrumbs = breadcrumbs :=
    if_pos (by rw [h.breadcrumbs]; rfl)
  constructor
  · exact fun hvalid => ⟨hvalid.message, hvalid.tags, hcrumbs ▸ hvalid.fewBreadcrumbs⟩
  · intro hfits
    exact {
      version := h.version
      eventId := by
        rw [hid]
        exact huuid.required
      timestamp := by
        rw [htime]
        exact htext.required
      date := by
        rw [htime]
        exact ⟨now, htext.readBack, hyear⟩
      message := hfits.message
      fewTags := h.fewTags
      tags := hfits.tags
      fewContexts := h.fewContexts
      fewBreadcrumbs := by
        rw [hcrumbs]
        exact hfits.breadcrumbs
      frames := h.frames
      errorFrames := h.errorFrames
      fingerprint := fun parts hparts => by
        have hnone : event.fingerprint = some parts := hparts
        rw [h.fingerprint] at hnone
        cases hnone }

/-- Capturing such an event, at the time the clock shows. -/
theorem Built.prepare_iff (h : Built event) (hredactor : context.redactor = none)
    (huuid : Hyphenated uuid) (htext : ∃ text, Writes env format now text)
    (hyear : 2000 ≤ now.year ∧ now.year ≤ 2100) :
    context.prepare env uuid (nowTimestamp format now) breadcrumbs event = .ok prepared ↔
      Fits event breadcrumbs ∧ fill context uuid (nowTimestamp format now) breadcrumbs event = prepared := by
  obtain ⟨text, htext⟩ := htext
  have hnow : nowTimestamp format now = text := by
    rw [nowTimestamp, htext.written, Option.getD_some]
  rw [prepare_ok hredactor, hnow, h.valid_iff context breadcrumbs huuid htext hyear]

theorem Built.captured_iff (h : Built event) (hredactor : context.redactor = none)
    (huuid : Hyphenated uuid) (htext : ∃ text, Writes env format now text)
    (hyear : 2000 ≤ now.year ∧ now.year ≤ 2100) :
    (∃ prepared, context.prepare env uuid (nowTimestamp format now) breadcrumbs event = .ok prepared) ↔
      Fits event breadcrumbs := by
  simp only [h.prepare_iff hredactor huuid htext hyear, exists_and_left, exists_eq', and_true]

end Built

section Panic

variable {env : Crates} {context : CaptureContext} {breadcrumbs : List Breadcrumb} {uuid : String}

theorem built_panic (stack : List BacktraceSymbol) (location payload : String) :
    Built (panicEventParts stack location payload) where
  version := rfl
  eventId := rfl
  timestamp := rfl
  breadcrumbs := rfl
  fewTags := Nat.zero_le _
  fewContexts := Nat.zero_le _
  frames := framesFit_nil
  errorFrames := by
    rintro error ⟨⟩
    exact framesFit_captureFrames stack
  fingerprint := rfl

/-- The message of a panic has eleven bytes of its own. -/
theorem byteLen_message (stack : List BacktraceSymbol) (location payload : String) :
    Text.byteLen (panicEventParts stack location payload).message =
      Text.byteLen location + Text.byteLen payload + 11 := by
  have hstart : ("panic at " : String).utf8ByteSize = 9 := by decide
  have hcolon : (": " : String).utf8ByteSize = 2 := by decide
  simp only [panicEventParts, Text.byteLen, String.utf8ByteSize_append, hstart, hcolon]
  omega

theorem message_not_blank (stack : List BacktraceSymbol) (location payload : String) :
    Text.trim (panicEventParts stack location payload).message ≠ "" := by
  have hp : 'p' ∈ (panicEventParts stack location payload).message.toList := by
    simp [panicEventParts]
  exact trim_ne_empty hp (by decide)

/-- The SDK meets every limit but the one on the message. -/
theorem fits_panic (stack : List BacktraceSymbol) (location payload : String)
    (hcrumbs : breadcrumbs.length ≤ 1000) : Fits (panicEventParts stack location payload) breadcrumbs ↔
      Text.byteLen location + Text.byteLen payload + 11 ≤ 16384 := by
  rw [← byteLen_message stack]
  constructor
  · exact fun h => h.message.2
  · exact fun hfits => ⟨⟨message_not_blank stack location payload, hfits⟩,
      fun entry hentry => (List.not_mem_nil hentry).elim, hcrumbs⟩

theorem prepare_of_long (env : Crates) (stack : List BacktraceSymbol)
    (breadcrumbs : List Breadcrumb) (uuid timestamp : String) {location payload : String}
    (hredactor : context.redactor = none)
    (hlong : 16384 < Text.byteLen location + Text.byteLen payload + 11) :
    ¬ ∃ event, context.prepare env uuid timestamp breadcrumbs
      (panicEventParts stack location payload) = .ok event := by
  rintro ⟨event, h⟩
  have hfits := ((prepare_ok hredactor).mp h).1.message.2
  rw [fill, byteLen_message] at hfits
  omega

/-- A panic is reportable when its location and payload fit in the message. -/
theorem panic_reportable_iff (env : Crates) (format : OffsetDateTime → Option String)
    (context : CaptureContext) (stack : List BacktraceSymbol) (breadcrumbs : List Breadcrumb)
    (uuid location payload : String) (now : OffsetDateTime) (hredactor : context.redactor = none)
    (hcrumbs : breadcrumbs.length ≤ 1000) (huuid : Hyphenated uuid)
    (htext : ∃ text, Writes env format now text) (hyear : 2000 ≤ now.year ∧ now.year ≤ 2100) :
    (∃ event, context.prepare env uuid (nowTimestamp format now) breadcrumbs
        (panicEventParts stack location payload) = .ok event) ↔
      Text.byteLen location + Text.byteLen payload + 11 ≤ 16384 := by
  rw [(built_panic stack location payload).captured_iff hredactor huuid htext hyear,
    fits_panic stack location payload hcrumbs]

/-- An event has been handed to the sender, or to the thread that captures it when the
queue is full, to be spooled. -/
structure Handed (config : Config) (w w' : Blocking.World) (event : Event) : Prop where
  client : w.client.enqueue config.queueCapacity ⟨w.captured, event⟩ = .ok w'.client
  captured : w'.captured = w.captured + 1

/-- Capturing hands over what was prepared, as long as the sender runs. -/
theorem capture_prepared {config : Config} {event prepared : Event} {timestamp : String}
    (hprepared : config.context.prepare env uuid timestamp breadcrumbs event = .ok prepared)
    (w : Blocking.World) (hsender : w.client.sender ≠ .stopped) :
    Handed config w (Blocking.capture env config w event uuid timestamp breadcrumbs) prepared := by
  unfold Blocking.capture
  rw [hprepared]
  dsimp only
  cases hclient : w.client.enqueue config.queueCapacity ⟨w.captured, prepared⟩ with
  | error error =>
    unfold Process.enqueue at hclient
    split at hclient
    · next hstopped => exact absurd hstopped hsender
    · split at hclient <;> cases hclient
  | ok client => exact ⟨hclient, rfl⟩

theorem capture_stopped {config : Config} {event : Event} {timestamp : String} {w : Blocking.World}
    (hsender : w.client.sender = .stopped) :
    Blocking.capture env config w event uuid timestamp breadcrumbs = w := by
  unfold Blocking.capture
  split
  · rfl
  · simp only [Process.enqueue, hsender]

/-- The hook hands the whole panic over when its location and payload fit and the
sender runs, and otherwise leaves no trace of it. -/
theorem panicHook_handed (env : Crates) (format : OffsetDateTime → Option String) (config : Config)
    (stack : List BacktraceSymbol) (info : PanicInfo) (breadcrumbs : List Breadcrumb) (uuid : String)
    (now : OffsetDateTime) (hredactor : config.context.redactor = none)
    (hcrumbs : breadcrumbs.length ≤ 1000) (huuid : Hyphenated uuid)
    (htext : ∃ text, Writes env format now text) (hyear : 2000 ≤ now.year ∧ now.year ≤ 2100)
    (w : Blocking.World) :
    let w' := panicHook env config w stack info uuid (nowTimestamp format now) breadcrumbs
    let fits := Text.byteLen (panicParts info).1 + Text.byteLen (panicParts info).2 + 11 ≤ 16384
    (fits → w.client.sender ≠ .stopped → Handed config w w'
      (fill config.context uuid (nowTimestamp format now) breadcrumbs (panicEvent stack info))) ∧
    (¬ fits ∨ w.client.sender = .stopped → w' = w) := by
  refine ⟨fun hfits hsender => ?_, ?_⟩
  · have hfits := (fits_panic stack _ _ hcrumbs).mpr hfits
    exact capture_prepared (((built_panic stack _ _).prepare_iff hredactor huuid htext hyear).mpr
      ⟨hfits, rfl⟩) w hsender
  · rintro (hlong | hstopped)
    · have hinvalid := prepare_of_long env stack breadcrumbs uuid (nowTimestamp format now) hredactor
        (Nat.not_le.mp hlong)
      dsimp only [panicHook, panicEvent]
      unfold Blocking.capture
      split
      · rfl
      · next prepared hprepared => exact absurd ⟨prepared, hprepared⟩ hinvalid
    · exact capture_stopped hstopped

end Panic

namespace Sample

def context : CaptureContext := ⟨none, none, none, none⟩

def uuid : String := "00000000-0000-4000-8000-000000000000"

def now : OffsetDateTime := ⟨2026, 1, 2, 3, 4, 5, 0, 0⟩

def format (date : OffsetDateTime) : Option String :=
  if date = now then some "2026-01-02T03:04:05Z" else none

theorem hyphenated_uuid : Hyphenated uuid := by
  have hchars : (uuid.toList.all fun c => c = '-' ∨ c.isDigit = true ∨ ('a' ≤ c ∧ c ≤ 'f')) = true := by
    decide +kernel
  exact ⟨by decide, List.all_iff_forall_prop.mp hchars⟩

theorem writes_now : Writes Zbierak.Sample.crates format now "2026-01-02T03:04:05Z" where
  written := by decide +kernel
  readBack := by decide +kernel
  nonempty := by decide
  short := by decide +kernel
  noBlank := by
    have hchars : ("2026-01-02T03:04:05Z".toList.all fun c => Text.isWhitespace c = false) = true := by
      decide +kernel
    exact List.all_iff_forall_prop.mp hchars

def config : Config := ⟨none, "spool", 1000, 16, context⟩

def info : PanicInfo := ⟨some "boom", some ("src/main.rs", 4, 5)⟩

def longPayload : String := String.ofList (List.replicate 16384 'x')

theorem byteLen_replicate (n : Nat) : Text.byteLen (String.ofList (List.replicate n 'x')) = n := by
  rw [← Boundary.length_encode, Boundary.length_encode_ascii, List.length_replicate]
  intro c hc
  rw [List.eq_of_mem_replicate hc]
  decide

end Sample

theorem panic_reportable_iff_boom : ∃ event, Sample.context.prepare Zbierak.Sample.crates Sample.uuid
    (nowTimestamp Sample.format Sample.now) []
      (panicEventParts [] "src/main.rs:4:5" "boom") = .ok event :=
  (panic_reportable_iff Zbierak.Sample.crates Sample.format Sample.context [] [] Sample.uuid
    "src/main.rs:4:5" "boom" Sample.now rfl (Nat.zero_le _) Sample.hyphenated_uuid
    ⟨_, Sample.writes_now⟩ (by decide)).mpr (by decide)

/-- A payload of 16384 bytes makes the event invalid. -/
theorem long_payload_is_rejected : ¬ ∃ event, Sample.context.prepare Zbierak.Sample.crates
    Sample.uuid (nowTimestamp Sample.format Sample.now) []
      (panicEventParts [] "src/main.rs:4:5" Sample.longPayload) = .ok event := by
  have hlong : Text.byteLen Sample.longPayload = 16384 := Sample.byteLen_replicate 16384
  exact prepare_of_long Zbierak.Sample.crates [] [] Sample.uuid _ rfl (by omega)

/-- A panic with a payload and a location, in a client that has just started. -/
theorem panicHook_handed_boom : Handed Sample.config (.start [] 0)
    (panicHook Zbierak.Sample.crates Sample.config (.start [] 0) [] Sample.info Sample.uuid
      (nowTimestamp Sample.format Sample.now) [])
    (fill Sample.context Sample.uuid (nowTimestamp Sample.format Sample.now) []
      (panicEventParts [] "src/main.rs:4:5" "boom")) :=
  (panicHook_handed Zbierak.Sample.crates Sample.format Sample.config [] Sample.info [] Sample.uuid
    Sample.now rfl (Nat.zero_le _) Sample.hyphenated_uuid ⟨_, Sample.writes_now⟩ (by decide)
    (.start [] 0)).1 (by decide) nofun

end Zbierak.PanicReport
