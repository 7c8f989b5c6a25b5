import Zbierak.Protocol
import Zbierak.Lib.Base64
import Zbierak.Lib.Header

/-!
# What the service takes from its libraries

JSON text, timestamps, digests, password hashes and URLs come from libraries;
the model takes each function as a field. A result states the behaviour it
relies on as a hypothesis; where a format leaves no choice, the field has it.
-/
namespace Zbierak

/-- A parsed URL: its serialization, its host as text, and its port, with the
default of a known scheme filled in. -/
structure Url where
  text : String
  scheme : String
  host : Option String
  port : Option Nat
  deriving DecidableEq, Repr

structure Crates where
  /-- JSON bytes to a tree, or the parser's message. -/
  valueFromSlice : Bytes → Except String Value
  /-- JSON text to a tree. -/
  valueFromStr : String → Except String Value
  /-- A tree as compact JSON text. -/
  valueToString : Value → String
  /-- The derived reading of an event from a tree. -/
  eventDeserialize : Value → Except String Event
  /-- The derived reading of an event from bytes. -/
  eventFromSlice : Bytes → Except String Event
  /-- An event as JSON bytes. -/
  eventToVec : Event → Except String Bytes
  parseRfc3339 : String → Option OffsetDateTime
  /-- Lowercase hexadecimal SHA-256 digest. -/
  sha256Hex : Bytes → String
  /-- Hexadecimal BLAKE3 digest of the text's bytes. -/
  blake3Hex : String → String
  /-- Base64 HMAC-SHA256 of a text under a secret. -/
  hmacSha256 : String → String → String
  /-- Whether a password matches a stored Argon2 hash. -/
  verifyPassword : String → String → Bool
  parseUrl : String → Except String Url
  /-- Open a sealed signing secret. -/
  decryptSecret : Bytes → String → Except String String
  /-- Build the HTTP client for a host. -/
  buildClient : String → Except String Unit
  /-- An HTTP status with its reason. -/
  statusText : Nat → String
  /-- `URL_SAFE_NO_PAD` -/
  urlSafe : Base64.Codec Base64.urlSafe
  /-- `HeaderValue` -/
  headers : Header.Values

namespace Sample

/-- An event as a client sends it, with `message` as its message. -/
def eventText (message : String) : String :=
  "\x7b\"version\":1,\"event_id\":\"e1\",\"timestamp\":\"2026-01-02T03:04:05Z\",\"message\":\"" ++
    message ++ "\",\"severity\":\"error\"\x7d"

def eventBody (message : String) : Bytes := Text.toUtf8 (eventText message)

def event (message : String) : Event :=
  { Event.default with eventId := "e1", timestamp := "2026-01-02T03:04:05Z", message }

/-- The tree of `eventText`, its members in key order. -/
def eventTree (message : String) : Value :=
  .object [("event_id", .string "e1"), ("message", .string message), ("severity", .string "error"),
    ("timestamp", .string "2026-01-02T03:04:05Z"), ("version", .number (.int 1))]

def valueFromStr (text : String) : Except String Value :=
  if text = eventText "m" then .ok (eventTree "m")
  else if text = eventText "n" then .ok (eventTree "n")
  else .error "expected value at line 1 column 1"

def messageOf (tree : Value) : Option String := (tree.get "message").bind Value.asStr

def eventDeserialize (tree : Value) : Except String Event :=
  match messageOf tree with
  | some message => .ok (event message)
  | none => .error "missing field"

def valueFromSlice (bytes : Bytes) : Except String Value :=
  match Text.fromUtf8 bytes with
  | some text => valueFromStr text
  | none => .error "invalid unicode code point"

/-- What the libraries answer about these events, one ingestion key, one user
and one webhook URL. -/
def crates : Crates where
  valueFromSlice := valueFromSlice
  valueFromStr := valueFromStr
  valueToString := fun _ => "null"
  eventDeserialize := eventDeserialize
  eventFromSlice := fun bytes => do eventDeserialize (← valueFromSlice bytes)
  eventToVec := fun event =>
    if event.eventId = "e1" then .ok (eventBody event.message) else .error "unknown event"
  parseRfc3339 := fun text =>
    if text = "2026-01-02T03:04:05Z" then some ⟨2026, 1, 2, 3, 4, 5, 0, 0⟩ else none
  sha256Hex := fun bytes =>
    if bytes = eventBody "m" then "e63a7a615aa16d0b116c6d900c39b19cc6859ff784499ced22a5fc71cf1674b2"
    else if bytes = eventBody "n" then
      "3f86801f5990a11ee6a7608f7c991dd5b7bb4af5a245e4e78a2857b9d305d38b"
    else if bytes = Text.toUtf8 "ada@example.org" then
      "cfe00dde46ef942601ffafb9e2825e802858b460e586b8305b344c1eb826357d"
    else "5c02f6f8b07e64ad85095c58b570b740d40469efb507c801fac7531b56918218"
  blake3Hex := fun text =>
    if text = "message:m" then "b046a8074bfac9ea5e0ef9a12c3708e599eb6f81b1ce02b0cf38837522bf8316"
    else "9c60ddde8c080ba34fb97cfd19e3d7987547c37bd43399c2551c513f720aba0b"
  hmacSha256 := fun _ _ => ""
  verifyPassword := fun _ _ => false
  parseUrl := fun text =>
    if text = "https://hooks.example/in" then
      .ok ⟨"https://hooks.example/in", "https", some "hooks.example", some 443⟩
    else .error "relative URL without a base"
  decryptSecret := fun _ _ => .error "secret could not be decrypted"
  buildClient := fun _ => .ok ()
  statusText := fun status => if status = 200 then "200 OK" else "503 Service Unavailable"
  urlSafe := .unpadded Base64.urlSafe
  headers := .scanning

end Sample

end Zbierak
