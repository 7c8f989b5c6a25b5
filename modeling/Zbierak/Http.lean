import Zbierak.Lib.Percent
import Zbierak.Auth
import Zbierak.Ingest
import Zbierak.Settings
import Mathlib.Data.List.TakeWhile

/-!
# The HTTP edge of ingestion

Credentials arrive in a header, bodies with a media type and a limit. A random
token is written in characters that every part of this way leaves alone.
-/
namespace Zbierak.Http

/-- The headers that ingestion looks at, as bytes. -/
structure Headers where
  authorization : Option Bytes
  contentType : Option Bytes

/-- A request to the event route of the project in its path. -/
structure Request where
  headers : Headers
  slug : String
  body : Bytes

/-- What stands before and behind the first separator. -/
def splitOnce (sep : Char) (s : String) : Option (String × String) :=
  if sep ∈ s.toList then
    some (String.ofList (s.toList.takeWhile (· != sep)),
      String.ofList (s.toList.dropWhile (· != sep)).tail)
  else none

def bearer (env : Crates) (headers : Headers) : Except AppError String :=
  match headers.authorization.bind env.headers.toStr with
  | none => .error .unauthorized
  | some value =>
    match splitOnce ' ' value with
    | none => .error .unauthorized
    | some (scheme, credential) =>
      if ¬ Text.eqIgnoreAsciiCase scheme "bearer" then .error .unauthorized
      else
        let credential := Text.trim credential
        if credential = "" then .error .unauthorized else .ok credential

def isJsonMediaType (env : Crates) (headers : Headers) : Bool :=
  match headers.contentType.bind env.headers.toStr with
  | none => false
  | some raw =>
    let base := Text.toAsciiLowercase (Text.trim ((Text.split ';' raw).head?.getD ""))
    base = "application/json" || "+json".toList.isSuffixOf base.toList

def eventBodyLimit : Nat := 1048576

/-- `ApiEventBody` -/
def eventBody (env : Crates) (request : Request) : Except AppError Bytes :=
  if ¬ isJsonMediaType env request.headers then .error .unsupportedMediaType
  else if eventBodyLimit < request.body.length then
    .error (.payloadTooLarge "request body exceeds the allowed size")
  else .ok request.body

/-- `IngestProject` -/
def ingestProject (env : Crates) (db : Db) (headers : Headers) (slug : String) :
    Except AppError Ingest.IngestProject := do
  let credential ← bearer env headers
  let (keyId, projectId) ← Auth.ingestKeyProject env db credential slug
  return ⟨keyId, projectId, slug⟩

/-- `ApiPrincipal`, with the write that marks the token as used. -/
def apiPrincipal (env : Crates) (now : Int) (db : Db) (headers : Headers) : Except AppError (Db × Int) := do
  let credential ← bearer env headers
  Settings.apiTokenUser env credential now db

/-- The random bytes as text. -/
def randomToken (env : Crates) (bytes : Bytes) : String := env.urlSafe.encode bytes

/-- The key that `create_ingest_key` shows. -/
def ingestKey (env : Crates) (random : Bytes) : String := "zbk_" ++ randomToken env random

/-- The token that `create_api_token` shows. -/
def apiToken (env : Crates) (random : Bytes) : String := Settings.apiTokenPrefix ++ randomToken env random

/-- `RequestBuilder::bearer_auth` of the HTTP client. -/
def bearerAuth (token : String) : Bytes := Text.toUtf8 ("Bearer " ++ token)

/-- The request that `deliver` builds for an encoded event. -/
def deliverRequest (token : Option String) (slug : String) (body : Bytes) : Request where
  headers := ⟨token.map bearerAuth, some (Text.toUtf8 "application/json")⟩
  slug := slug
  body := body

section Headers

variable {env : Crates} {s scheme rest credential : String} {headers : Headers}

theorem takeWhile_append_tail {sep : Char} {cs : List Char} (h : sep ∈ cs) :
    cs = cs.takeWhile (· != sep) ++ sep :: (cs.dropWhile (· != sep)).tail := by
  induction cs with
  | nil => cases h
  | cons c cs ih =>
    by_cases hc : c = sep
    · simp [hc]
    · have hmem : sep ∈ cs := (List.mem_cons.mp h).resolve_left (Ne.symm hc)
      rw [List.takeWhile_cons_of_pos (by simpa using hc), List.dropWhile_cons_of_pos (by simpa using hc),
        List.cons_append, ← ih hmem]

theorem splitOnce_eq_some {sep : Char} {a b : String} :
    splitOnce sep s = some (a, b) ↔ s.toList = a.toList ++ sep :: b.toList ∧ sep ∉ a.toList := by
  have hfirst : sep ∉ s.toList.takeWhile (· != sep) := fun hmem => by
    simpa using List.mem_takeWhile_imp hmem
  unfold splitOnce
  split
  · next hmem =>
    simp only [Option.some.injEq, Prod.mk.injEq]
    constructor
    · rintro ⟨rfl, rfl⟩
      rw [String.toList_ofList, String.toList_ofList]
      exact ⟨takeWhile_append_tail hmem, hfirst⟩
    · rintro ⟨hlist, hnot⟩
      obtain ⟨ha, hb⟩ := Text.split_eq hfirst hnot ((takeWhile_append_tail hmem).symm.trans hlist)
      rw [ha, hb, String.ofList_toList, String.ofList_toList]
      exact ⟨rfl, rfl⟩
  · next hmem =>
    refine ⟨fun h => (nomatch h), fun ⟨hlist, _⟩ => absurd ?_ hmem⟩
    rw [hlist]
    simp

/-- The scheme is read without case, the credential without the blanks around it,
and nothing else is accepted. -/
theorem bearer_ok_iff : bearer env headers = .ok credential ↔ ∃ scheme rest,
    headers.authorization.bind env.headers.toStr = some (scheme ++ " " ++ rest) ∧ ' ' ∉ scheme.toList ∧
      Text.eqIgnoreAsciiCase scheme "bearer" = true ∧ credential = Text.trim rest ∧ credential ≠ "" := by
  unfold bearer
  constructor
  · intro h
    split at h
    · cases h
    · next value hvalue =>
      split at h
      · cases h
      · next scheme rest hsplit =>
        obtain ⟨hlist, hscheme⟩ := splitOnce_eq_some.mp hsplit
        have hwhole : value = scheme ++ " " ++ rest := String.toList_inj.mp (by simp [hlist])
        split at h
        · cases h
        · next hbearer =>
          dsimp only at h
          split at h
          · cases h
          · next hempty =>
            cases h
            exact ⟨scheme, rest, hwhole ▸ hvalue, hscheme, not_not.mp hbearer, rfl, hempty⟩
  · rintro ⟨scheme, rest, hvalue, hscheme, hbearer, rfl, hempty⟩
    have hsplit : splitOnce ' ' (scheme ++ " " ++ rest) = some (scheme, rest) :=
      splitOnce_eq_some.mpr ⟨by simp, hscheme⟩
    simp [hvalue, hsplit, hbearer, hempty]

/-- Whatever is wrong with the header, the answer is the same. -/
theorem bearer_error {e : AppError} (h : bearer env headers = .error e) : e = .unauthorized := by
  unfold bearer at h
  split at h
  · cases h
    rfl
  · split at h
    · cases h
      rfl
    · split at h
      · cases h
        rfl
      · dsimp only at h
        split at h <;> cases h
        rfl

end Headers

section Tokens

/-- A character that a header carries and no trimming takes away. -/
def isTokenChar (c : Char) : Bool := 33 ≤ c.toNat && c.toNat ≤ 126

theorem visible_of_tokenChar {c : Char} (h : isTokenChar c = true) :
    (String.utf8EncodeChar c).all Header.isVisibleAscii = true := by
  simp only [isTokenChar, Bool.and_eq_true, decide_eq_true_eq] at h
  have hbyte : (UInt8.ofNat c.toNat).toNat = c.toNat := Base64.toNat_ofNat (by omega)
  rw [Percent.encodeChar_ascii (by omega), List.all_cons, List.all_nil, Bool.and_true]
  simp only [Header.isVisibleAscii, UInt8.le_iff_toNat_le, UInt8.lt_iff_toNat_lt, hbyte, UInt8.reduceToNat,
    decide_eq_true_eq]
  omega

theorem visible_text {s : String} (h : ∀ c ∈ s.toList, isTokenChar c = true ∨ c = ' ') :
    (Text.toUtf8 s).all Header.isVisibleAscii = true := by
  rw [Utf8.toUtf8_eq, List.all_flatMap, List.all_eq_true]
  intro c hc
  rcases h c hc with hc | rfl
  · exact visible_of_tokenChar hc
  · decide

theorem not_whitespace_of_tokenChar {c : Char} (h : isTokenChar c = true) : Text.isWhitespace c = false := by
  simp only [isTokenChar, Bool.and_eq_true, decide_eq_true_eq] at h
  simp [Text.isWhitespace]
  omega

/-- The digits of the alphabet are such characters. -/
theorem tokenChar_of_value {c : Char} {n : Nat} (h : Base64.urlSafe.value c = some n) :
    isTokenChar c = true := by
  simp only [Base64.urlSafe, Base64.valueOf] at h
  simp only [isTokenChar, Bool.and_eq_true, decide_eq_true_eq]
  repeat' split at h
  all_goals first | omega | (subst_vars; decide) | cases h

theorem tokenChar_randomToken (env : Crates) (random : Bytes) :
    ∀ c ∈ (randomToken env random).toList, isTokenChar c = true := by
  intro c hc
  obtain ⟨n, hvalue⟩ := Option.isSome_iff_exists.mp (env.urlSafe.isSome_value random c hc)
  exact tokenChar_of_value hvalue

/-- A credential of such characters is read back from the header the client writes. -/
theorem bearer_bearerAuth (env : Crates) {token : String} (htoken : ∀ c ∈ token.toList, isTokenChar c = true)
    (hne : token ≠ "") (contentType : Option Bytes) :
    bearer env ⟨some (bearerAuth token), contentType⟩ = .ok token := by
  rw [bearer_ok_iff]
  refine ⟨"Bearer", token, ?_, by decide, by decide, ?_, hne⟩
  · refine (env.headers.toStr_eq_some _ _).mpr ⟨rfl, visible_text fun c hc => ?_⟩
    have hscheme : ∀ c ∈ "Bearer ".toList, isTokenChar c = true ∨ c = ' ' := by
      have hchars : ("Bearer ".toList.all fun c => isTokenChar c || c == ' ') = true := by decide +kernel
      simpa using List.all_eq_true.mp hchars
    rw [String.toList_append] at hc
    rcases List.mem_append.mp hc with hc | hc
    · exact hscheme c hc
    · exact .inl (htoken c hc)
  · exact (Text.trim_of_no_whitespace fun c hc => not_whitespace_of_tokenChar (htoken c hc)).symm

/-- What is shown as a new credential is carried unchanged. -/
theorem bearer_issued (env : Crates) {kind : String} (hkind : ∀ c ∈ kind.toList, isTokenChar c = true) (hne : kind ≠ "")
    (random : Bytes) (contentType : Option Bytes) :
    bearer env ⟨some (bearerAuth (kind ++ randomToken env random)), contentType⟩ =
      .ok (kind ++ randomToken env random) := by
  refine bearer_bearerAuth env (fun c hc => ?_) (fun h => hne ?_) contentType
  · rw [String.toList_append] at hc
    exact (List.mem_append.mp hc).elim (hkind c) (tokenChar_randomToken env random c)
  · exact (String.append_eq_empty_iff.mp h).1

theorem bearer_ingestKey (env : Crates) (random : Bytes) (contentType : Option Bytes) :
    bearer env ⟨some (bearerAuth (ingestKey env random)), contentType⟩ = .ok (ingestKey env random) :=
  have hchars : "zbk_".toList.all isTokenChar = true := by decide +kernel
  bearer_issued env (List.all_eq_true.mp hchars) (by decide) random contentType

theorem bearer_apiToken (env : Crates) (random : Bytes) (contentType : Option Bytes) :
    bearer env ⟨some (bearerAuth (apiToken env random)), contentType⟩ = .ok (apiToken env random) :=
  have hchars : Settings.apiTokenPrefix.toList.all isTokenChar = true := by decide +kernel
  bearer_issued env (List.all_eq_true.mp hchars) (by decide) random contentType

end Tokens

end Zbierak.Http
