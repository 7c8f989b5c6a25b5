import Zbierak.UiForms

/-!
# The form token guards every form

A handler that refuses has written nothing. Each of the form handlers checks the
token before anything it could write, so a request with another token than the
session's is refused.
-/
namespace Zbierak.CsrfGate

open UiForms

/-- The handler fails and leaves the store as it is. -/
def Refuses {α : Type} (handler : Handler α) (db : Db) : Prop := ∃ e, handler db = (.error e, db)

/-- Text of the parts with the name, in the order they arrive. -/
def partTexts (name : String) (parts : List (Except AppError Part)) : List String :=
  parts.filterMap fun part =>
    match part with
    | .ok part => if part.name = some name then part.text.toOption else none
    | .error _ => none

/-- The form token that a request carries; in a multipart body the last one. -/
def csrfToken : Request → Option String
  | .logout form | .revokeIngestKey _ _ form | .deleteCommentForm _ _ _ form | .resolveIssue _ _ form
  | .reopenIssue _ _ form | .deleteAvatar _ form | .revokeOtherSessions _ form
  | .revokeSession _ _ form | .deleteWebhook _ _ form | .revokeApiToken _ form => some form.csrfToken
  | .createProject form => some form.csrfToken
  | .createMember _ form _ => some form.csrfToken
  | .createIngestKey _ form _ => some form.csrfToken
  | .changeIssueStatus _ _ form => some form.csrfToken
  | .addComment _ _ form | .editCommentForm _ _ _ form => some form.csrfToken
  | .updateIssueTagsForm _ _ form => some form.csrfToken
  | .updateProfile _ form => some form.csrfToken
  | .uploadAvatar _ body => (partTexts "csrf_token" body).getLast?
  | .changePassword _ form _ => some form.csrfToken
  | .createWebhook _ form => some form.csrfToken
  | .createApiToken form _ => some form.csrfToken

theorem Refuses.bind {α β : Type} {x : Handler α} {db : Db} (h : Refuses x db) (f : α → Handler β) :
    Refuses (x >>= f) db := by
  obtain ⟨e, he⟩ := h
  exact ⟨e, by rw [bind_apply, he]⟩

/-- A computation that only reads hands the store on. -/
theorem bind_reading {α β : Type} {x : Handler α} {db : Db} {a : α} (h : x db = (.ok a, db))
    (f : α → Handler β) : (x >>= f) db = f a db := by
  rw [bind_apply, h]

theorem refuses_input {α : Type} (e : AppError) (db : Db) :
    Refuses (liftM (.error e : Except AppError α) : Handler α) db := ⟨e, rfl⟩

theorem checkCsrf_wrong {session : Auth.Session} {supplied : String}
    (h : session.csrfToken ≠ supplied) : Auth.checkCsrf session supplied = .error .forbidden :=
  if_neg h

theorem refuses_checkCsrf {session : Auth.Session} {supplied : String}
    (h : session.csrfToken ≠ supplied) {α : Type} (next : Unit → Handler α) (db : Db) :
    Refuses (do
      let checked ← Auth.checkCsrf session supplied
      next checked) db := by
  rw [checkCsrf_wrong h]
  exact (refuses_input _ db).bind _

theorem authorizeMember_wrong {session : Auth.Session} {form : Projects.MemberForm}
    (h : session.csrfToken ≠ form.csrfToken) (slug : String) (db : Db) :
    Projects.authorizeMember session slug form db = .error .forbidden := by
  rw [Projects.authorizeMember, checkCsrf_wrong h]
  rfl

theorem checkChange_wrong {session : Auth.Session} {form : Settings.PasswordForm}
    (h : session.csrfToken ≠ form.csrfToken) (userId : Int) :
    checkChange session userId form = .error .forbidden := by
  rw [checkChange, checkCsrf_wrong h]
  rfl

theorem refuses_onIssues {handler : Db → Except AppError IssueApi.Response × Db} {db : Db}
    {e : AppError} (h : handler db = (.error e, db)) : Refuses (onIssues handler) db :=
  ⟨e, by simp [onIssues, h, Except.map]⟩

theorem checked_wrong {session : Auth.Session} {supplied : String}
    (h : session.csrfToken ≠ supplied) (db : Db)
    (next : Unit → Except AppError IssueApi.Response × Db) :
    IssueApi.checked db (Auth.checkCsrf session supplied) next = (.error .forbidden, db) := by
  rw [checkCsrf_wrong h]
  rfl

/-- The status is parsed before the token is checked; both refuse. -/
theorem changeIssueStatus_wrong {session : Auth.Session} {form : IssueApi.StatusForm}
    (h : session.csrfToken ≠ form.csrfToken) (now : Int) (db : Db) (slug : String) (issueId : Int) :
    ∃ e, IssueApi.changeIssueStatus now db session slug issueId form = (.error e, db) := by
  unfold IssueApi.changeIssueStatus
  split
  · exact ⟨_, rfl⟩
  · exact ⟨_, checked_wrong h db _⟩

/-- A part that was read leaves the last token so far. -/
theorem collectPart_csrfToken {found found' : Collected} {part : Part}
    (h : collectPart found part = .ok found') :
    found'.csrfToken = (partTexts "csrf_token" [.ok part]).getLast?.or found.csrfToken := by
  unfold collectPart at h
  split at h
  · next hname =>
    obtain ⟨text, htext, h⟩ := Except.bind_ok h
    cases h
    simp [partTexts, hname, htext, Except.toOption]
  · next hname =>
    split at h
    · obtain ⟨bytes, -, h⟩ := Except.bind_ok h
      cases h
      simp [partTexts, hname]
    · cases h
      simp [partTexts, hname]

theorem partTexts_cons (name : String) (part : Except AppError Part)
    (parts : List (Except AppError Part)) :
    partTexts name (part :: parts) = partTexts name [part] ++ partTexts name parts := by
  rw [partTexts, ← List.singleton_append, List.filterMap_append]
  rfl

theorem collectParts_csrfToken {parts : List (Except AppError Part)} {found found' : Collected}
    (h : collectParts parts found = .ok found') :
    found'.csrfToken = (partTexts "csrf_token" parts).getLast?.or found.csrfToken := by
  induction parts generalizing found with
  | nil =>
    cases h
    rfl
  | cons part parts ih =>
    obtain ⟨read, rfl, hread⟩ := Except.bind_ok h
    obtain ⟨collected, hcollected, hrest⟩ := Except.bind_ok hread
    rw [ih hrest, collectPart_csrfToken hcollected, partTexts_cons _ _ parts, List.getLast?_append,
      Option.or_assoc]

/-- The extractor reads the last token of the body. -/
theorem uiMultipart_csrfToken {parts : List (Except AppError Part)} {form : UiMultipart}
    (h : uiMultipart parts = .ok form) :
    (partTexts "csrf_token" parts).getLast? = some form.csrfToken := by
  obtain ⟨found, hfound, h⟩ := Except.bind_ok h
  have htoken := collectParts_csrfToken hfound
  split at h
  · cases h
  · next token hsome =>
    split at h
    · cases h
    · cases h
      simpa [hsome, eq_comm] using htoken

theorem refuses_uploadAvatar (service : Service) (fault : Option AppError) (now : Int)
    {session : Auth.Session} {body : List (Except AppError Part)}
    (h : (partTexts "csrf_token" body).getLast? ≠ some session.csrfToken) (userId : Int)
    (cookie : Option String) (db : Db) :
    Refuses (handle service fault now session cookie (.uploadAvatar userId body)) db := by
  simp only [handle]
  cases hbody : uiMultipart body with
  | error e => exact (refuses_input e db).bind _
  | ok form =>
    have htoken : session.csrfToken ≠ form.csrfToken := by
      rintro heq
      exact h (heq ▸ uiMultipart_csrfToken hbody)
    have hread : (liftM (.ok form : Except AppError UiMultipart) : Handler UiMultipart) db =
        (.ok form, db) := rfl
    rw [Refuses, bind_reading hread]
    exact refuses_checkCsrf htoken _ db

/-- One case for each route. -/
theorem refuses_handle (service : Service) (fault : Option AppError) (now : Int)
    {session : Auth.Session} (cookie : Option String) {request : Request}
    (h : csrfToken request ≠ some session.csrfToken) (db : Db) :
    Refuses (handle service fault now session cookie request) db := by
  have hne : ∀ {token : String}, csrfToken request = some token → session.csrfToken ≠ token := by
    rintro token htoken rfl
    exact h htoken
  cases request with
  | uploadAvatar userId body => exact refuses_uploadAvatar service fault now h userId cookie db
  | createMember slug form argon2 =>
    have hform := authorizeMember_wrong (hne rfl) slug db
    refine ⟨.forbidden, ?_⟩
    have hget : (get : Handler Db) db = (.ok db, db) := rfl
    simp only [handle, createMember, bind_reading hget, hform]
    rfl
  | changePassword userId form argon2 =>
    simp only [handle, changePassword, checkChange_wrong (hne rfl)]
    exact (refuses_input _ db).bind _
  | changeIssueStatus slug issueId form =>
    obtain ⟨e, he⟩ := changeIssueStatus_wrong (hne rfl) now db slug issueId
    exact refuses_onIssues he
  | resolveIssue slug issueId form | reopenIssue slug issueId form | addComment slug issueId form
  | editCommentForm slug issueId commentId form | deleteCommentForm slug issueId commentId form
  | updateIssueTagsForm slug issueId form => exact refuses_onIssues (checked_wrong (hne rfl) db _)
  | logout form | createProject form | createIngestKey slug form random
  | revokeIngestKey slug keyId form | updateProfile userId form | deleteAvatar userId form
  | revokeOtherSessions userId form | revokeSession userId sessionId form | createWebhook slug form
  | deleteWebhook slug webhookId form | createApiToken form random | revokeApiToken tokenId form =>
    exact refuses_checkCsrf (hne rfl) _ db

/-- A form without the token stored for its session is refused, and no table of
the store changes. -/
theorem csrf_gate (service : Service) (fault : Option AppError) {now : Int} {cookie : Option String}
    {db : Db} {session : Auth.Session}
    (hsession : Settings.session service.env db cookie now = some session)
    {input : Except AppError Request}
    (hwrong : input.toOption.bind csrfToken ≠ some session.csrfToken) :
    ∃ e, serve service fault now cookie input db = (.error e, db) := by
  have hread : uiSession service.env cookie now db = (.ok session, db) := by
    change (liftM (Settings.requireSession service.env db cookie now) : Handler _) db = _
    rw [Settings.requireSession, hsession]
    rfl
  rw [serve, bind_reading hread]
  cases input with
  | error e => exact (refuses_input e db).bind _
  | ok request => exact refuses_handle service fault now cookie hwrong db

def Sample.service : Service where
  env := Sample.crates
  resolve := fun _ _ => .error "no such host"
  encrypt := none
  normalizeUpload := .ok
  projectPage := fun _ _ _ key => .ok key
  settingsPage := fun _ _ token => .ok token
  userSettingsPage := fun _ _ _ message => .ok message

/-- Ada is signed in; her form token is "csrf". -/
def Sample.signedIn : Db := { Db.empty with
  users := Table.empty.insert ⟨"ada@example.org", "Ada", ""⟩
  sessions := Table.empty.insert ⟨Auth.tokenHash Sample.crates "cookie", 1, "csrf", 100⟩ }

def Sample.tokenPart (token : String) : Part :=
  ⟨some "csrf_token", none, .ok token, .ok (Text.toUtf8 token)⟩

/-- An upload whose second token is not hers. -/
theorem csrf_gate_upload :
    ∃ e, serve Sample.service none 0 (some "cookie")
        (.ok (.uploadAvatar 1 [.ok (Sample.tokenPart "csrf"), .ok (Sample.tokenPart "guess")]))
        Sample.signedIn = (.error e, Sample.signedIn) := by
  have hsession : Settings.session Sample.service.env Sample.signedIn (some "cookie") 0 =
      some ⟨1, "csrf"⟩ := by decide +kernel
  exact csrf_gate Sample.service none hsession (by decide)

end Zbierak.CsrfGate
