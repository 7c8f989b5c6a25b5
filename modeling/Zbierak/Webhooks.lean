import Zbierak.NetPolicy
import Zbierak.Auth
import Zbierak.Forms

/-!
# Notification endpoints

Creating an endpoint checks its destination once; delivery checks it again.
Removing one removes its queued notifications with it.
-/
namespace Zbierak.Webhooks

open NetPolicy

structure WebhookForm where
  csrfToken : String
  name : String
  url : String
  kind : String
  secret : Option String
  deriving DecidableEq, Repr

/-- The endpoint a form describes. `encrypt` seals the secret under the
configured key, when there is one. -/
def checkWebhook (env : Crates) (resolve : Resolver)
    (encrypt : Option (String → Except AppError String)) (projectId userId : Int)
    (form : WebhookForm) : Except AppError Endpoint := do
  let name ← Forms.requiredText "name" form.name 100
  let url ← (env.parseUrl form.url).mapError fun _ => .badRequest "invalid webhook URL"
  if (url.scheme ≠ "http" ∧ url.scheme ≠ "https") ∨ url.host = none then
    .error (.badRequest "webhook URL must be HTTP or HTTPS")
  if form.kind ≠ "webhook" ∧ form.kind ≠ "discord" then
    .error (.badRequest "invalid webhook kind")
  let host := url.host.getD ""
  if form.kind = "discord" ∧
      (url.scheme ≠ "https" ∨ (host ≠ "discord.com" ∧ host ≠ "discordapp.com")) then
    .error (.badRequest "invalid Discord webhook URL")
  let defaultPort := if url.scheme = "https" then 443 else 80
  let _ ← (resolveAllowedWith host (url.port.getD defaultPort) resolve).mapError fun error =>
    let reason := error.display
    AppError.badRequest s!"webhook destination rejected: {reason}"
  if form.kind = "webhook" then
    let secret ← Forms.requiredText "webhook secret" (form.secret.getD "") 1024
    if Text.charCount secret < 16 then
      .error (.badRequest "webhook secret must contain at least 16 characters")
    match encrypt with
    | none =>
      .error (.badRequest "ZBIERAK_SECRET_KEY must be configured to store webhook signing secrets")
    | some encrypt =>
      let sealedSecret ← encrypt secret
      .ok ⟨projectId, name, .webhook, url.text, some sealedSecret, 1, true, userId⟩
  else .ok ⟨projectId, name, .discord, url.text, none, 0, true, userId⟩

/-- An endpoint of the signing kind is stored with its trimmed secret, sealed. -/
theorem checkWebhook_ok {env : Crates} {resolve : Resolver} {projectId userId : Int}
    {encrypt : Option (String → Except AppError String)} {form : WebhookForm} {endpoint : Endpoint}
    (hkind : form.kind = "webhook")
    (h : checkWebhook env resolve encrypt projectId userId form = .ok endpoint) :
    ∃ sealing stored, encrypt = some sealing ∧ sealing (Text.trim (form.secret.getD "")) = .ok stored ∧
      endpoint.kind = .webhook ∧ endpoint.secret = some stored ∧ endpoint.secretEncrypted = 1 := by
  obtain ⟨name, -, h⟩ := Except.bind_ok h
  obtain ⟨url, -, h⟩ := Except.bind_ok h
  dsimp only at h
  -- Each refusal contradicts the result; the kind picks the branch after them.
  split at h
  · cases h
  split at h
  · cases h
  split at h
  · cases h
  obtain ⟨addresses, -, h⟩ := Except.bind_ok h
  obtain ⟨secret, hsecret, h⟩ := Except.bind_ok h
  obtain ⟨rfl, -⟩ := Forms.requiredText_ok hsecret
  split at h
  · cases h
  cases encrypt with
  | none => cases h
  | some sealing =>
    obtain ⟨stored, hseal, h⟩ := Except.bind_ok h
    cases h
    exact ⟨sealing, stored, rfl, hseal, rfl, rfl, rfl⟩

def createWebhookTx (slug : String) (endpoint : Endpoint) : Tx Unit := fun db =>
  let inserted := { db with endpoints := db.endpoints.insert endpoint }
  let kind := match endpoint.kind with
    | .webhook => "webhook"
    | .discord => "discord"
  .ok (inserted.record (some endpoint.createdBy) "webhook.created" (some "notification_endpoint")
    none (.object [("kind", .string kind), ("project", .string slug)]), ())

/-- Queued notifications of the endpoint go with it. -/
def deleteWebhookTx (projectId userId webhookId : Int) (slug : String) : Tx Unit := fun db =>
  match (db.endpoints.get? webhookId).filter fun e => e.projectId = projectId with
  | none => .error .notFound
  | some _ =>
    let deleted := { db with
      endpoints := db.endpoints.delete fun id _ => id = webhookId
      outbox := db.outbox.delete fun _ row => row.endpointId = webhookId }
    .ok (deleted.record (some userId) "webhook.deleted" (some "notification_endpoint")
      (some (toString webhookId)) (.object [("project", .string slug)]), ())

theorem deleteWebhookTx_ok {db db' : Db} {projectId userId webhookId : Int} {slug : String}
    (h : deleteWebhookTx projectId userId webhookId slug db = .ok (db', ())) :
    ∃ log, db' = { db with
      endpoints := db.endpoints.delete fun id _ => id = webhookId
      outbox := db.outbox.delete fun _ row => row.endpointId = webhookId
      auditLog := log } := by
  unfold deleteWebhookTx at h
  split at h
  · cases h
  · cases h
    exact ⟨_, rfl⟩

end Zbierak.Webhooks
