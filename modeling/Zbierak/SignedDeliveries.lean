import Zbierak.DeliveryRuns
import Zbierak.Secrets
import Zbierak.UiForms

/-!
# Signed deliveries

The secret of a form is sealed when its endpoint is created, and opened again for
every delivery. The endpoint keeps what was sealed until it is deleted, so every
delivery of the endpoint is signed with the secret of the form.
-/
namespace Zbierak.Delivery

open Outbox Secrets

/-- The text of the errors that `decrypt` gives. -/
def configText : AppError → String
  | .config message => message
  | _ => ""

/-- The libraries, with this cipher and this digest behind the calls of the outbox. -/
def signingCrates (crypto : Crypto) (env : Crates) : Crates :=
  { env with
    hmacSha256 := fun secret body =>
      crypto.standard64 (crypto.hmacSha256 (Text.toUtf8 secret) (Text.toUtf8 body))
    decryptSecret := fun key stored => (decrypt crypto key stored).mapError configText }

/-- The value of `x-zbierak-signature`. -/
def signature (crypto : Crypto) (secret body : String) : String :=
  "sha256=" ++ crypto.standard64 (crypto.hmacSha256 (Text.toUtf8 secret) (Text.toUtf8 body))

section Endpoint

variable {id : Int} {endpoint : Endpoint} {db db' : Db}

/-- The endpoint is as it was created, or gone. -/
structure Kept (id : Int) (endpoint : Endpoint) (db : Db) : Prop where
  known : id ≤ db.endpoints.seq
  same : ∀ e, db.endpoints.get? id = some e → e = endpoint

theorem Kept.evolve {now : Int} (h : Kept id endpoint db) (hq : QueueEvolves now db db') :
    Kept id endpoint db' where
  known := Int.le_trans h.known hq.endpointsSeq
  same e he := by
    cases hold : db.endpoints.get? id with
    | none =>
      rw [hq.gone id h.known hold] at he
      cases he
    | some old =>
      rcases hq.endpoints id old hold with hsame | ⟨hnone, -⟩
      · obtain rfl : old = e := by simpa [hsame] using he
        exact h.same old hold
      · rw [hnone] at he
        cases he

theorem Kept.step {cfg : Server.Setup} {webhookKey : Option Bytes} {w w' : World} {label : Label}
    (hinv : Inv w) (h : Kept id endpoint w.db) (hstep : step cfg webhookKey w label = some w') :
    Kept id endpoint w'.db := by
  rcases step_queue hinv hstep with hq | ⟨_, _, -, -, hdb⟩
  · exact h.evolve hq
  · rw [hdb]
    exact ⟨h.known, h.same⟩

end Endpoint

section Signing

variable (crypto : Crypto) (secret stored : String)

/-- The endpoint stores this sealed secret. -/
structure SealedEndpoint (endpoint : Endpoint) : Prop where
  kind : endpoint.kind = .webhook
  secret : endpoint.secret = some stored
  encrypted : endpoint.secretEncrypted = 1

/-- The delivery carries it. -/
structure Sealed (d : Outbox.Delivery) : Prop where
  kind : d.kind = .webhook
  secret : d.secret = some stored
  encrypted : d.secretEncrypted = 1

def SignedPost (post : Post) : Prop := post.signature = some (signature crypto secret post.body)

/-- What is known of the work for a row of the endpoint. -/
def Work.Signed : Work → Prop
  | .claimed d => Sealed stored d
  | .sending _ post => SignedPost crypto secret post
  | .refused _ _ | .answered _ _ => True

/-- Work and exchanges for the row are signed. -/
structure Signed (rowId : Int) (w : World) : Prop where
  work : ∀ k ∈ w.work, k.delivery.id = rowId → k.Signed crypto secret stored
  exchanges : ∀ x ∈ w.exchanges, x.rowId = rowId → SignedPost crypto secret x.post

variable {crypto secret stored} {key : Bytes} {env : Crates} {publicUrl : Option String}
  {id rowId : Int} {endpoint : Endpoint}

/-- A delivery of the endpoint fails at its destination or is signed. -/
theorem request_sealed {d : Outbox.Delivery} (hsealed : Sealed stored d)
    (hsecret : decrypt crypto key stored = .ok secret) (resolve : NetPolicy.Resolver) :
    Outbox.request (signingCrates crypto env) (some key) resolve d =
      (pinnedClient (signingCrates crypto env) resolve d.url).map fun addresses =>
        ⟨addresses, d.url, some (signature crypto secret d.payloadJson), d.payloadJson⟩ := by
  have hopen : signingSecret (signingCrates crypto env) (some key) d.secretEncrypted stored =
      .ok secret := by
    rw [signingSecret, if_neg (by rw [hsealed.encrypted]; decide)]
    simp only [signingCrates, hsecret, Except.mapError]
  unfold Outbox.request
  simp only [hsealed.kind, hsealed.secret]
  cases pinnedClient (signingCrates crypto env) resolve d.url with
  | error e => rfl
  | ok addresses =>
    simp only [hopen]
    rfl

theorem prepared_signed {d : Outbox.Delivery} (hsealed : Sealed stored d)
    (hsecret : decrypt crypto key stored = .ok secret) (resolve : NetPolicy.Resolver) :
    (prepared (signingCrates crypto env) (some key) resolve d).Signed crypto secret stored := by
  rw [prepared, request_sealed hsealed hsecret]
  cases pinnedClient (signingCrates crypto env) resolve d.url with
  | error e => trivial
  | ok addresses => rfl

/-- A delivery claimed for a row of the endpoint carries its secret. -/
theorem sealed_claim {now : Int} {db : Db} {d : Outbox.Delivery} {row : OutboxRow}
    (hendpoint : SealedEndpoint stored endpoint) (hkept : Kept id endpoint db)
    (hrow : db.outbox.get? d.id = some row) (hid : row.endpointId = id)
    (h : (Outbox.claim now db).1 = .ok (some d)) :
    Sealed stored d ∧ d.payloadJson = row.payloadJson := by
  rcases claim_cases now db with ⟨hnone, -⟩ | ⟨rowId, claimed, hget, -, -, hreply⟩
  · rw [hnone] at h
    cases h
  · rw [hreply] at h
    split at h
    · next e he =>
      cases h
      obtain rfl : claimed = row := by simpa [hget] using hrow
      rw [hid] at he
      obtain rfl := hkept.same e he
      exact ⟨⟨hendpoint.kind, hendpoint.secret, hendpoint.encrypted⟩, rfl⟩
    · cases h

theorem Signed.of_same {w w' : World} (h : Signed crypto secret stored rowId w)
    (hwork : ∀ k ∈ w'.work, k ∈ w.work) (hexchanges : w'.exchanges = w.exchanges) :
    Signed crypto secret stored rowId w' where
  work k hk := h.work k (hwork k hk)
  exchanges x hx := h.exchanges x (hexchanges ▸ hx)

/-- Signed work is taken up, other work may be put down. -/
theorem Signed.take_up {w : World} {db : Db} {k : Work} {work : List Work}
    (h : Signed crypto secret stored rowId w)
    (hk : k.delivery.id = rowId → k.Signed crypto secret stored) (hwork : ∀ j ∈ work, j ∈ w.work) :
    Signed crypto secret stored rowId { w with db, work := k :: work } where
  work j hj hid := by
    rcases List.mem_cons.mp hj with rfl | hj
    · exact hk hid
    · exact h.work j (hwork j hj) hid
  exchanges := h.exchanges

theorem Signed.exchange {w : World} {x : Exchange} (h : Signed crypto secret stored rowId w)
    (hx : x.rowId = rowId → SignedPost crypto secret x.post) :
    Signed crypto secret stored rowId { w with exchanges := w.exchanges ++ [x] } where
  work := h.work
  exchanges y hy hid := by
    rcases List.mem_append.mp hy with hy | hy
    · exact h.exchanges y hy hid
    · obtain rfl := List.mem_singleton.mp hy
      exact hx hid

variable {w w' : World}

theorem Signed.step {label : Label} (hendpoint : SealedEndpoint stored endpoint)
    (hsecret : decrypt crypto key stored = .ok secret) (hkept : Kept id endpoint w.db)
    (hrow : ∀ row, w.db.outbox.get? rowId = some row → row.endpointId = id)
    (h : Signed crypto secret stored rowId w)
    (hstep : step ⟨signingCrates crypto env, publicUrl⟩ (some key) w label = some w') :
    Signed crypto secret stored rowId w' := by
  cases step_moves hstep with
  | tick | request | unclaimed => exact h.of_same (fun _ hk => hk) rfl
  | claimed d hclaim =>
    refine h.take_up (fun hid => ?_) fun _ hk => hk
    subst hid
    obtain ⟨row, hget, -⟩ := claimed_row hclaim
    exact (sealed_claim hendpoint hkept hget (hrow row hget) hclaim).1
  | prepare d resolve hmem =>
    refine h.take_up (fun hid => ?_) fun _ hk => List.mem_of_mem_erase hk
    rw [(prepared_backed _ _ _ d w.exchanges w.clock).1] at hid
    exact prepared_signed (h.work _ hmem hid) hsecret resolve
  | answer d post answer hmem =>
    exact (h.exchange (x := ⟨d.id, post, answer, w.clock⟩) (h.work _ hmem)).take_up (fun _ => trivial)
      fun _ hk => List.mem_of_mem_erase hk
  | finish | crash => exact h.of_same (fun _ hk => List.mem_of_mem_erase hk) rfl

end Signing

section Runs

variable {cfg : Server.Setup} {webhookKey : Option Bytes} {w w' : World} {label : Label}
  {rowId : Int}

/-- Exchanges are about rows that have been stored. -/
def Known (w : World) : Prop := ∀ x ∈ w.exchanges, x.rowId ≤ w.db.outbox.seq

theorem step_exchanges (hstep : step cfg webhookKey w label = some w') :
    ∀ x ∈ w'.exchanges, x ∈ w.exchanges ∨ ∃ k ∈ w.work, x.rowId = k.delivery.id := by
  intro x hx
  cases step_moves hstep with
  | answer d post answer hmem =>
    rcases List.mem_append.mp hx with hx | hx
    · exact .inl hx
    · obtain rfl := List.mem_singleton.mp hx
      exact .inr ⟨_, hmem, rfl⟩
  | tick | request | claimed | unclaimed | prepare | finish | crash => exact .inl hx

theorem Known.step (hinv : Inv w) (h : Known w) (hstep : step cfg webhookKey w label = some w') :
    Known w' := by
  intro x hx
  refine Int.le_trans ?_ (step_follows hinv hstep).outboxSeq
  rcases step_exchanges hstep x hx with hold | ⟨k, hk, hid⟩
  · exact h x hold
  · rw [hid]
    exact (hinv.agrees k hk).1

/-- A row after a step was there before, for the same endpoint, or is new. -/
theorem step_row (hinv : Inv w) (hstep : step cfg webhookKey w label = some w') {row' : OutboxRow}
    (hrow' : w'.db.outbox.get? rowId = some row') :
    (∃ row, w.db.outbox.get? rowId = some row ∧ row.endpointId = row'.endpointId) ∨
      w.db.outbox.seq < rowId := by
  rcases step_queue hinv hstep with hq | ⟨_, f, -, hf, hdb⟩
  · rcases hq.rows rowId row' hrow' with hold | ⟨hnew, -⟩
    · exact .inl ⟨row', hold, rfl⟩
    · exact .inr hnew
  · rw [hdb] at hrow'
    obtain ⟨row, hrow, rfl⟩ := get?_rewrite hrow'
    refine .inl ⟨row, hrow, ?_⟩
    split
    · exact (hf row).1.symm
    · rfl

variable {crypto : Crypto} {secret stored : String} {key : Bytes} {env : Crates}
  {publicUrl : Option String} {id : Int} {endpoint : Endpoint}

/-- Nobody has worked on a row that is not stored yet. -/
theorem Signed.of_new (hinv : Inv w) (hknown : Known w) (hnew : w.db.outbox.seq < rowId) :
    Signed crypto secret stored rowId w where
  work k hk hid := by
    have := (hinv.agrees k hk).1
    omega
  exchanges x hx hid := by
    have := hknown x hx
    omega

/-- Every stored row of the endpoint is signed. -/
structure Signs (crypto : Crypto) (secret stored : String) (id : Int) (endpoint : Endpoint)
    (w : World) : Prop where
  inv : Inv w
  known : Known w
  kept : Kept id endpoint w.db
  signed : ∀ rowId row, w.db.outbox.get? rowId = some row → row.endpointId = id →
    Signed crypto secret stored rowId w

/-- The row is signed, also when it is gone. -/
structure SignsRow (crypto : Crypto) (secret stored : String) (id : Int) (endpoint : Endpoint)
    (rowId : Int) (w : World) : Prop where
  inv : Inv w
  kept : Kept id endpoint w.db
  seen : rowId ≤ w.db.outbox.seq
  row : ∀ row, w.db.outbox.get? rowId = some row → row.endpointId = id
  signed : Signed crypto secret stored rowId w

theorem Signs.step (hendpoint : SealedEndpoint stored endpoint)
    (hsecret : decrypt crypto key stored = .ok secret) (h : Signs crypto secret stored id endpoint w)
    (hstep : step ⟨signingCrates crypto env, publicUrl⟩ (some key) w label = some w') :
    Signs crypto secret stored id endpoint w' where
  inv := h.inv.step hstep
  known := h.known.step h.inv hstep
  kept := h.kept.step h.inv hstep
  signed rowId row' hrow' hid := by
    rcases step_row h.inv hstep hrow' with ⟨row, hrow, hsame⟩ | hnew
    · have hof : ∀ x, w.db.outbox.get? rowId = some x → x.endpointId = id := by
        intro x hx
        obtain rfl : row = x := by simpa [hrow] using hx
        exact hsame.trans hid
      exact (h.signed rowId row hrow (hof row hrow)).step hendpoint hsecret h.kept hof hstep
    · refine (Signed.of_new h.inv h.known hnew).step hendpoint hsecret h.kept (fun x hx => ?_) hstep
      have := w.db.outbox.le_seq_of_get? hx
      omega

theorem SignsRow.step (hendpoint : SealedEndpoint stored endpoint)
    (hsecret : decrypt crypto key stored = .ok secret)
    (h : SignsRow crypto secret stored id endpoint rowId w)
    (hstep : step ⟨signingCrates crypto env, publicUrl⟩ (some key) w label = some w') :
    SignsRow crypto secret stored id endpoint rowId w' where
  inv := h.inv.step hstep
  kept := h.kept.step h.inv hstep
  seen := Int.le_trans h.seen (step_follows h.inv hstep).outboxSeq
  row row' hrow' := by
    rcases step_row h.inv hstep hrow' with ⟨row, hrow, hsame⟩ | hnew
    · exact hsame.symm.trans (h.row row hrow)
    · have := h.seen
      omega
  signed := h.signed.step hendpoint hsecret h.kept h.row hstep

theorem Signs.row (h : Signs crypto secret stored id endpoint w) {row : OutboxRow}
    (hrow : w.db.outbox.get? rowId = some row) (hid : row.endpointId = id) :
    SignsRow crypto secret stored id endpoint rowId w where
  inv := h.inv
  kept := h.kept
  seen := w.db.outbox.le_seq_of_get? hrow
  row x hx := by
    obtain rfl : row = x := by simpa [hrow] using hx
    exact hid
  signed := h.signed rowId row hrow hid

/-- What an endpoint owes to its secret, in every run from this state. -/
structure SignsWith (crypto : Crypto) (cfg : Server.Setup) (key : Bytes) (id : Int)
    (secret : String) (w : World) : Prop where
  /-- The stored form of the secret can be opened. -/
  stored : ∃ e stored, w.db.endpoints.get? id = some e ∧ e.secret = some stored ∧
    decrypt crypto key stored = .ok secret
  /-- A delivery claimed for a row of the endpoint is sent as soon as its destination is
  accepted, with the payload of the row and its signature. -/
  claimed : ∀ labels u, Runs.run (step cfg (some key)) labels w = some u →
    ∀ d row, (Outbox.claim u.clock u.db).1 = .ok (some d) → u.db.outbox.get? d.id = some row →
      row.endpointId = id → ∀ resolve, Outbox.request cfg.env (some key) resolve d =
        (pinnedClient cfg.env resolve d.url).map fun addresses =>
          ⟨addresses, d.url, some (signature crypto secret row.payloadJson), row.payloadJson⟩
  /-- What was ever sent for a row of the endpoint is signed. -/
  sent : ∀ labels u, Runs.run (step cfg (some key)) labels w = some u →
    ∀ rowId row, u.db.outbox.get? rowId = some row → row.endpointId = id →
      ∀ later v, Runs.run (step cfg (some key)) later u = some v →
        ∀ x ∈ v.exchanges, x.rowId = rowId →
          x.post.signature = some (signature crypto secret x.post.body)

theorem Signs.signsWith (hendpoint : SealedEndpoint stored endpoint)
    (hsecret : decrypt crypto key stored = .ok secret) (h : Signs crypto secret stored id endpoint w)
    (hget : w.db.endpoints.get? id = some endpoint) :
    SignsWith crypto ⟨signingCrates crypto env, publicUrl⟩ key id secret w where
  stored := ⟨endpoint, stored, hget, hendpoint.secret, hsecret⟩
  claimed labels u hr d row hclaim hrow hid resolve := by
    have hu := Runs.run_invariant (fun _ _ _ h hstep => Signs.step hendpoint hsecret h hstep) hr h
    obtain ⟨hsealed, hpayload⟩ := sealed_claim hendpoint hu.kept hrow hid hclaim
    rw [← hpayload]
    exact request_sealed hsealed hsecret resolve
  sent labels u hr rowId row hrow hid later v hlater := by
    have hu := Runs.run_invariant (fun _ _ _ h hstep => Signs.step hendpoint hsecret h hstep) hr h
    exact (Runs.run_invariant (fun _ _ _ h hstep => SignsRow.step hendpoint hsecret h hstep) hlater
      (hu.row hrow hid)).signed.exchanges

theorem Fresh.known (h : Fresh w) : Known w := by
  intro x hx
  rw [h.2.2] at hx
  cases hx

/-- A new endpoint signs: nothing was queued for it before. -/
theorem signs_created (hreachable : Runs.Reachable (step cfg webhookKey) Fresh w) {slug : String}
    (hstep : step cfg webhookKey w (.request (.createWebhook slug endpoint)) = some w') :
    Signs crypto secret stored w.db.endpoints.nextId endpoint w' ∧
      w'.db.endpoints.get? w.db.endpoints.nextId = some endpoint := by
  obtain ⟨hinv, hknown⟩ := hreachable.invariant (I := fun w => Inv w ∧ Known w)
    (fun _ h => ⟨h.inv, h.known⟩) fun _ _ _ h hstep => ⟨h.1.step hstep, h.2.step h.1 hstep⟩
  have hinv' := hinv.step hstep
  have hknown' := hknown.step hinv hstep
  cases hstep
  have hget : (w.db.endpoints.insert endpoint).get? w.db.endpoints.nextId = some endpoint := by simp
  refine ⟨⟨hinv', hknown', ⟨Int.le_refl _, fun e he => ?_⟩, fun rowId row hrow hid => ?_⟩, hget⟩
  · exact Option.some.inj (he.symm.trans hget)
  · obtain ⟨e, he⟩ := hinv.endpoint rowId row hrow
    rw [hid, Table.get?_nextId] at he
    cases he

end Runs

/-- The handler writes the endpoint that the form describes. -/
theorem createWebhook_ok {service : UiForms.Service} {session : Auth.Session} {slug : String}
    {form : Webhooks.WebhookForm} {db db' : Db} {reply : UiForms.Response}
    (h : UiForms.createWebhook service session slug form db = (.ok reply, db')) :
    ∃ projectId endpoint, Webhooks.checkWebhook service.env service.resolve service.encrypt
        projectId session.userId form = .ok endpoint ∧
      commit (Webhooks.createWebhookTx slug endpoint) db = (.ok (), db') := by
  obtain ⟨_, -, hread⟩ := UiForms.bind_lift_success h
  rw [UiForms.bind_get] at hread
  obtain ⟨projectId, -, hform⟩ := UiForms.bind_lift_success hread
  obtain ⟨endpoint, hcheck, hwrite⟩ := UiForms.bind_lift_success hform
  obtain ⟨_, _, hcommit, hreply⟩ := UiForms.bind_write_success hwrite
  cases hreply
  exact ⟨projectId, endpoint, hcheck, hcommit⟩

/-- Secrets survive storage and sign what is sent; nothing else is opened. -/
theorem secrets_sign_deliveries {crypto : Crypto} {key : Bytes} (hcrypto : crypto.Authenticates)
    (hkey : key.length = keyBytes) (env : Crates) (publicUrl : Option String) :
    (∀ nonce secret stored, nonce.length = nonceBytes →
      encrypt crypto key nonce secret = .ok stored → decrypt crypto key stored = .ok secret) ∧
    (∀ nonce service session slug form db reply db', nonce.length = nonceBytes →
      service.encrypt = some (encrypt crypto key nonce) → form.kind = "webhook" →
      UiForms.createWebhook service session slug form db = (.ok reply, db') →
      ∃ endpoint, commit (Webhooks.createWebhookTx slug endpoint) db = (.ok (), db') ∧
        ∀ w w', Runs.Reachable (step ⟨signingCrates crypto env, publicUrl⟩ (some key)) Fresh w →
          step ⟨signingCrates crypto env, publicUrl⟩ (some key) w
            (.request (.createWebhook slug endpoint)) = some w' →
          SignsWith crypto ⟨signingCrates crypto env, publicUrl⟩ key w.db.endpoints.nextId
            (Text.trim (form.secret.getD "")) w') ∧
    (∀ stored, (∀ nonce ciphertext, nonce.length = nonceBytes →
        stored ≠ sealedText crypto nonce ciphertext) → ∃ e, decrypt crypto key stored = .error e) ∧
    ∀ nonce ciphertext, nonce.length = nonceBytes →
      (∀ message, crypto.encrypt key nonce (Text.toUtf8 version) message ≠ some ciphertext) →
      ∃ e, decrypt crypto key (sealedText crypto nonce ciphertext) = .error e := by
  refine ⟨fun nonce secret stored hnonce h => decrypt_encrypt hcrypto hkey hnonce h, ?_, ?_, ?_⟩
  · intro nonce service session slug form db reply db' hnonce hencrypt hkind h
    obtain ⟨projectId, endpoint, hcheck, hcommit⟩ := createWebhook_ok h
    obtain ⟨sealing, stored, hsealing, hstored, hendpoint⟩ := Webhooks.checkWebhook_ok hkind hcheck
    obtain rfl : encrypt crypto key nonce = sealing := Option.some.inj (hencrypt.symm.trans hsealing)
    refine ⟨endpoint, hcommit, fun w w' hreachable hstep => ?_⟩
    obtain ⟨hsigns, hget⟩ := signs_created hreachable hstep
    exact hsigns.signsWith ⟨hendpoint.1, hendpoint.2.1, hendpoint.2.2⟩
      (decrypt_encrypt hcrypto hkey hnonce hstored) hget
  · intro stored hshape
    cases h : decrypt crypto key stored with
    | error e => exact ⟨e, rfl⟩
    | ok secret =>
      obtain ⟨nonce, ciphertext, hnonce, rfl⟩ := sealedText_of_decrypt h
      exact absurd rfl (hshape nonce ciphertext hnonce)
  · intro nonce ciphertext hnonce hforged
    cases h : openBytes crypto key nonce ciphertext with
    | error e => exact ⟨e, by rw [decrypt_sealedText hnonce, h]; rfl⟩
    | ok plaintext =>
      exact absurd ((hcrypto key nonce _ plaintext ciphertext hkey hnonce).mp
        (openBytes_ok_iff.mp h)) (hforged plaintext)

namespace Sample

def secretKey : Bytes := (List.range 32).map UInt8.ofNat

def nonce : Bytes := (List.range 12).map UInt8.ofNat

def secret : String := "correct horse battery"

def ciphertext : Bytes := [234, 148, 122, 114, 76, 116, 209, 96, 223, 236, 77, 128, 253, 61, 108, 2, 189,
  4, 215, 149, 40, 183, 219, 8, 239, 140, 89, 251, 0, 216, 243, 228, 182, 45, 62, 19, 18]

def digest : Bytes := [177, 252, 202, 116, 212, 16, 119, 46, 50, 207, 139, 217, 119, 182, 54, 177, 87,
  235, 72, 127, 34, 175, 51, 170, 67, 228, 147, 98, 140, 126, 93, 252]

/-- What the cipher and the digest answer about one key, nonce and secret. -/
def crypto : Crypto where
  encrypt key nonce' aad message :=
    if key = secretKey ∧ nonce' = nonce ∧ aad = Text.toUtf8 version ∧ message = Text.toUtf8 secret then
      some ciphertext
    else none
  decrypt key nonce' aad sealedBytes :=
    if key = secretKey ∧ nonce' = nonce ∧ aad = Text.toUtf8 version ∧ sealedBytes = ciphertext then
      some (Text.toUtf8 secret)
    else none
  hmacSha256 key message :=
    if key = Text.toUtf8 secret ∧ message = Text.toUtf8 "null" then digest else []
  urlSafe := .unpadded Base64.urlSafe
  standard64 bytes := String.ofList (Base64.encodePadded Base64.standard bytes)

theorem crypto_authenticates : crypto.Authenticates := by
  intro key nonce' aad message sealedBytes _ _
  simp only [crypto, Option.ite_none_right_eq_some, Option.some.injEq]
  constructor
  · rintro ⟨⟨hkey, hnonce, haad, rfl⟩, rfl⟩
    exact ⟨⟨hkey, hnonce, haad, rfl⟩, rfl⟩
  · rintro ⟨⟨hkey, hnonce, haad, rfl⟩, rfl⟩
    exact ⟨⟨hkey, hnonce, haad, rfl⟩, rfl⟩

def signingSetup : Server.Setup := ⟨signingCrates crypto Zbierak.Sample.crates, none⟩

def service : UiForms.Service where
  env := signingSetup.env
  resolve := resolve
  encrypt := some (encrypt crypto secretKey nonce)
  normalizeUpload := .ok
  projectPage := fun _ _ _ _ => .ok ""
  settingsPage := fun _ _ _ => .ok ""
  userSettingsPage := fun _ _ _ _ => .ok ""

def form : Webhooks.WebhookForm :=
  ⟨"csrf", "hook", "https://hooks.example/in", "webhook", some " correct horse battery "⟩

def sealedSecret : String :=
  "v1:AAECAwQFBgcICQoL:6pR6ckx00WDf7E2A_T1sAr0E15Uot9sI74xZ-wDY8-S2LT4TEg"

def endpoint : Endpoint :=
  ⟨1, "hook", .webhook, "https://hooks.example/in", some sealedSecret, 1, true, 1⟩

/-- Everything but the endpoint is there. -/
def installed : List Label := (Server.Sample.installation.take 3).map Label.request

def sealedDelivery : Outbox.Delivery :=
  ⟨1, "null", 1, .webhook, "https://hooks.example/in", some sealedSecret, 1⟩

def signedPost : Post := ⟨[⟨.v4 ⟨93, 184, 216, 34⟩, 443⟩], "https://hooks.example/in",
  some "sha256=sfzKdNQQdy4yz4vZd7Y2sVfrSH8irzOqQ+STYox+Xfw=", "null"⟩

/-- The first event is stored and notified. -/
def notified : List Label := [
  .request (.ingest ⟨1, 1, "demo"⟩ (Zbierak.Sample.eventBody "m") "018f"),
  .claim,
  .prepare sealedDelivery resolve,
  .answer sealedDelivery signedPost (.ok 200)]

end Sample

set_option maxRecDepth 20000 in
/-- A secret that is trimmed, sealed, opened and used for the first notification. -/
theorem secrets_sign_deliveries_notified :
    ∃ w ∈ Runs.run (step Sample.signingSetup (some Sample.secretKey)) Sample.installed Sample.fresh,
      ∃ w' ∈ step Sample.signingSetup (some Sample.secretKey) w
          (.request (.createWebhook "demo" Sample.endpoint)),
        SignsWith Sample.crypto Sample.signingSetup Sample.secretKey 1 Sample.secret w' ∧
        ∃ v ∈ Runs.run (step Sample.signingSetup (some Sample.secretKey)) Sample.notified w',
          ∃ x ∈ v.exchanges,
            x.post.signature = some "sha256=sfzKdNQQdy4yz4vZd7Y2sVfrSH8irzOqQ+STYox+Xfw=" := by
  have hrun : ∃ w ∈ Runs.run (step Sample.signingSetup (some Sample.secretKey)) Sample.installed
        Sample.fresh,
      w.db.endpoints.nextId = 1 ∧
      (UiForms.createWebhook Sample.service ⟨1, "csrf"⟩ "demo" Sample.form w.db).1 =
        .ok (.redirect "/settings") ∧
      (UiForms.createWebhook Sample.service ⟨1, "csrf"⟩ "demo" Sample.form w.db).2.endpoints.get? 1 =
        some Sample.endpoint ∧
      ∃ w' ∈ step Sample.signingSetup (some Sample.secretKey) w
          (.request (.createWebhook "demo" Sample.endpoint)),
        ∃ v ∈ Runs.run (step Sample.signingSetup (some Sample.secretKey)) Sample.notified w',
          ∃ x ∈ v.exchanges,
            x.post.signature = some "sha256=sfzKdNQQdy4yz4vZd7Y2sVfrSH8irzOqQ+STYox+Xfw=" := by
    decide +kernel
  obtain ⟨w, hw, hid, hreply, hendpoint, w', hw', hsent⟩ := hrun
  have hkey : Sample.secretKey.length = keyBytes := by decide
  obtain ⟨-, hcreated, -⟩ := secrets_sign_deliveries Sample.crypto_authenticates hkey
    Zbierak.Sample.crates none
  obtain ⟨e, hcommit, hsigns⟩ := hcreated Sample.nonce Sample.service ⟨1, "csrf"⟩ "demo" Sample.form
    w.db _ _ (by decide) rfl rfl (Prod.ext hreply rfl)
  have hinserted : (w.db.endpoints.insert e).get? 1 = some Sample.endpoint := by
    rw [← hendpoint]
    exact congrArg (fun result => result.2.endpoints.get? 1) hcommit
  obtain rfl : e = Sample.endpoint := by simpa [hid] using hinserted
  have hresult := hsigns w w' ⟨_, _, ⟨rfl, rfl, rfl⟩, hw⟩ hw'
  rw [hid] at hresult
  exact ⟨w, hw, w', hw', hresult, hsent⟩

end Zbierak.Delivery
