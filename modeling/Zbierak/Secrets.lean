import Zbierak.Lib.Base64
import Zbierak.Lib.Utf8
import Zbierak.Crates
import Zbierak.Domain

/-!
# Signing secrets at rest

A secret is stored as `v1:<nonce>:<ciphertext>`, sealed under a key that is not in the
database. Opening insists on exactly this shape.
-/
namespace Zbierak.Secrets

/-- ChaCha20-Poly1305, which takes a key, a nonce, associated data and a message or a
ciphertext, HMAC-SHA256, which takes a key and a message, and the Base64 of both. -/
structure Crypto where
  encrypt : Bytes → Bytes → Bytes → Bytes → Option Bytes
  decrypt : Bytes → Bytes → Bytes → Bytes → Option Bytes
  hmacSha256 : Bytes → Bytes → Bytes
  /-- `URL_SAFE_NO_PAD` -/
  urlSafe : Base64.Codec Base64.urlSafe
  /-- `STANDARD` -/
  standard64 : Bytes → String

def version : String := "v1"

def nonceBytes : Nat := 12

def keyBytes : Nat := 32

/-- The cipher opens what it has sealed, and rejects everything else. -/
def Crypto.Authenticates (crypto : Crypto) : Prop :=
  ∀ key nonce aad message ciphertext, key.length = keyBytes → nonce.length = nonceBytes →
    (crypto.decrypt key nonce aad ciphertext = some message ↔
      crypto.encrypt key nonce aad message = some ciphertext)

/-- `String::from_utf8` -/
def readText (plaintext : Bytes) : Except AppError String :=
  match Text.fromUtf8 plaintext with
  | none => .error (.config "decrypted secret is not UTF-8")
  | some text => .ok text

section

variable (crypto : Crypto) (key nonce : Bytes)

def sealBytes (plaintext : Bytes) : Except AppError Bytes :=
  match crypto.encrypt key nonce (Text.toUtf8 version) plaintext with
  | none => .error (.config "secret encryption failed")
  | some ciphertext => .ok ciphertext

def openBytes (ciphertext : Bytes) : Except AppError Bytes :=
  match crypto.decrypt key nonce (Text.toUtf8 version) ciphertext with
  | none => .error (.config "secret decryption failed: wrong key or corrupt data")
  | some plaintext => .ok plaintext

/-- `nonce` is what the generator of random bytes returns. -/
def encrypt (plaintext : String) : Except AppError String := do
  let ciphertext ← sealBytes crypto key nonce (Text.toUtf8 plaintext)
  let nonce64 := crypto.urlSafe.encode nonce
  let ciphertext64 := crypto.urlSafe.encode ciphertext
  .ok s!"{version}:{nonce64}:{ciphertext64}"

def decrypt (stored : String) : Except AppError String :=
  match Text.split ':' stored with
  | [version', nonce64, ciphertext64] =>
    if version' ≠ version then .error (.config "unsupported secret encoding")
    else match (crypto.urlSafe.decode nonce64).filter fun bytes => bytes.length = nonceBytes with
      | none => .error (.config "corrupt secret nonce")
      | some nonce =>
        match crypto.urlSafe.decode ciphertext64 with
        | none => .error (.config "corrupt secret ciphertext")
        | some ciphertext => do
          let plaintext ← openBytes crypto key nonce ciphertext
          readText plaintext
  | _ => .error (.config "unsupported secret encoding")

/-- Version, nonce and ciphertext, joined by colons. -/
def sealedText (ciphertext : Bytes) : String :=
  version ++ ":" ++ crypto.urlSafe.encode nonce ++ ":" ++ crypto.urlSafe.encode ciphertext

end

section Codec

variable (crypto : Crypto)

theorem colon_not_mem (bytes : Bytes) : ':' ∉ (crypto.urlSafe.encode bytes).toList :=
  crypto.urlSafe.not_mem_encode (by decide) bytes

theorem split_sealedText (nonce ciphertext : Bytes) :
    Text.split ':' (sealedText crypto nonce ciphertext) =
      [version, crypto.urlSafe.encode nonce, crypto.urlSafe.encode ciphertext] := by
  have htext : (sealedText crypto nonce ciphertext).toList = version.toList ++ ':' ::
      ((crypto.urlSafe.encode nonce).toList ++ ':' :: (crypto.urlSafe.encode ciphertext).toList) := by
    simp [sealedText]
  have hversion : ':' ∉ version.toList := by decide
  rw [Text.split, htext, Text.splitList_append hversion,
    Text.splitList_append (colon_not_mem crypto nonce),
    Text.splitList_of_not_mem (colon_not_mem crypto ciphertext)]
  simp only [List.map_cons, List.map_nil, String.ofList_toList]

/-- Three pieces come from their text with two colons. -/
theorem eq_of_split {text a b c : String} (h : Text.split ':' text = [a, b, c]) :
    text = a ++ ":" ++ b ++ ":" ++ c := by
  have hjoin := Text.intercalate_splitList ':' text.toList
  have hlists : Text.splitList ':' text.toList = [a.toList, b.toList, c.toList] := by
    have hmap := congrArg (List.map String.toList) h
    rw [Text.split, List.map_map] at hmap
    simpa [Function.comp_def] using hmap
  rw [hlists] at hjoin
  apply String.toList_injective
  rw [← hjoin]
  simp

end Codec

section Seal

variable {crypto : Crypto} {key nonce : Bytes} {secret stored : String}

theorem encrypt_ok (h : encrypt crypto key nonce secret = .ok stored) : ∃ ciphertext,
    crypto.encrypt key nonce (Text.toUtf8 version) (Text.toUtf8 secret) = some ciphertext ∧
      stored = sealedText crypto nonce ciphertext := by
  obtain ⟨ciphertext, hseal, h⟩ := Except.bind_ok h
  unfold sealBytes at hseal
  split at hseal
  · cases hseal
  · next hcipher =>
    cases hseal
    cases h
    exact ⟨_, hcipher, rfl⟩

theorem openBytes_ok_iff {ciphertext plaintext : Bytes} :
    openBytes crypto key nonce ciphertext = .ok plaintext ↔
      crypto.decrypt key nonce (Text.toUtf8 version) ciphertext = some plaintext := by
  unfold openBytes
  cases crypto.decrypt key nonce (Text.toUtf8 version) ciphertext with
  | none => simp
  | some opened => simp

theorem readText_ok_iff {plaintext : Bytes} :
    readText plaintext = .ok secret ↔ Text.toUtf8 secret = plaintext := by
  rw [← Utf8.fromUtf8_eq_some, readText]
  cases Text.fromUtf8 plaintext with
  | none => simp
  | some text => simp

/-- What `decrypt` does with a text of the right shape. -/
theorem decrypt_sealedText (hlength : nonce.length = nonceBytes) (ciphertext : Bytes) :
    decrypt crypto key (sealedText crypto nonce ciphertext) =
      (openBytes crypto key nonce ciphertext).bind readText := by
  simp only [decrypt, split_sealedText, Base64.Codec.decode_encode, ne_eq, not_true_eq_false, if_false,
    Option.filter_some, hlength, decide_true, if_true]
  rfl

/-- Another shape is refused. -/
theorem sealedText_of_decrypt (h : decrypt crypto key stored = .ok secret) : ∃ nonce ciphertext,
    nonce.length = nonceBytes ∧ stored = sealedText crypto nonce ciphertext := by
  unfold decrypt at h
  split at h
  · next version' nonce64 ciphertext64 hsplit =>
    split at h
    · cases h
    · next hversion =>
      split at h
      · cases h
      · next nonce hnonce =>
        obtain ⟨hnonce, hlength⟩ := Option.filter_eq_some_iff.mp hnonce
        split at h
        · cases h
        · next ciphertext hciphertext =>
          refine ⟨nonce, ciphertext, of_decide_eq_true hlength, ?_⟩
          rw [eq_of_split hsplit, not_not.mp hversion, sealedText,
            (crypto.urlSafe.decode_eq_some _ _).mp hnonce,
            (crypto.urlSafe.decode_eq_some _ _).mp hciphertext]
  · cases h

/-- Decryption succeeds for a sealed text that the cipher opens, and for nothing else. -/
theorem decrypt_ok_iff : decrypt crypto key stored = .ok secret ↔ ∃ nonce ciphertext,
    nonce.length = nonceBytes ∧ stored = sealedText crypto nonce ciphertext ∧
      crypto.decrypt key nonce (Text.toUtf8 version) ciphertext = some (Text.toUtf8 secret) := by
  constructor
  · intro h
    obtain ⟨nonce, ciphertext, hlength, rfl⟩ := sealedText_of_decrypt h
    rw [decrypt_sealedText hlength] at h
    obtain ⟨plaintext, hopen, h⟩ := Except.bind_ok h
    exact ⟨nonce, ciphertext, hlength, rfl, by rw [openBytes_ok_iff.mp hopen, readText_ok_iff.mp h]⟩
  · rintro ⟨nonce, ciphertext, hlength, rfl, hopen⟩
    rw [decrypt_sealedText hlength, openBytes_ok_iff.mpr hopen]
    exact readText_ok_iff.mpr rfl

/-- What was sealed is opened again under the same key. -/
theorem decrypt_encrypt (hcrypto : crypto.Authenticates) (hkey : key.length = keyBytes)
    (hnonce : nonce.length = nonceBytes) (h : encrypt crypto key nonce secret = .ok stored) :
    decrypt crypto key stored = .ok secret := by
  obtain ⟨ciphertext, hcipher, rfl⟩ := encrypt_ok h
  exact decrypt_ok_iff.mpr ⟨nonce, ciphertext, hnonce, rfl,
    (hcrypto key nonce _ _ ciphertext hkey hnonce).mpr hcipher⟩

end Seal

end Zbierak.Secrets
