import Uptimepage.Text.Base64
import Uptimepage.Text.Delimited
import Uptimepage.Text.JsonValue

/-!
# Envelopes

`security/crypto.rs`: a secret at rest is an envelope `v1:nonce:ciphertext` when a key is
configured and plain text otherwise, told apart by the prefix (`sealStr`, `openStr`).
-/

namespace Uptimepage.Secrets

open Json Delimited

abbrev Bytes := List UInt8

structure Nonce where
  bytes : Bytes
  length_eq : bytes.length = 12
deriving DecidableEq

/-- An `Aes256Gcm` with its key. -/
structure Cipher where
  encrypt : Nonce → Bytes → Option Bytes
  decrypt : Nonce → Bytes → Option Bytes

/-- Decryption inverts encryption. -/
def Cipher.Lawful (c : Cipher) : Prop :=
  ∀ nonce plaintext ct, c.encrypt nonce plaintext = some ct → c.decrypt nonce ct = some plaintext

inductive CryptoError
  | badVersion
  | badShape
  | invalidBase64
  | invalidNonceLength (n : Nat)
  | decryptFailed
  | encryptFailed
deriving DecidableEq

def version : String := "v1"

/-- `nonce` is the one that is drawn. -/
def encrypt (c : Cipher) (nonce : Nonce) (plaintext : Bytes) : Except CryptoError String :=
  match c.encrypt nonce plaintext with
  | some ct => .ok (version ++ ":" ++ String.ofList (Base64.encode nonce.bytes) ++ ":" ++
      String.ofList (Base64.encode ct))
  | none => .error .encryptFailed

/-- `splitn(3, ':')`, when there are three. -/
def splitn3 (s : String) : Option (List Char × List Char × List Char) :=
  match splitOnce ':' s.toList with
  | none => none
  | some (first, rest) =>
    match splitOnce ':' rest with
    | none => none
    | some (second, third) => some (first, second, third)

def decodePart (part : List Char) : Except CryptoError Bytes :=
  match Base64.decode part with
  | some bytes => .ok bytes
  | none => .error .invalidBase64

def decrypt (c : Cipher) (envelope : String) : Except CryptoError Bytes :=
  match splitn3 envelope with
  | none => .error .badShape
  | some (v, nonceB64, ctB64) =>
    if v ≠ version.toList then .error .badVersion
    else do
      let nonce ← decodePart nonceB64
      let ct ← decodePart ctB64
      if h : nonce.length = 12 then
        match c.decrypt ⟨nonce, h⟩ ct with
        | some plaintext => .ok plaintext
        | none => .error .decryptFailed
      else .error (.invalidNonceLength nonce.length)

/-- `starts_with("v1:")`. -/
def isEnvelope (s : String) : Bool := "v1:".toList.isPrefixOf s.toList

def utf8 (s : String) : Bytes := s.toUTF8.data.toList

def fromUtf8 (bytes : Bytes) : Option String := String.fromUTF8? ⟨bytes.toArray⟩

def sealStr (cipher : Option Cipher) (nonce : Nonce) (raw : String) :
    Except CryptoError String :=
  match cipher with
  | some c => encrypt c nonce (utf8 raw)
  | none => .ok raw

def openStr (cipher : Option Cipher) (stored : String) : Option String :=
  if isEnvelope stored then
    match cipher with
    | none => none
    | some c =>
      match decrypt c stored with
      | .ok bytes => fromUtf8 bytes
      | .error _ => none
  else some stored

def encKey : String := "$enc"

def wrapEnvelope (envelope : String) : Value := object [(encKey, .str envelope)]

def envelopeStr (v : Value) : Option String :=
  ((v.get? encKey).bind Value.asStr?).filter isEnvelope

section

variable {c : Cipher} {cipher : Option Cipher} {nonce : Nonce} {plaintext : Bytes}
  {envelope raw stored : String}

theorem splitn3_envelope {first second third : List Char} (hfirst : ':' ∉ first)
    (hsecond : ':' ∉ second) :
    splitn3 (String.ofList (first ++ ':' :: (second ++ ':' :: third))) =
      some (first, second, third) := by
  unfold splitn3
  rw [String.toList_ofList, splitOnce_eq_some_iff.2 ⟨rfl, hfirst⟩]
  dsimp only
  rw [splitOnce_eq_some_iff.2 ⟨rfl, hsecond⟩]

theorem envelope_eq (nonce ct : List Char) :
    version ++ ":" ++ String.ofList nonce ++ ":" ++ String.ofList ct =
      String.ofList (version.toList ++ ':' :: (nonce ++ ':' :: ct)) := by
  apply String.toList_injective
  simp

theorem colon_not_mem (bytes : Bytes) : ':' ∉ Base64.encode bytes := fun h =>
  absurd (Base64.mem_encode h) (by rw [Base64.alphabet_eq]; decide)

theorem decrypt_encrypt (hc : c.Lawful) (h : encrypt c nonce plaintext = .ok envelope) :
    decrypt c envelope = .ok plaintext ∧ isEnvelope envelope = true := by
  unfold encrypt at h
  split at h
  · next ct hct =>
    rw [envelope_eq] at h
    obtain rfl := Except.ok.inj h
    constructor
    · have hnonce : decodePart (Base64.encode nonce.bytes) = .ok nonce.bytes := by
        rw [decodePart, Base64.decode_encode]
      have htext : decodePart (Base64.encode ct) = .ok ct := by
        rw [decodePart, Base64.decode_encode]
      unfold decrypt
      rw [splitn3_envelope (by decide) (colon_not_mem _)]
      dsimp only
      rw [if_neg (not_not.mpr rfl), hnonce, htext]
      show (if hlength : nonce.bytes.length = 12 then _ else _) = _
      rw [dif_pos nonce.length_eq]
      have hsame : (⟨nonce.bytes, nonce.length_eq⟩ : Nonce) = nonce := rfl
      rw [hsame, hc _ _ _ hct]
    · simp [isEnvelope, version]
  · cases h

theorem fromUtf8_utf8 (s : String) : fromUtf8 (utf8 s) = some s := by
  unfold fromUtf8 utf8 String.fromUTF8?
  exact dif_pos s.isValidUTF8

theorem openStr_sealStr_iff (hc : ∀ c, cipher = some c → c.Lawful)
    (h : sealStr cipher nonce raw = .ok stored) :
    openStr cipher stored = some raw ↔ (cipher = none → isEnvelope raw = false) := by
  cases cipher with
  | none =>
    obtain rfl := Except.ok.inj h
    unfold openStr
    cases isEnvelope raw with
    | true => simp
    | false => simp
  | some c =>
    obtain ⟨hdecrypt, henvelope⟩ := decrypt_encrypt (hc c rfl) h
    unfold openStr
    rw [if_pos henvelope]
    dsimp only
    rw [hdecrypt]
    simpa using fromUtf8_utf8 raw

theorem envelopeStr_wrapEnvelope (h : isEnvelope envelope = true) :
    envelopeStr (wrapEnvelope envelope) = some envelope := by
  simp [envelopeStr, wrapEnvelope, Value.asStr?, h]

end

namespace One

def drawn : Nonce := ⟨List.replicate 12 0, rfl⟩

/-- A text that begins like an envelope, a token and a config, under the key of 32 bytes 7. -/
def sealedTexts : List (Bytes × Bytes) :=
  [(utf8 "v1:s3cret",
      [23, 233, 158, 193, 200, 241, 121, 141, 149, 193, 172, 189, 138, 15, 160, 22, 48, 223,
        146, 129, 168, 197, 182, 64, 226]),
    (utf8 "\"s3cret\"",
      [67, 171, 151, 209, 137, 247, 127, 202, 209, 30, 107, 27, 31, 191, 169, 23, 197, 184, 46, 9,
        105, 130, 66, 243]),
    (utf8 "\x7b\"to\":\"ops@example.com\",\"type\":\"email\"\x7d",
      [26, 250, 208, 221, 217, 168, 41, 135, 145, 116, 207, 1, 188, 26, 38, 222, 209, 138, 135, 154,
        28, 177, 137, 119, 52, 97, 249, 184, 42, 203, 32, 68, 136, 164, 40, 61, 239, 208, 22, 13,
        39, 139, 173, 142, 91, 114, 104, 126, 253, 137, 153, 85, 61, 195, 131])]

def aes : Cipher where
  encrypt nonce plaintext := if nonce = drawn then sealedTexts.lookup plaintext else none
  decrypt nonce ct := if nonce = drawn then (sealedTexts.map Prod.swap).lookup ct else none

theorem aes_lawful : aes.Lawful := by
  intro nonce plaintext ct h
  have hinv : ∀ e ∈ sealedTexts, (sealedTexts.map Prod.swap).lookup e.2 = some e.1 := by decide
  simp only [aes] at h ⊢
  split at h
  · next hnonce =>
    obtain ⟨before, after, heq, -⟩ := List.lookup_eq_some_iff.mp h
    have hmem : (plaintext, ct) ∈ sealedTexts := by
      rw [heq]
      exact List.mem_append_right _ List.mem_cons_self
    rw [if_pos hnonce]
    exact hinv _ hmem
  · cases h

end One

end Uptimepage.Secrets
