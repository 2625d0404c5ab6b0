import Uptimepage.Secrets.Crypto
import Uptimepage.Variables.Usage

/-!
# The credentials of a stored check

A check as it is serialised (`CheckSpec.toValue`) and `storage/postgres_secrets.rs`, which
encrypts, decrypts and masks the slots named by `CREDENTIAL_PATHS`.
-/

namespace Uptimepage.Secrets

open Json

/-! ## Checks -/

structure TlsCertCheck extends Targets.TlsCertCheck where
  serverName : Option String
deriving DecidableEq

inductive DnsRecordType
  | a
  | aaaa
  | cname
  | mx
  | ns
  | txt
  | soa
  | ptr
  | caa
  | srv
deriving DecidableEq

def DnsRecordType.name : DnsRecordType → String
  | a => "A"
  | aaaa => "AAAA"
  | cname => "CNAME"
  | mx => "MX"
  | ns => "NS"
  | txt => "TXT"
  | soa => "SOA"
  | ptr => "PTR"
  | caa => "CAA"
  | srv => "SRV"

structure DnsCheck extends Targets.DnsCheck where
  recordType : DnsRecordType
  expectedContains : Option String
deriving DecidableEq

inductive CheckSpec
  | http (check : Variables.HttpCheck)
  | tcp (check : Targets.TcpCheck)
  | ping (check : Targets.PingCheck)
  | heartbeat (check : Targets.HeartbeatCheck)
  | tlsCert (check : TlsCertCheck)
  | domainExpiry (check : Targets.DomainExpiryCheck)
  | dns (check : DnsCheck)
  | flow (check : Variables.FlowCheck)
deriving DecidableEq

def optStr : Option String → Value
  | some s => .str s
  | none => .null

def statusValue : Variables.ExpectedStatus → Value
  | .exact code => object [("kind", .str "exact"), ("value", .num code)]
  | .range min max =>
    object [("kind", .str "range"), ("value", object [("min", .num min), ("max", .num max)])]
  | .oneOf codes => object [("kind", .str "one_of"), ("value", .arr (codes.map .num))]

def basicAuthValue : Option (String × String) → Value
  | some (user, password) => .arr [.str user, .str password]
  | none => .null

def stepValue : Variables.FlowStep → Value
  | .goto url => object [("op", .str "goto"), ("url", .str url)]
  | .click selector => object [("op", .str "click"), ("selector", .str selector)]
  | .fill selector value =>
    object [("op", .str "fill"), ("selector", .str selector), ("value", .str value)]
  | .waitFor selector => object [("op", .str "wait_for"), ("selector", .str selector)]
  | .assertText selector contains =>
    object [("op", .str "assert_text"), ("selector", optStr selector), ("contains", .str contains)]
  | .assertUrl contains => object [("op", .str "assert_url"), ("contains", .str contains)]

def CheckSpec.fields : CheckSpec → Fields
  | .http c =>
    [("type", .str "http"), ("url", .str c.url), ("method", .str (Variables.methodName c.method)),
      ("timeout", .num c.timeout), ("follow_redirects", .bool c.followRedirects),
      ("max_redirects", .num c.maxRedirects), ("expected_status", statusValue c.expectedStatus),
      ("expected_body_contains", optStr c.expectedBodyContains),
      ("headers", object (c.headers.map fun h => (h.1, .str h.2))), ("body", optStr c.body),
      ("verify_tls", .bool c.verifyTls), ("basic_auth", basicAuthValue c.basicAuth),
      ("bearer_token", optStr c.bearerToken)]
  | .tcp c =>
    [("type", .str "tcp"), ("host", .str c.host), ("port", .num c.port),
      ("timeout", .num c.timeout)]
  | .ping c => [("type", .str "ping"), ("host", .str c.host), ("timeout", .num c.timeout)]
  | .heartbeat c =>
    [("type", .str "heartbeat"), ("period", .num c.period), ("grace", .num c.grace)] ++
      (c.maxRuntime.map fun max => ("max_runtime", Value.num max)).toList
  | .tlsCert c =>
    [("type", .str "tls_cert"), ("host", .str c.host), ("port", .num c.port),
      ("server_name", optStr c.serverName), ("warn_days", .num c.warnDays),
      ("critical_days", .num c.criticalDays), ("timeout", .num c.timeout)]
  | .domainExpiry c =>
    [("type", .str "domain_expiry"), ("domain", .str c.domain), ("warn_days", .num c.warnDays),
      ("critical_days", .num c.criticalDays), ("timeout", .num c.timeout)]
  | .dns c =>
    [("type", .str "dns"), ("domain", .str c.domain), ("record_type", .str c.recordType.name),
      ("resolver", optStr c.resolver), ("expected_contains", optStr c.expectedContains),
      ("timeout", .num c.timeout)]
  | .flow c =>
    [("type", .str "flow"), ("start_url", .str c.startUrl), ("steps", .arr (c.steps.map stepValue)),
      ("timeout", .num c.timeout), ("step_timeout", .num c.stepTimeout),
      ("verify_tls", .bool c.verifyTls)]

def CheckSpec.toValue (check : CheckSpec) : Value := object check.fields

/-! ## Slots -/

/-- `serde_json::to_vec` and `from_slice`. -/
structure JsonText where
  toVec : Value → Bytes
  fromSlice : Bytes → Option Value

/-- A value is read back as it was written. -/
def JsonText.ReadsBack (json : JsonText) (v : Value) : Prop :=
  json.fromSlice (json.toVec v) = some v

inductive SlotError
  | encryption (e : CryptoError)
  | decryption (e : CryptoError)
  /-- "decoding decrypted credential payload" -/
  | decoding
deriving DecidableEq

/-- Each is a pointer to a field of the root. -/
def credentialPaths : List String := ["basic_auth", "bearer_token"]

def isAlreadyEnvelope (v : Value) : Bool := ((v.get? encKey).bind Value.asStr?).any isEnvelope

def extractEnvelope (v : Value) : Option String := (v.get? encKey).bind Value.asStr?

section

variable (json : JsonText) (c : Cipher)

/-- `nonce path` is the one that is drawn for a slot. -/
def encryptSlot (nonce : String → Nonce) (value : Value) (path : String) :
    Except SlotError Value :=
  match value.get? path with
  | none => .ok value
  | some slot =>
    if isAlreadyEnvelope slot || slot.isNull then .ok value
    else
      match encrypt c (nonce path) (json.toVec slot) with
      | .ok envelope => .ok (value.assign path (wrapEnvelope envelope))
      | .error e => .error (.encryption e)

def encryptInPlace (nonce : String → Nonce) (value : Value) : Except SlotError Value :=
  credentialPaths.foldlM (encryptSlot json c nonce) value

def decryptSlot (value : Value) (path : String) : Except SlotError Value :=
  match value.get? path with
  | none => .ok value
  | some slot =>
    match extractEnvelope slot with
    | none => .ok value
    | some envelope =>
      match decrypt c envelope with
      | .error e => .error (.decryption e)
      | .ok plaintext =>
        match json.fromSlice plaintext with
        | none => .error .decoding
        | some slot => .ok (value.assign path slot)

def decryptInPlace (value : Value) : Except SlotError Value :=
  credentialPaths.foldlM (decryptSlot json c) value

end

/-- What a slot holds before it is encrypted. -/
structure PlainSlot (json : JsonText) (slot : Value) : Prop where
  readsBack : json.ReadsBack slot
  unsealed : slot.get? encKey = none

section

variable {json : JsonText} {c : Cipher} {nonce : String → Nonce} {v v' value slot : Value}
  {path name : String} {paths : List String}

theorem encryptSlot_cases (hc : c.Lawful)
    (hplain : ∀ slot, v.get? path = some slot → PlainSlot json slot)
    (h : encryptSlot json c nonce v path = .ok v') :
    (v.get? path = none ∧ v' = v) ∨
      ∃ old new, v.get? path = some old ∧ v' = v.assign path new ∧
        (isAlreadyEnvelope new || new.isNull) = true ∧
        ∀ w, w.get? path = some new → decryptSlot json c w path = .ok (w.assign path old) := by
  unfold encryptSlot at h
  cases hslot : v.get? path with
  | none =>
    rw [hslot] at h
    exact Or.inl ⟨rfl, (Except.ok.inj h).symm⟩
  | some old =>
    rw [hslot] at h
    dsimp only at h
    refine Or.inr ?_
    have hextract : extractEnvelope old = none := by
      unfold extractEnvelope
      rw [(hplain old hslot).unsealed]
      rfl
    split at h
    · next hset =>
      refine ⟨old, old, rfl, ?_, hset, fun w hw => ?_⟩
      · rw [assign_self hslot, Except.ok.inj h]
      · unfold decryptSlot
        rw [hw, assign_self hw]
        dsimp only
        rw [hextract]
    · split at h
      · next envelope hencrypt =>
        obtain ⟨hdecrypt, henvelope⟩ := decrypt_encrypt hc hencrypt
        refine ⟨old, wrapEnvelope envelope, rfl, (Except.ok.inj h).symm, ?_, fun w hw => ?_⟩
        · simp [isAlreadyEnvelope, wrapEnvelope, Value.asStr?, henvelope]
        · have hwrapped : extractEnvelope (wrapEnvelope envelope) = some envelope := by
            simp [extractEnvelope, wrapEnvelope, Value.asStr?]
          unfold decryptSlot
          rw [hw]
          dsimp only
          rw [hwrapped]
          dsimp only
          rw [hdecrypt]
          dsimp only
          rw [(hplain old hslot).readsBack]
      · cases h

theorem encryptSlot_assign (hne : path ≠ name) (h : encryptSlot json c nonce v path = .ok v') :
    encryptSlot json c nonce (v.assign name value) path = .ok (v'.assign name value) := by
  unfold encryptSlot at h ⊢
  rw [get?_assign, if_neg hne]
  cases hslot : v.get? path with
  | none =>
    rw [hslot] at h
    rw [Except.ok.inj h]
  | some slot =>
    rw [hslot] at h
    dsimp only at h ⊢
    split at h
    · next hset => rw [if_pos hset, Except.ok.inj h]
    · next hset =>
      rw [if_neg hset]
      split at h
      · rw [← Except.ok.inj h, assign_comm hne.symm]
      · cases h

theorem encryptSlots_assign (value : Value) (hmem : name ∉ paths)
    (h : paths.foldlM (encryptSlot json c nonce) v = .ok v') :
    paths.foldlM (encryptSlot json c nonce) (v.assign name value) = .ok (v'.assign name value) := by
  induction paths generalizing v with
  | nil =>
    rw [List.foldlM_nil] at h ⊢
    cases h
    rfl
  | cons path paths ih =>
    rw [List.mem_cons, not_or] at hmem
    rw [List.foldlM_cons] at h ⊢
    cases hslot : encryptSlot json c nonce v path with
    | error e =>
      rw [hslot] at h
      cases h
    | ok w =>
      rw [hslot] at h
      rw [encryptSlot_assign (Ne.symm hmem.1) hslot]
      exact ih hmem.2 h

theorem decryptSlots_encryptSlots (hc : c.Lawful) (hnodup : paths.Nodup)
    (hplain : ∀ path ∈ paths, ∀ slot, v.get? path = some slot → PlainSlot json slot)
    (h : paths.foldlM (encryptSlot json c nonce) v = .ok v') :
    paths.foldlM (decryptSlot json c) v' = .ok v ∧
      (∀ nonce', paths.foldlM (encryptSlot json c nonce') v' = .ok v') ∧
      v'.names = v.names ∧ ∀ name, name ∉ paths → v'.get? name = v.get? name := by
  induction paths generalizing v v' with
  | nil =>
    rw [List.foldlM_nil] at h
    cases h
    exact ⟨rfl, fun _ => rfl, rfl, fun _ _ => rfl⟩
  | cons path paths ih =>
    obtain ⟨hout, hnodup⟩ := List.nodup_cons.mp hnodup
    obtain ⟨hhead, hplain⟩ := List.forall_mem_cons.mp hplain
    rw [List.foldlM_cons] at h
    cases hslot : encryptSlot json c nonce v path with
    | error e =>
      rw [hslot] at h
      cases h
    | ok w =>
      rw [hslot] at h
      have hrest : paths.foldlM (encryptSlot json c nonce) w = .ok v' := h
      rcases encryptSlot_cases hc hhead hslot with ⟨hnone, rfl⟩ | ⟨old, new, hold, rfl, hset, hopen⟩
      · obtain ⟨hdec, henc, hnames, hframe⟩ := ih hnodup hplain hrest
        have hnone' : v'.get? path = none := (hframe path hout).trans hnone
        refine ⟨?_, fun nonce' => ?_, hnames, fun name hname => ?_⟩
        · rw [List.foldlM_cons]
          have hskip : decryptSlot json c v' path = .ok v' := by
            unfold decryptSlot
            rw [hnone']
          rw [hskip]
          exact hdec
        · rw [List.foldlM_cons]
          have hskip : encryptSlot json c nonce' v' path = .ok v' := by
            unfold encryptSlot
            rw [hnone']
          rw [hskip]
          exact henc nonce'
        · exact hframe name fun hmem => hname (List.mem_cons_of_mem _ hmem)
      · have hplain' : ∀ p ∈ paths, ∀ slot, (v.assign path new).get? p = some slot →
            PlainSlot json slot := by
          intro p hp slot hget
          have hne : p ≠ path := fun heq => hout (heq ▸ hp)
          rw [get?_assign, if_neg hne] at hget
          exact hplain p hp slot hget
        obtain ⟨-, henc, hnames, hframe⟩ := ih hnodup hplain' hrest
        have hnew : v'.get? path = some new := by
          rw [hframe path hout, get?_assign, if_pos rfl, hold]
          rfl
        refine ⟨?_, fun nonce' => ?_, ?_, fun name hname => ?_⟩
        · -- with the old value written back, the other slots are those of `v`
          have hback : paths.foldlM (encryptSlot json c nonce) v = .ok (v'.assign path old) := by
            have := encryptSlots_assign old hout hrest
            rwa [assign_assign hold] at this
          rw [List.foldlM_cons, hopen v' hnew]
          exact (ih hnodup hplain hback).1
        · rw [List.foldlM_cons]
          have hskip : encryptSlot json c nonce' v' path = .ok v' := by
            unfold encryptSlot
            rw [hnew]
            exact if_pos hset
          rw [hskip]
          exact henc nonce'
        · rw [hnames, names_assign]
        · rw [List.mem_cons, not_or] at hname
          rw [hframe name hname.2, get?_assign, if_neg hname.1]

/-! ## The slots of a check -/

theorem get?_toValue (check : CheckSpec) (hpath : path ∈ credentialPaths) :
    check.toValue.get? path =
      match check with
      | .http c => some (if path = "basic_auth" then basicAuthValue c.basicAuth
          else optStr c.bearerToken)
      | _ => none := by
  rcases List.mem_pair.mp hpath with rfl | rfl
  · cases check with
    | heartbeat c => cases hmax : c.maxRuntime <;> simp [CheckSpec.toValue, CheckSpec.fields, hmax]
    | _ => simp [CheckSpec.toValue, CheckSpec.fields, List.lookup_cons]
  · cases check with
    | heartbeat c => cases hmax : c.maxRuntime <;> simp [CheckSpec.toValue, CheckSpec.fields, hmax]
    | _ => simp [CheckSpec.toValue, CheckSpec.fields, List.lookup_cons]

theorem plain_toValue (check : CheckSpec)
    (hread : ∀ path ∈ credentialPaths, ∀ slot, check.toValue.get? path = some slot →
      json.ReadsBack slot) :
    ∀ path ∈ credentialPaths, ∀ slot, check.toValue.get? path = some slot →
      PlainSlot json slot := by
  intro path hpath slot hslot
  refine ⟨hread path hpath slot hslot, ?_⟩
  rw [get?_toValue check hpath] at hslot
  cases check with
  | http c =>
    obtain rfl := Option.some.inj hslot
    split
    · cases c.basicAuth <;> rfl
    · cases c.bearerToken <;> rfl
  | _ => cases hslot

theorem decryptInPlace_encryptInPlace (hc : c.Lawful) (check : CheckSpec)
    (hread : ∀ path ∈ credentialPaths, ∀ slot, check.toValue.get? path = some slot →
      json.ReadsBack slot)
    (h : encryptInPlace json c nonce check.toValue = .ok v) :
    decryptInPlace json c v = .ok check.toValue ∧
      (∀ nonce', encryptInPlace json c nonce' v = .ok v) ∧
      v.names = check.toValue.names ∧
      ∀ name, name ∉ credentialPaths → v.get? name = check.toValue.get? name :=
  decryptSlots_encryptSlots hc (by decide) (plain_toValue check hread) h

end

namespace One

/-- Strings and pairs of strings that need no escapes are written as JSON writes them. -/
def json : JsonText where
  toVec
    | .null => utf8 "null"
    | .str s => utf8 ("\"" ++ s ++ "\"")
    | .obj [(a, .str x), (b, .str y)] =>
      utf8 ("\x7b\"" ++ a ++ "\":\"" ++ x ++ "\",\"" ++ b ++ "\":\"" ++ y ++ "\"\x7d")
    | _ => []
  fromSlice bytes :=
    if bytes = utf8 "null" then some .null
    else if bytes = utf8 "\"s3cret\"" then some (.str "s3cret")
    else if bytes = utf8 "\x7b\"to\":\"ops@example.com\",\"type\":\"email\"\x7d" then
      some (.obj [("to", .str "ops@example.com"), ("type", .str "email")])
    else none

/-- A check that sends a token. -/
def health (token : String) : CheckSpec :=
  .http {
    url := "https://app.example/health"
    method := .get
    timeout := 10000
    followRedirects := true
    maxRedirects := 5
    expectedStatus := .exact 200
    expectedBodyContains := none
    headers := []
    body := none
    verifyTls := true
    basicAuth := none
    bearerToken := some token }

end One

end Uptimepage.Secrets
