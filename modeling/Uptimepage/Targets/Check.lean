import Mathlib.Data.List.Nodup
import Uptimepage.Domain.Incident
import Uptimepage.Domain.Text

/-!
# Check specifications

`domain/check.rs`, and what `targets/validate.rs` demands of a check: `canonicalizeCheck`,
`validateCheck` and the credentials that an edit carries over from the stored check.
-/

namespace Uptimepage.Targets

/-! ## Errors -/

inductive ErrorKind
  | badRequest
  | notFound
  | payloadTooLarge
  | unprocessable
  | forbidden
  | quotaExceeded
  | other
deriving DecidableEq

/-- An `AppError` as its caller sees it. -/
structure AppError where
  kind : ErrorKind
  code : String
  message : String
  field : Option String
deriving DecidableEq

def AppError.badRequestField (code message field : String) : AppError :=
  ⟨.badRequest, code, message, some field⟩

def AppError.unprocessable (code message : String) : AppError := ⟨.unprocessable, code, message, none⟩

def AppError.quotaExceeded (quota : String) (current limit : Int) (plan : String) : AppError :=
  ⟨.quotaExceeded, "QUOTA_EXCEEDED",
    s!"{quota} limit reached: {current} of {limit} used on the {plan} plan.", none⟩

def AppError.minCheckInterval (requested minimum : Int) (plan : String) : AppError :=
  ⟨.quotaExceeded, "MIN_CHECK_INTERVAL",
    s!"check interval {requested}s is below the {minimum}s minimum on the {plan} plan.", none⟩

/-- `if bad { return Err(error) }`. -/
def refuseIf (bad : Bool) (error : AppError) : Except AppError Unit :=
  if bad then .error error else .ok ()

@[simp] theorem refuseIf_eq_ok {bad : Bool} {error : AppError} :
    refuseIf bad error = .ok () ↔ bad = false := by
  cases bad <;> simp [refuseIf]

theorem seq_eq_ok {α : Type} {x : Except AppError Unit} {y : Except AppError α} {a : α} :
    (x >>= fun _ => y) = .ok a ↔ x = .ok () ∧ y = .ok a := by
  cases x with
  | error e => exact ⟨nofun, nofun⟩
  | ok u => exact ⟨fun h => ⟨rfl, h⟩, fun h => h.2⟩

theorem bind_eq_ok {α β : Type} {x : Except AppError α} {f : α → Except AppError β} {b : β} :
    (x >>= f) = .ok b ↔ ∃ a, x = .ok a ∧ f a = .ok b := by
  cases x with
  | error e => exact ⟨nofun, nofun⟩
  | ok a => exact ⟨fun h => ⟨a, rfl, h⟩, by rintro ⟨_, ⟨⟩, h⟩; exact h⟩

/-! ## Addresses -/

inductive IpAddr
  | v4 (a b c d : UInt8)
  | v6 (s0 s1 s2 s3 s4 s5 s6 s7 : UInt16)
deriving DecidableEq

def isBlockedV4 (a b c d : UInt8) : Bool :=
  -- unspecified, loopback, private, link-local, broadcast, multicast, documentation
  (a == 0 && b == 0 && c == 0 && d == 0) || a == 127 || a == 10 ||
    (a == 172 && 16 ≤ b && b ≤ 31) || (a == 192 && b == 168) || (a == 169 && b == 254) ||
    (a == 255 && b == 255 && c == 255 && d == 255) || (224 ≤ a && a ≤ 239) ||
    (a == 192 && b == 0 && c == 2) || (a == 198 && b == 51 && c == 100) ||
    (a == 203 && b == 0 && c == 113) ||
    -- CGNAT, protocol assignments, benchmarking, reserved
    (a == 100 && 64 ≤ b && b ≤ 127) || (a == 192 && b == 0 && c == 0) ||
    (a == 198 && (b == 18 || b == 19)) || 240 ≤ a

/-- The IPv4 address in two segments. -/
def isBlockedEmbedded (hi lo : UInt16) : Bool :=
  isBlockedV4 (hi >>> 8).toUInt8 hi.toUInt8 (lo >>> 8).toUInt8 lo.toUInt8

def isBlockedIp : IpAddr → Bool
  | .v4 a b c d => isBlockedV4 a b c d
  | .v6 s0 s1 s2 s3 s4 s5 s6 s7 =>
    let zero (l : List UInt16) := l.all (· == 0)
    -- unspecified, loopback, multicast, unique local, link-local
    if zero [s0, s1, s2, s3, s4, s5, s6] && (s7 == 0 || s7 == 1) then true
    else if s0 >>> 8 == 0xff || s0 &&& 0xfe00 == 0xfc00 || s0 &&& 0xffc0 == 0xfe80 then true
    else if zero [s0, s1, s2, s3, s4] && s5 == 0xffff then isBlockedEmbedded s6 s7
    else if zero [s0, s1, s2, s3, s4, s5] then true
    else if s0 == 0x2001 && s1 == 0xdb8 then true
    else if s0 == 0x0100 && zero [s1, s2, s3] then true
    else if s0 == 0x2002 then isBlockedEmbedded s1 s2
    else if s0 == 0x0064 && s1 == 0xff9b && zero [s2, s3, s4, s5] then isBlockedEmbedded s6 s7
    else false

/-- What the standard library, `idna` and the configuration answer. -/
structure CheckEnv where
  parseIp : String → Option IpAddr
  ipToString : IpAddr → String
  /-- The address of an `ip:port`. -/
  parseSocketAddr : String → Option IpAddr
  domainToAsciiStrict : String → Option String
  allowPrivateTargets : Bool

/-- `SsrfGuard::check`, as `check_ip` reports it. -/
def checkIp (env : CheckEnv) (ip : IpAddr) : Except AppError Unit :=
  refuseIf (!(env.allowPrivateTargets || !isBlockedIp ip)) <|
    .badRequestField "SSRF_BLOCKED" s!"target address {env.ipToString ip} is in a blocked range"
      "check.url"

inductive UrlHost
  | ip (ip : IpAddr)
  | domain (name : String)
deriving DecidableEq

/-- The parts of a parsed URL that are looked at. -/
structure Url where
  scheme : String
  host : Option UrlHost
  port : Option UInt16
deriving DecidableEq

/-! ## Specifications -/

inductive HttpMethod
  | get
  | head
  | post
  | put
  | patch
  | delete
  | options
deriving DecidableEq

/-- Timeouts and the like are in milliseconds. -/
structure HttpCheck where
  url : Url
  method : HttpMethod
  timeout : Nat
  maxRedirects : Nat
  expectedBodyContains : Option String
  verifyTls : Bool
  basicAuth : Option (String × String)
  bearerToken : Option String
deriving DecidableEq

structure TcpCheck where
  host : String
  port : Nat
  timeout : Nat
deriving DecidableEq

structure PingCheck where
  host : String
  timeout : Nat
deriving DecidableEq

structure HeartbeatCheck where
  period : Nat
  grace : Nat
  maxRuntime : Option Nat
deriving DecidableEq

structure TlsCertCheck where
  host : String
  port : Nat
  warnDays : Nat
  criticalDays : Nat
  timeout : Nat
deriving DecidableEq

structure DomainExpiryCheck where
  domain : String
  warnDays : Nat
  criticalDays : Nat
  timeout : Nat
deriving DecidableEq

structure DnsCheck where
  domain : String
  resolver : Option String
  timeout : Nat
deriving DecidableEq

inductive FlowStep
  | goto (url : Url)
  | click (selector : String)
  | fill (selector value : String)
  | waitFor (selector : String)
  | assertText (selector : Option String) (contains : String)
  | assertUrl (contains : String)
deriving DecidableEq

structure FlowCheck where
  startUrl : Url
  steps : List FlowStep
  timeout : Nat
  stepTimeout : Nat
deriving DecidableEq

inductive CheckSpec
  | http (http : HttpCheck)
  | tcp (tcp : TcpCheck)
  | ping (ping : PingCheck)
  | heartbeat (heartbeat : HeartbeatCheck)
  | tlsCert (cert : TlsCertCheck)
  | domainExpiry (domain : DomainExpiryCheck)
  | dns (dns : DnsCheck)
  | flow (flow : FlowCheck)
deriving DecidableEq

namespace CheckSpec

def kind : CheckSpec → String
  | http _ => "http"
  | tcp _ => "tcp"
  | ping _ => "ping"
  | heartbeat _ => "heartbeat"
  | dns _ => "dns"
  | tlsCert _ => "tls_cert"
  | domainExpiry _ => "domain_expiry"
  | flow _ => "flow"

def isFlow : CheckSpec → Bool
  | flow _ => true
  | _ => false

/-- A passive kind is never probed. -/
def isPassive : CheckSpec → Bool
  | heartbeat _ => true
  | _ => false

theorem isFlow_iff_kind (check : CheckSpec) : check.isFlow = true ↔ check.kind = "flow" := by
  cases check <;> simp [isFlow, kind]

theorem isPassive_iff_kind (check : CheckSpec) :
    check.isPassive = true ↔ check.kind = "heartbeat" := by
  cases check <;> simp [isPassive, kind]

end CheckSpec

def minIntervalSecsForKind : String → Nat
  | "domain_expiry" => 43200
  | "tls_cert" => 3600
  | "flow" => 300
  | "heartbeat" => 60
  | _ => 10

/-! ## Canonical hosts -/

/-- Strips the brackets of an IPv6 literal. -/
def unbracket (host : String) : String :=
  match host.toList with
  | '[' :: rest => if rest.getLast? = some ']' then String.ofList rest.dropLast else host
  | _ => host

def trimEndDots (s : String) : String :=
  String.ofList (s.toList.reverse.dropWhile (· == '.')).reverse

def canonHost (env : CheckEnv) (host field code : String) : Except AppError String :=
  let unbracketed := unbracket host
  match env.parseIp unbracketed with
  | some ip => .ok (env.ipToString ip)
  | none =>
    match env.domainToAsciiStrict (trimEndDots unbracketed) with
    | some canon => .ok canon
    | none => .error (.badRequestField code s!"host '{host}' is not a valid IDN domain" field)

def canonicalizeCheck (env : CheckEnv) : CheckSpec → Except AppError CheckSpec
  | .http c => .ok (.http c)
  | .heartbeat c => .ok (.heartbeat c)
  | .flow c => .ok (.flow c)
  | .tcp c => do return .tcp { c with host := ← canonHost env c.host "check.host" "INVALID_TCP_HOST" }
  | .ping c => do
    return .ping { c with host := ← canonHost env c.host "check.host" "INVALID_PING_HOST" }
  | .tlsCert c => do
    return .tlsCert { c with host := ← canonHost env c.host "check.host" "INVALID_TLS_CERT_PARAMS" }
  | .domainExpiry c => do
    return .domainExpiry
      { c with domain := ← canonHost env c.domain "check.domain" "INVALID_DOMAIN_PARAMS" }
  | .dns c => do
    return .dns { c with domain := ← canonHost env c.domain "check.domain" "INVALID_DNS_PARAMS" }

/-! ## Validation -/

/-- What a secret is replaced by on read. -/
def redacted : String := "***"

def allowedSchemes : List String := ["http", "https"]

def validateTimeout (timeout : Nat) : Except AppError Unit :=
  refuseIf (!(100 ≤ timeout && timeout ≤ 60000)) <|
    .badRequestField "INVALID_TIMEOUT" "timeout must be between 100 and 60000 ms" "check.timeout"

def validateCertDays (warnDays criticalDays : Nat) (code : String) : Except AppError Unit := do
  refuseIf (!(1 ≤ warnDays && warnDays ≤ 365)) <|
    .badRequestField code "warn_days and critical_days must be between 1 and 365" "check.warn_days"
  refuseIf (!(1 ≤ criticalDays && criticalDays ≤ 365)) <|
    .badRequestField code "warn_days and critical_days must be between 1 and 365"
      "check.critical_days"
  refuseIf (decide (warnDays ≤ criticalDays)) <|
    .badRequestField code "warn_days must be > critical_days" "check.warn_days"

/-- A host that is an address must be one the guard lets through. -/
def checkHost (env : CheckEnv) (host : String) : Except AppError Unit :=
  match env.parseIp (unbracket host) with
  | some ip => checkIp env ip
  | none => .ok ()

def checkUrlHost (env : CheckEnv) (url : Url) : Except AppError Unit :=
  match url.host with
  | some (.ip ip) => checkIp env ip
  | some (.domain name) =>
    refuseIf (name == "") (.badRequestField "INVALID_URL_FORMAT" "url missing host" "check.url")
  | none => .error (.badRequestField "INVALID_URL_FORMAT" "url missing host" "check.url")

def checkUrlScheme (url : Url) : Except AppError Unit :=
  refuseIf (!allowedSchemes.contains url.scheme) <|
    .badRequestField "INVALID_URL_SCHEME" s!"url scheme '{url.scheme}' not allowed" "check.url"

def checkUrlPort (url : Url) : Except AppError Unit :=
  refuseIf (url.port == some 0) <|
    .badRequestField "INVALID_URL_FORMAT" "url port must be > 0" "check.url"

def HttpCheck.maxRedirectsAllowed : Nat := 10

/-- Credentials over https whose certificate is not verified. -/
def HttpCheck.exposesCredentials (http : HttpCheck) : Bool :=
  !http.verifyTls && http.url.scheme == "https" &&
    (http.basicAuth.isSome || http.bearerToken.isSome)

def HttpCheck.validate (env : CheckEnv) (http : HttpCheck) : Except AppError Unit := do
  checkUrlScheme http.url
  validateTimeout http.timeout
  refuseIf (decide (HttpCheck.maxRedirectsAllowed < http.maxRedirects)) <|
    .badRequestField "INVALID_HTTP_PARAMS" s!"max_redirects must be at most {maxRedirectsAllowed}"
      "check.max_redirects"
  refuseIf (http.basicAuth.any fun auth => auth.1 == redacted || auth.2 == redacted) <|
    .badRequestField "REDACTION_SENTINEL"
      "basic_auth contains redaction sentinel — re-supply the real credential" "check.basic_auth"
  refuseIf (http.bearerToken == some redacted) <|
    .badRequestField "REDACTION_SENTINEL"
      "bearer_token contains redaction sentinel — re-supply the real credential"
      "check.bearer_token"
  refuseIf (http.method == .head && http.expectedBodyContains.isSome) <|
    .badRequestField "INVALID_HEAD_BODY_MATCH"
      "expected_body_contains cannot be combined with method=HEAD (HEAD responses carry no body)"
      "check.expected_body_contains"
  refuseIf http.exposesCredentials <|
    .badRequestField "INVALID_TLS_CRED_COMBO"
      ("verify_tls = false cannot be combined with basic_auth or bearer_token over https — " ++
        "credentials would be exposed to any host presenting a forged certificate")
      "check.verify_tls"
  checkUrlPort http.url
  checkUrlHost env http.url

def TcpCheck.validate (env : CheckEnv) (tcp : TcpCheck) : Except AppError Unit := do
  refuseIf (tcp.host == "") (.badRequestField "INVALID_TCP_HOST" "tcp host required" "check.host")
  refuseIf (tcp.port == 0) (.badRequestField "INVALID_TCP_PORT" "tcp port must be > 0" "check.port")
  validateTimeout tcp.timeout
  checkHost env tcp.host

def PingCheck.validate (env : CheckEnv) (ping : PingCheck) : Except AppError Unit := do
  refuseIf (ping.host == "") <|
    .badRequestField "INVALID_PING_HOST" "ping host required" "check.host"
  validateTimeout ping.timeout
  checkHost env ping.host

/-- Thirty days, in milliseconds. -/
def HeartbeatCheck.maxMs : Nat := 30 * 24 * 3600 * 1000

def HeartbeatCheck.validate (h : HeartbeatCheck) : Except AppError Unit := do
  refuseIf (!(60000 ≤ h.period && h.period ≤ maxMs)) <|
    .badRequestField "INVALID_HEARTBEAT_PARAMS"
      "heartbeat period must be between 1 minute and 30 days" "check.period"
  refuseIf (decide (maxMs < h.grace)) <|
    .badRequestField "INVALID_HEARTBEAT_PARAMS" "heartbeat grace must be at most 30 days"
      "check.grace"
  refuseIf (h.maxRuntime.any fun max => !(60000 ≤ max && max ≤ maxMs)) <|
    .badRequestField "INVALID_HEARTBEAT_PARAMS"
      "heartbeat max runtime must be between 1 minute and 30 days" "check.max_runtime"

def TlsCertCheck.validate (env : CheckEnv) (cert : TlsCertCheck) : Except AppError Unit := do
  refuseIf (cert.host == "") <|
    .badRequestField "INVALID_TLS_CERT_PARAMS" "tls_cert host required" "check.host"
  refuseIf (cert.port == 0) <|
    .badRequestField "INVALID_TLS_CERT_PARAMS" "tls_cert port must be > 0" "check.port"
  validateTimeout cert.timeout
  validateCertDays cert.warnDays cert.criticalDays "INVALID_TLS_CERT_PARAMS"
  checkHost env cert.host

/-- Registries that publish no expiry. -/
def noPublicExpiry : List String :=
  ["ae", "at", "be", "bg", "ch", "de", "eu", "gg", "hu", "jp", "lu", "lv", "nz", "ro"]

/-- What follows the last dot, and what precedes it if there is one. -/
def rsplitDot (s : String) : Option String × String :=
  let tail := (s.toList.reverse.takeWhile (· != '.')).reverse
  let rest := (s.toList.reverse.dropWhile (· != '.')).reverse
  (if rest.isEmpty then none else some (String.ofList rest.dropLast), String.ofList tail)

def DomainExpiryCheck.validate (d : DomainExpiryCheck) : Except AppError Unit := do
  refuseIf (d.domain == "") <|
    .badRequestField "INVALID_DOMAIN_PARAMS" "domain_expiry domain required" "check.domain"
  let (label, tld) := rsplitDot d.domain
  refuseIf (!(label.any (· != "") && tld != "")) <|
    .badRequestField "INVALID_DOMAIN_PARAMS"
      "domain_expiry domain must be of the form 'name.tld'" "check.domain"
  refuseIf (noPublicExpiry.contains (toAsciiLowercase tld)) <|
    .badRequestField "INVALID_DOMAIN_PARAMS"
      (s!"the .{toAsciiLowercase tld} registry does not publish domain expiry dates, so this " ++
        "domain cannot be monitored for expiry") "check.domain"
  validateTimeout d.timeout
  validateCertDays d.warnDays d.criticalDays "INVALID_DOMAIN_PARAMS"

/-- `ip:port`, or a bare address. -/
def parseResolverAddr (env : CheckEnv) (s : String) : Option IpAddr :=
  (env.parseSocketAddr s).or (env.parseIp s)

def DnsCheck.validate (env : CheckEnv) (d : DnsCheck) : Except AppError Unit := do
  refuseIf (d.domain == "") <|
    .badRequestField "INVALID_DNS_PARAMS" "dns domain required" "check.domain"
  validateTimeout d.timeout
  match d.resolver with
  | none => .ok ()
  | some resolver =>
    if resolver = "" then .ok ()
    else
      match parseResolverAddr env resolver with
      | none =>
        .error (.badRequestField "INVALID_DNS_PARAMS"
          s!"dns resolver '{resolver}' must be an IP or ip:port" "check.resolver")
      | some ip => checkIp env ip

def FlowCheck.maxSteps : Nat := 30

def validateFlowUrl (env : CheckEnv) (url : Url) : Except AppError Unit := do
  checkUrlScheme url
  checkUrlPort url
  checkUrlHost env url

/-- Names the row and field. -/
def requireNonemptyStep (value : String) (n : Nat) (what : String) : Except AppError Unit :=
  refuseIf (trim value == "") <|
    .badRequestField "INVALID_FLOW_PARAMS" s!"step {n}: {what} must not be empty" "check.steps"

def FlowStep.asserts : FlowStep → Bool
  | .assertText _ _ | .assertUrl _ => true
  | _ => false

/-- The `n`-th step, counted from one. -/
def FlowStep.validate (env : CheckEnv) (n : Nat) : FlowStep → Except AppError Unit
  | .goto url => validateFlowUrl env url
  | .click selector | .waitFor selector => requireNonemptyStep selector n "selector"
  | .fill selector value => do
    requireNonemptyStep selector n "selector"
    refuseIf (value == redacted) <|
      .badRequestField "REDACTION_SENTINEL"
        s!"step {n}: fill value contains redaction sentinel — re-supply the real value"
        "check.steps"
  | .assertText selector contains => do
    match selector with
    | some sel => requireNonemptyStep sel n "selector"
    | none => .ok ()
    requireNonemptyStep contains n "expected text"
  | .assertUrl contains => requireNonemptyStep contains n "expected URL fragment"

def validateSteps (env : CheckEnv) : Nat → List FlowStep → Except AppError Unit
  | _, [] => .ok ()
  | n, step :: rest => do
    step.validate env n
    validateSteps env (n + 1) rest

def FlowCheck.validate (env : CheckEnv) (flow : FlowCheck) : Except AppError Unit := do
  refuseIf (!(1000 ≤ flow.timeout && flow.timeout ≤ 120000)) <|
    .badRequestField "INVALID_FLOW_PARAMS" "flow timeout must be between 1000 and 120000 ms"
      "check.timeout"
  refuseIf (!(100 ≤ flow.stepTimeout && flow.stepTimeout ≤ 60000)) <|
    .badRequestField "INVALID_FLOW_PARAMS" "flow step_timeout must be between 100 and 60000 ms"
      "check.step_timeout"
  refuseIf flow.steps.isEmpty <|
    .badRequestField "INVALID_FLOW_PARAMS" "flow requires at least one step" "check.steps"
  refuseIf (decide (maxSteps < flow.steps.length)) <|
    .badRequestField "INVALID_FLOW_PARAMS" s!"flow allows at most {maxSteps} steps" "check.steps"
  refuseIf (!flow.steps.any FlowStep.asserts) <|
    .badRequestField "INVALID_FLOW_PARAMS"
      "flow requires at least one assert_text or assert_url step" "check.steps"
  validateFlowUrl env flow.startUrl
  validateSteps env 1 flow.steps

def validateCheck (env : CheckEnv) : CheckSpec → Except AppError Unit
  | .http c => c.validate env
  | .tcp c => c.validate env
  | .ping c => c.validate env
  | .heartbeat c => c.validate
  | .tlsCert c => c.validate env
  | .domainExpiry c => c.validate
  | .dns c => c.validate env
  | .flow c => c.validate env

/-! ## What a valid check never holds -/

/-- The sentinel stands for a credential or a fill value. -/
def CheckSpec.holdsSentinel : CheckSpec → Bool
  | .http c => (c.basicAuth.any fun auth => auth.1 == redacted || auth.2 == redacted) ||
      c.bearerToken == some redacted
  | .flow c => c.steps.any fun step =>
      match step with
      | .fill _ value => value == redacted
      | _ => false
  | _ => false

theorem validateSteps_ok {env : CheckEnv} {n : Nat} {steps : List FlowStep}
    (h : validateSteps env n steps = .ok ()) : ∀ step ∈ steps, ∃ k, step.validate env k = .ok () := by
  induction steps generalizing n with
  | nil => nofun
  | cons step rest ih =>
    obtain ⟨hstep, hrest⟩ := seq_eq_ok.1 h
    intro s hs
    rcases List.mem_cons.mp hs with rfl | hs
    · exact ⟨n, hstep⟩
    · exact ih hrest s hs

theorem not_holdsSentinel_of_valid {env : CheckEnv} {check : CheckSpec}
    (h : validateCheck env check = .ok ()) : check.holdsSentinel = false := by
  cases check with
  | http c =>
    simp only [validateCheck, HttpCheck.validate, seq_eq_ok, refuseIf_eq_ok] at h
    simp [CheckSpec.holdsSentinel, h.2.2.2.1, h.2.2.2.2.1]
  | flow c =>
    simp only [validateCheck, FlowCheck.validate, seq_eq_ok] at h
    simp only [CheckSpec.holdsSentinel, List.any_eq_false]
    intro step hstep
    obtain ⟨n, hvalid⟩ := validateSteps_ok h.2.2.2.2.2.2 step hstep
    cases step with
    | fill selector value =>
      simp only [FlowStep.validate, seq_eq_ok, refuseIf_eq_ok] at hvalid
      simp [hvalid.2]
    | _ => simp
  | _ => rfl

theorem not_exposesCredentials_of_valid {env : CheckEnv} {c : HttpCheck}
    (h : validateCheck env (.http c) = .ok ()) : c.exposesCredentials = false := by
  simp only [validateCheck, HttpCheck.validate, seq_eq_ok, refuseIf_eq_ok] at h
  exact h.2.2.2.2.2.2.1

/-! ## What an edit carries over -/

/-- An empty credential means "clear"; says which were cleared. -/
def takeClearedCredentials (http : HttpCheck) : HttpCheck × Bool × Bool :=
  let clearedBasic := http.basicAuth == some ("", "")
  let clearedBearer := http.bearerToken == some ""
  ({ http with
      basicAuth := if clearedBasic then none else http.basicAuth
      bearerToken := if clearedBearer then none else http.bearerToken },
    clearedBasic, clearedBearer)

/-- A credential carries over when it is left out and not cleared. -/
def carryFlags (http : HttpCheck) (clearedBasic clearedBearer : Bool) : Bool × Bool :=
  (http.basicAuth.isNone && !clearedBasic, http.bearerToken.isNone && !clearedBearer)

def carryCredentials (http stored : HttpCheck) (carryBasic carryBearer : Bool) : HttpCheck :=
  { http with
    basicAuth := if carryBasic then stored.basicAuth else http.basicAuth
    bearerToken := if carryBearer then stored.bearerToken else http.bearerToken }

/-- The value the stored flow fills at this selector. -/
def FlowCheck.fillAt (flow : FlowCheck) (selector : String) : Option String :=
  flow.steps.findSome? fun step =>
    match step with
    | .fill sel value => if sel = selector then some value else none
    | _ => none

/-- A masked fill value is the stored one, matched by selector. -/
def carryFlowSecrets (new stored : FlowCheck) : FlowCheck :=
  { new with steps := new.steps.map fun step =>
      match step with
      | .fill selector value =>
        if value = redacted then .fill selector ((stored.fillAt selector).getD value)
        else .fill selector value
      | step => step }

end Uptimepage.Targets
