import Uptimepage.Secrets.Crypto
import Uptimepage.Variables.Usage

/-!
# HTTP checks and their redirects

`worker/http_check.rs`: `do_http_check` sends a request, follows redirects up to a limit, and
builds each request anew with `build_request`, which drops headers off the check's own origin by
their names.
-/

namespace Uptimepage.HttpChecks

open Variables

/-! ## Libraries -/

structure Uri where
  text : String
  scheme : Option String
  host : Option String
  port : Option Nat
  pathAndQuery : Option String
deriving DecidableEq

/-- `Url::origin` of a URL with a host. -/
structure Origin where
  scheme : String
  host : String
  port : Nat
deriving DecidableEq

def eqIgnoreAsciiCase (a b : String) : Bool := toAsciiLowercase a = toAsciiLowercase b

/-- What is used of `url`, `http` and the node's clients.  A URL is its text. -/
structure Net where
  origin : String → Origin
  join : String → String → Option String
  scheme : String → String
  parseUri : String → Option Uri
  uriOfPath : String → Option String
  /-- `HeaderName::try_from`, which folds the case. -/
  headerName : String → Option String
  headerName_known : ∀ k name, name ∈ ["user-agent", "accept"] →
    eqIgnoreAsciiCase k name = true → headerName k = some name
  /-- What `HeaderValue::try_from` takes in a value. -/
  fieldChar : Char → Bool
  fieldChar_visible : ∀ c, 32 ≤ c.toNat → c.toNat < 127 → fieldChar c = true
  userAgent : String

def Net.isHeaderValue (net : Net) (v : String) : Bool := v.toList.all net.fieldChar

/-- `BASE64_STANDARD`. -/
def base64Standard (bytes : Secrets.Bytes) : String :=
  let digits := (Base64.encode bytes).map fun c =>
    if c = '-' then '+' else if c = '_' then '/' else c
  String.ofList (digits ++ List.replicate ((4 - digits.length % 4) % 4) '=')

/-! ## Requests -/

/-- Header names whose values are credentials. -/
def probeRedactHeaders : List String :=
  ["set-cookie", "authorization", "cookie", "proxy-authorization", "x-auth-token", "x-api-key",
    "api-key", "x-csrf-token", "x-amz-security-token"]

structure Request where
  method : Targets.HttpMethod
  target : String
  headers : List (String × String)
  body : String
deriving DecidableEq

def hostHeaderValue (uri : Uri) : Option String :=
  uri.host.map fun host =>
    let defaultPort := if uri.scheme = some "http" then 80 else 443
    match uri.port with
    | some port => if port ≠ defaultPort then host ++ ":" ++ toString port else host
    | none => host

/-- The beginning of `build_request`. -/
def requestTarget (net : Net) (uri : Uri) (alpnH2 : Bool) : Option (String × Option String) :=
  if alpnH2 then some (uri.text, none)
  else (net.uriOfPath (uri.pathAndQuery.getD "/")).map fun path => (path, hostHeaderValue uri)

section

variable (net : Net) (check : Variables.HttpCheck)

def overridesHeader (name : String) : Bool :=
  check.headers.any fun h => eqIgnoreAsciiCase h.1 name && net.isHeaderValue h.2

/-- A default that a row replaces. -/
def defaultHeader (name value : String) : List (String × String) :=
  if overridesHeader net check name then [] else [(name, value)]

def fieldAuthz (includeAuth : Bool) : Option String :=
  if includeAuth then
    ((check.bearerToken.map fun t => "Bearer " ++ t).filter net.isHeaderValue).or
      ((check.basicAuth.map fun auth =>
        "Basic " ++ base64Standard (Secrets.utf8 (auth.1 ++ ":" ++ auth.2))).filter
          net.isHeaderValue)
  else none

/-- A row that is passed over for its name. -/
def skipped (hasAuthz includeAuth bodyless : Bool) (k : String) : Bool :=
  (hasAuthz && eqIgnoreAsciiCase k "authorization") ||
    (!includeAuth && probeRedactHeaders.any (eqIgnoreAsciiCase k)) ||
    eqIgnoreAsciiCase k "accept-encoding" ||
    (bodyless && ["content-type", "content-length", "transfer-encoding"].any (eqIgnoreAsciiCase k))

def headerRow (hasAuthz includeAuth bodyless : Bool) (h : String × String) :
    Option (String × String) :=
  if skipped hasAuthz includeAuth bodyless h.1 then none
  else
    match net.headerName h.1 with
    | some name => if net.isHeaderValue h.2 then some (name, h.2) else none
    | none => none

/-- The rest of `build_request`; the rows are in the order the map keeps them in. -/
def requestFor (method : Targets.HttpMethod) (target : String × Option String)
    (body : Option String) (includeAuth : Bool) : Request where
  method := method
  target := target.1
  headers :=
    defaultHeader net check "user-agent" net.userAgent ++ defaultHeader net check "accept" "*/*" ++
      [("accept-encoding", "gzip, br")] ++
      (if check.headers.any fun h => eqIgnoreAsciiCase h.1 "host" then []
        else target.2.toList.map fun host => ("host", host)) ++
      check.headers.filterMap
        (headerRow net (fieldAuthz net check includeAuth).isSome includeAuth body.isNone) ++
      (fieldAuthz net check includeAuth).toList.map fun val => ("authorization", val)
  body := body.getD ""

end

/-! ## Redirects -/

def maxRedirectHops : Nat := 10

def effectiveMaxRedirects (check : Variables.HttpCheck) : Nat :=
  if !check.followRedirects then 0
  else if check.maxRedirects = 0 then maxRedirectHops
  else min check.maxRedirects maxRedirectHops

def isRedirect (code : Nat) : Bool := [301, 302, 303, 307, 308].contains code

/-- How the network answers a hop: why there is no connection or whether it is HTTP/2, why the
request was not sent, why there is no response or its status and `Location`. -/
structure Hop where
  connection : Except String Bool
  handshake : Except String Unit
  response : Except String (Nat × Option String)

/-- How a check ends: early, with an error and a status, or with a response to score. -/
inductive Ending
  | early (err : String) (code : Option Nat)
  | finalize (status : Nat)
deriving DecidableEq

structure Sent where
  url : String
  request : Request
deriving DecidableEq

def redirect (net : Net) (current : String) (status : Nat) (location : Option String) :
    Except Ending String :=
  match location.bind (net.join current) with
  | none => .error (.early "invalid redirect location" (some status))
  | some next =>
    if net.scheme next = "http" ∨ net.scheme next = "https" then .ok next
    else .error (.early "unsupported redirect scheme" (some status))

/-- A hop up to its response, with the target of its request. -/
def reach (net : Net) (h : Hop) (current : String) :
    Except String ((String × Option String) × Except String (Nat × Option String)) :=
  match net.parseUri current with
  | none => .error "invalid url"
  | some uri =>
    if uri.host.isNone then .error "invalid url"
    else
      match h.connection with
      | .error err => .error err
      | .ok alpnH2 =>
        match requestTarget net uri alpnH2 with
        | none => .error "request build failed"
        | some target => h.handshake.map fun _ => (target, h.response)

/-- The loop of `do_http_check`, from hop `hop` on; `left` more may follow. -/
def hopsFrom (net : Net) (check : Variables.HttpCheck) (chain : Nat → Hop) (left hop : Nat)
    (current : String) (method : Targets.HttpMethod) (sendBody : Option String) :
    List Sent × Ending :=
  match reach net (chain hop) current with
  | .error err => ([], .early err none)
  | .ok (target, response) =>
    let sameOrigin := net.origin current = net.origin check.url
    let sent : Sent := ⟨current, requestFor net check method target sendBody sameOrigin⟩
    match response with
    | .error err => ([sent], .early err none)
    | .ok (status, location) =>
      if check.followRedirects && isRedirect status then
        match left with
        | 0 => ([sent], .early "too many redirects" (some status))
        | left + 1 =>
          match redirect net current status location with
          | .error ending => ([sent], ending)
          | .ok next =>
            let keeps := status = 307 ∨ status = 308
            let rest := hopsFrom net check chain left (hop + 1) next
              (if keeps then method else .get) (if keeps then sendBody else none)
            (sent :: rest.1, rest.2)
      else ([sent], .finalize status)

def doHttpCheck (net : Net) (check : Variables.HttpCheck) (chain : Nat → Hop) :
    List Sent × Ending :=
  hopsFrom net check chain (effectiveMaxRedirects check) 0 check.url check.method check.body

def offOrigin (net : Net) (check : Variables.HttpCheck) (sent : List Sent) : List Sent :=
  sent.filter fun s => net.origin s.url ≠ net.origin check.url

/-! ## Where the responses lead -/

/-- A URL that a request is sent to; `kept` when every redirect so far kept the method and the
body. -/
structure Visit where
  url : String
  target : String × Option String
  kept : Bool
deriving DecidableEq

def visitsFrom (net : Net) (follow : Bool) (chain : Nat → Hop) (left hop : Nat)
    (current : String) (kept : Bool) : List Visit :=
  match reach net (chain hop) current with
  | .error _ => []
  | .ok (target, response) =>
    ⟨current, target, kept⟩ ::
      match response with
      | .error _ => []
      | .ok (status, location) =>
        if follow && isRedirect status then
          match left with
          | 0 => []
          | left + 1 =>
            match redirect net current status location with
            | .error _ => []
            | .ok next =>
              visitsFrom net follow chain left (hop + 1) next
                (kept && decide (status = 307 ∨ status = 308))
        else []

def visits (net : Net) (check : Variables.HttpCheck) (chain : Nat → Hop) : List Visit :=
  visitsFrom net check.followRedirects chain (effectiveMaxRedirects check) 0 check.url true

def keptMethod (check : Variables.HttpCheck) (kept : Bool) : Targets.HttpMethod :=
  if kept then check.method else .get

def keptBody (check : Variables.HttpCheck) (kept : Bool) : Option String :=
  if kept then check.body else none

def sentAt (net : Net) (check : Variables.HttpCheck) (v : Visit) : Sent where
  url := v.url
  request := requestFor net check (keptMethod check v.kept) v.target (keptBody check v.kept)
    (net.origin v.url = net.origin check.url)

section

variable {net : Net} {check : Variables.HttpCheck} {chain : Nat → Hop}

theorem hopsFrom_eq_visits (left hop : Nat) (current : String) (kept : Bool) :
    (hopsFrom net check chain left hop current (keptMethod check kept) (keptBody check kept)).1 =
      (visitsFrom net check.followRedirects chain left hop current kept).map (sentAt net check) := by
  induction left generalizing hop current kept with
  | zero =>
    unfold hopsFrom visitsFrom
    split
    · rfl
    · next target response hreach =>
      cases response with
      | error err => rfl
      | ok response =>
        dsimp only
        split
        · rfl
        · rfl
  | succ left ih =>
    unfold hopsFrom visitsFrom
    split
    · rfl
    · next target response hreach =>
      cases response with
      | error err => rfl
      | ok response =>
        obtain ⟨status, location⟩ := response
        dsimp only
        split
        · cases redirect net current status location with
          | error ending => rfl
          | ok next =>
            have hkept := ih (hop + 1) next (kept && decide (status = 307 ∨ status = 308))
            have hmethod : keptMethod check (kept && decide (status = 307 ∨ status = 308)) =
                if status = 307 ∨ status = 308 then keptMethod check kept else .get := by
              split
              · next hkeeps => simp [hkeeps]
              · next hkeeps => simp [hkeeps, keptMethod]
            have hbody : keptBody check (kept && decide (status = 307 ∨ status = 308)) =
                if status = 307 ∨ status = 308 then keptBody check kept else none := by
              split
              · next hkeeps => simp [hkeeps]
              · next hkeeps => simp [hkeeps, keptBody]
            rw [hmethod, hbody] at hkept
            exact congrArg (_ :: ·) hkept
        · rfl

theorem length_visitsFrom (follow : Bool) (left hop : Nat) (current : String) (kept : Bool) :
    (visitsFrom net follow chain left hop current kept).length ≤ left + 1 := by
  induction left generalizing hop current kept with
  | zero =>
    unfold visitsFrom
    split
    · exact Nat.zero_le 1
    · next target response hreach =>
      cases response with
      | error err => exact le_rfl
      | ok response =>
        dsimp only
        split
        · exact le_rfl
        · exact le_rfl
  | succ left ih =>
    unfold visitsFrom
    split
    · exact Nat.zero_le _
    · next target response hreach =>
      cases response with
      | error err => exact Nat.succ_le_succ (Nat.zero_le _)
      | ok response =>
        dsimp only
        split
        · cases redirect net current response.1 response.2 with
          | error ending => exact Nat.succ_le_succ (Nat.zero_le _)
          | ok next => exact Nat.succ_le_succ (ih _ _ _)
        · exact Nat.succ_le_succ (Nat.zero_le _)

theorem sent_eq_visits :
    (doHttpCheck net check chain).1 = (visits net check chain).map (sentAt net check) :=
  hopsFrom_eq_visits _ _ _ true

theorem offOrigin_eq_visits :
    offOrigin net check (doHttpCheck net check chain).1 =
      ((visits net check chain).filter fun v => net.origin v.url ≠ net.origin check.url).map
        (sentAt net check) := by
  rw [offOrigin, sent_eq_visits, List.filter_map]
  rfl

theorem length_sent_le :
    (doHttpCheck net check chain).1.length ≤ effectiveMaxRedirects check + 1 := by
  rw [sent_eq_visits, List.length_map]
  exact length_visitsFrom _ _ _ _ _

end

end Uptimepage.HttpChecks
