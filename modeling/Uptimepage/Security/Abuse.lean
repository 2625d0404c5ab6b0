import Uptimepage.Targets.Handlers
import Uptimepage.Text.Delimited

/-!
# Abuse admission

`security/abuse.rs`: what `AbuseGuard::inspect` looks at, against everywhere a check goes.  It
reads one URL or host of each kind; the pages that a flow goes to after its first are not among
them.  A listed domain denies itself and what is below it, if it has two labels at least.
-/

namespace Uptimepage.Security

open Targets

/-! ## Hits -/

inductive AbuseKind
  | urlPattern
  | domain
  | reputation
deriving DecidableEq

structure AbuseHit where
  kind : AbuseKind
  detail : String
deriving DecidableEq

namespace AbuseHit

def intoAppError (hit : AbuseHit) : AppError :=
  match hit.kind with
  | .urlPattern =>
    .badRequestField "ABUSE_BLOCKED" "target URL matches a blocked abuse pattern" "check.url"
  | .domain =>
    .badRequestField "DOMAIN_DENYLISTED" s!"target domain '{hit.detail}' is on the deny-list"
      "check.url"
  | .reputation =>
    .badRequestField "ABUSE_BLOCKED" s!"target domain '{hit.detail}' has a poor reputation"
      "check.url"

end AbuseHit

/-! ## The guard -/

/-- What other code answers. -/
structure AbuseEnv where
  /-- `Url::host_str`. -/
  hostStr : Url → Option String
  /-- `str::to_lowercase`. -/
  lower : String → String

/-- The rules in force. -/
structure AbuseState where
  /-- The patterns that match a URL's text, by index. -/
  urlPatterns : Url → List Nat
  domainDenylist : List String
  reputation : List String

section

variable (env : AbuseEnv)

/-- Trimmed, without trailing dots, in lower case. -/
def canonDomain (host : String) : String := env.lower (trimEndDots (trim host))

def domainAndParents (host : String) : List String :=
  let host := canonDomain env host
  if host.toList.isEmpty then []
  else
    let labels := host.toList.splitOn '.'
    (List.range (labels.length - 1)).map fun i =>
      String.ofList (['.'].intercalate (labels.drop i))

def matchIn (set : List String) (host : String) (kind : AbuseKind) : Option AbuseHit :=
  if set.isEmpty then none
  else (domainAndParents env host).findSome? fun d => if set.contains d then some ⟨kind, d⟩ else none

def primaryHost : CheckSpec → Option String
  | .http h => (env.hostStr h.url).map unbracket
  | .tcp t => some (unbracket t.host)
  | .ping p => some (unbracket p.host)
  | .tlsCert c => some (unbracket c.host)
  | .domainExpiry d => some d.domain
  | .dns d => some d.domain
  | .flow f => (env.hostStr f.startUrl).map unbracket
  | .heartbeat _ => none

def patternUrl : CheckSpec → Option Url
  | .http h => some h.url
  | .flow f => some f.startUrl
  | .tcp _ | .ping _ | .heartbeat _ | .tlsCert _ | .domainExpiry _ | .dns _ => none

namespace AbuseState

variable (s : AbuseState)

def domainHit (host : String) : Option AbuseHit := matchIn env s.domainDenylist host .domain

def reputationHit (host : String) : Option AbuseHit := matchIn env s.reputation host .reputation

def hostHit (host : String) : Option AbuseHit :=
  (s.domainHit env host).or (s.reputationHit env host)

def patternHit (url : Url) : Option AbuseHit :=
  (s.urlPatterns url).head?.map fun i => ⟨.urlPattern, s!"pattern #{i}"⟩

/-- `AbuseGuard::inspect`. -/
def inspect (check : CheckSpec) : Option AbuseHit :=
  match (patternUrl check).bind s.patternHit with
  | some hit => some hit
  | none => (primaryHost env check).bind (s.hostHit env)

end AbuseState

/-! ## Everywhere a check goes -/

inductive Destination
  | url (url : Url)
  /-- A page that a flow goes to after its first. -/
  | goto (url : Url)
  | host (host : String)
deriving DecidableEq

def FlowStep.goto? : FlowStep → Option Destination
  | .goto url => some (.goto url)
  | _ => none

def destinations : CheckSpec → List Destination
  | .http h => [.url h.url]
  | .tcp t => [.host (unbracket t.host)]
  | .ping p => [.host (unbracket p.host)]
  | .tlsCert c => [.host (unbracket c.host)]
  | .domainExpiry d => [.host d.domain]
  | .dns d => [.host d.domain]
  | .flow f => .url f.startUrl :: f.steps.filterMap FlowStep.goto?
  | .heartbeat _ => []

namespace Destination

def url? : Destination → Option Url
  | .url u | .goto u => some u
  | .host _ => none

def host? : Destination → Option String
  | .url u | .goto u => (env.hostStr u).map unbracket
  | .host h => some h

end Destination

/-- `name` is the host itself or one of its parent domains. -/
def IsOrBelow (host name : String) : Prop :=
  host = name ∨ '.' :: name.toList <:+ host.toList

namespace AbuseState

variable (s : AbuseState)

def DeniedByUrl (d : Destination) : Prop := ∃ u, d.url? = some u ∧ s.urlPatterns u ≠ []

/-- A listed name denies the destination's host. -/
def DeniedByName (d : Destination) (name : String) : Prop :=
  ∃ host, d.host? env = some host ∧ name ∈ s.domainDenylist ++ s.reputation ∧
    IsOrBelow (canonDomain env host) name

/-- On some deny-list, directly or through a parent domain. -/
def Denied (d : Destination) : Prop := s.DeniedByUrl d ∨ ∃ name, s.DeniedByName env d name

/-- Denied by a rule that is applied: a URL pattern, or a domain of two labels at least. -/
def DeniedByRule (d : Destination) : Prop :=
  s.DeniedByUrl d ∨ ∃ name, s.DeniedByName env d name ∧ '.' ∈ name.toList

/-- `inspect` answers for every destination, and for nothing else. -/
def Covers (check : CheckSpec) : Prop :=
  (s.inspect env check).isSome = true ↔ ∃ d ∈ destinations check, s.Denied env d

end AbuseState

/-! ## Parent domains -/

variable {env}

section

variable {s : AbuseState}

theorem AbuseState.DeniedByRule.denied {d : Destination} (h : s.DeniedByRule env d) :
    s.Denied env d := by
  rcases h with hurl | ⟨name, hname, -⟩
  · exact .inl hurl
  · exact .inr ⟨name, hname⟩

end

end

/-! ## A flow that goes on to a denied page -/

namespace Detour

/-- The host of a URL, and lower case, as they are for plain names. -/
def env : AbuseEnv where
  hostStr url :=
    match url.host with
    | some (.domain name) => some name
    | _ => none
  lower := toAsciiLowercase

def page (host : String) : Url := ⟨"https", some (.domain host), none⟩

def check : CheckSpec := .flow
  { startUrl := page "shop.example.com"
    steps := [.goto (page "betterstack.com"), .assertUrl "betterstack"]
    timeout := 30000
    stepTimeout := 5000 }

def guard : AbuseState := ⟨fun _ => [], ["betterstack.com"], []⟩

end Detour

end Uptimepage.Security
