import Uptimepage.Async.Run
import Uptimepage.Async.Slots
import Uptimepage.Domain.Incident
import Uptimepage.OAuth.Scope
import Uptimepage.Store.Table

/-!
# OAuth connections

The authorization server: the decision of `oauth/authorize.rs`, the two grants of
`oauth/token.rs` over `oauth/store.rs` and `auth/api_tokens.rs`, and the look-up of an
access token.  Each statement of a grant is one step, and may fail; `mint_oauth` holds the
lock of the user from its `DELETE` to its commit and is one step.
-/

namespace Uptimepage

open Async

/-- Configuration, and the functions of other crates. -/
structure OAuthEnv where
  sha256Hex : String → String
  /-- `URL_SAFE_NO_PAD.encode(Sha256::digest(_))`. -/
  challengeOf : String → String
  /-- Argon2, with its salt. -/
  hash : Nat → String → String
  verify : String → String → Bool
  isAcceptableRedirectUri : String → Bool
  resourceUri : String
  accessTokenTtlSecs : Nat
  prefixVisibleChars : Nat

def codeTtlSecs : Nat := 60

def defaultTokenTtlDays : Nat := 90

def maxTokenTtlDays : Nat := 365

def OAuthEnv.resource (env : OAuthEnv) : String := trimEndSlashes env.resourceUri

/-! ## PKCE -/

def isValidVerifier (verifier : String) : Bool :=
  decide (43 ≤ verifier.utf8ByteSize) && decide (verifier.utf8ByteSize ≤ 128) &&
    verifier.toList.all fun c => c.isAlphanum || c == '-' || c == '.' || c == '_' || c == '~'

def isValidChallenge (challenge : String) : Bool :=
  challenge.utf8ByteSize == 43 &&
    challenge.toList.all fun c => c.isAlphanum || c == '-' || c == '_'

def OAuthEnv.verifyS256 (env : OAuthEnv) (verifier challenge : String) : Bool :=
  isValidVerifier verifier && env.challengeOf verifier == challenge

/-! ## Rows -/

structure OAuthClient where
  clientId : String
  redirectUris : List String
deriving DecidableEq

/-- A row of `oauth_authorization_codes`. -/
structure AuthCode where
  codeHash : String
  clientId : String
  redirectUri : String
  codeChallenge : String
  scope : String
  resource : String
  userId : UserId
  orgId : OrgId
  expiresAt : Time
  refreshExpiresAt : Time
deriving DecidableEq

/-- A row of `oauth_refresh_tokens`. -/
structure RefreshToken where
  tokenHash : String
  familyId : Uuid
  clientId : String
  scope : String
  resource : String
  userId : UserId
  orgId : OrgId
  usedAt : Option Time
  expiresAt : Time
deriving DecidableEq

/-- A row of `api_tokens` that `mint_oauth` inserted.  `familyId` is no column: it is the
family the token was minted for. -/
structure ApiToken where
  id : Uuid
  userId : UserId
  tokenHash : String
  tokenPrefix : String
  scopes : List String
  orgId : OrgId
  expiresAt : Time
  audience : String
  oauthClientId : String
  familyId : Uuid
deriving DecidableEq

/-- First `n` characters of a raw token. -/
def ApiToken.slicePrefix (raw : String) (n : Nat) : String := String.ofList (raw.toList.take n)

def apiTokenPrefix : String := "sm_live_"

/-! ## Requests -/

structure DecisionRequest where
  action : String
  clientId : String
  redirectUri : String
  codeChallenge : String
  scope : String
  resource : String
  expiresInDays : Option Nat

/-- A decision, with the session it is made in, what the membership check says, its clock
and the code it draws. -/
structure Decision where
  userId : Option UserId
  activeOrgId : Option OrgId
  req : DecisionRequest
  isActiveMember : Bool
  decidedAt : Time
  code : String

structure TokenRequest where
  grantType : String
  code : String
  redirectUri : String
  clientId : String
  codeVerifier : String
  refreshToken : String
deriving DecidableEq

/-- A code or a refresh token, by its hash. -/
inductive Secret
  | code (hash : String)
  | refresh (hash : String)
deriving DecidableEq

/-- The arguments of `issue_tokens`, and the secret that the request presented. -/
structure Issue where
  familyId : Uuid
  clientId : String
  scope : String
  resource : String
  userId : UserId
  orgId : OrgId
  refreshExpiresAt : Time
  presented : Secret
deriving DecidableEq

inductive GrantPhase
  | consuming
  | consumed (code : AuthCode)
  | lookingUp
  | found (rt : RefreshToken)
  | marking (rt : RefreshToken)
  | issuing (args : Issue)
  | minting (args : Issue) (accessExpiresAt : Time)
  | inserting (args : Issue)
  | deletingFamily (rt : RefreshToken)
  | revokingOauth (rt : RefreshToken) (deleted : Bool)
  | done
deriving DecidableEq

structure Grant where
  req : TokenRequest
  phase : GrantPhase
deriving DecidableEq

/-! ## History -/

/-- What a user consented to, and the code that carries it. -/
structure Consent where
  codeHash : String
  clientId : String
  redirectUri : String
  codeChallenge : String
  scopes : List Scope
  resource : String
  userId : UserId
  orgId : OrgId
  refreshExpiresAt : Time
deriving DecidableEq

/-- A rotation family, and the code it was opened with. -/
structure Family where
  id : Uuid
  codeHash : String
deriving DecidableEq

structure Redemption where
  codeHash : String
  clientId : String
  redirectUri : String
  codeVerifier : String
deriving DecidableEq

/-- An access or refresh token of a family was let through. -/
structure Acceptance where
  familyId : Uuid
  acceptedAt : Time
deriving DecidableEq

structure OAuth where
  now : Time
  clients : List OAuthClient
  codes : List AuthCode
  refreshTokens : List RefreshToken
  apiTokens : List ApiToken
  grants : List Grant
  drawn : List Secret
  consents : List Consent
  families : List Family
  redeemed : List Redemption
  /-- For each refresh token that was inserted, the secret it was issued for. -/
  successors : List Secret
  accepted : List Acceptance
  /-- Families that a replay has finished revoking. -/
  revoked : List Uuid
deriving DecidableEq

/-- What a token request does next; a statement may fail. -/
inductive GrantEvent
  | consume (ok : Bool)
  | lookup (ok : Bool)
  /-- The checks; a code grant that passes opens family `newFamily`. -/
  | check (newFamily : Uuid)
  | mark (ok : Bool)
  | issue
  | mint (ok : Bool) (id : Uuid) (raw : String) (salt : Nat)
  | insert (ok : Bool) (raw : String)
  | deleteFamily (ok : Bool)
  | revokeOauth (ok : Bool)
  | dropped

inductive OAuthEvent
  | tick (t : Time)
  | register (client : OAuthClient)
  | decision (d : Decision)
  | token (req : TokenRequest)
  | grant (i : Nat) (e : GrantEvent)
  | useAccessToken (raw : String)
  | deleteToken (user : UserId) (id : Uuid)
  | sweepCodes
  | sweepRefreshTokens

namespace OAuth

def start (now : Time) : OAuth where
  now := now
  clients := []
  codes := []
  refreshTokens := []
  apiTokens := []
  grants := []
  drawn := []
  consents := []
  families := []
  redeemed := []
  successors := []
  accepted := []
  revoked := []

def setPhase (s : OAuth) (i : Nat) (g : Grant) (phase : GrantPhase) : OAuth :=
  { s with grants := s.grants.set i { g with phase } }

/-! ## Statements -/

def getClient (s : OAuth) (clientId : String) : Option OAuthClient :=
  s.clients.find? (·.clientId == clientId)

def getRefreshToken (s : OAuth) (hash : String) : Option RefreshToken :=
  s.refreshTokens.find? (·.tokenHash == hash)

/-- `used_at = now()` where it is null. -/
def markRefreshUsed (s : OAuth) (hash : String) : OAuth :=
  { s with refreshTokens := Table.update (fun rt => rt.tokenHash == hash && rt.usedAt.isNone)
             (fun rt => { rt with usedAt := some s.now }) s.refreshTokens }

/-- Whether that statement changes a row. -/
def unused (s : OAuth) (hash : String) : Bool :=
  s.refreshTokens.any fun rt => rt.tokenHash == hash && rt.usedAt.isNone

def deleteRefreshFamily (s : OAuth) (family : Uuid) : OAuth :=
  { s with refreshTokens := s.refreshTokens.filter (·.familyId != family) }

def revokeOauth (s : OAuth) (user : UserId) (org : OrgId) (client audience : String) : OAuth :=
  { s with apiTokens := s.apiTokens.filter fun t =>
      !(t.userId == user && t.orgId == org && t.oauthClientId == client && t.audience == audience) }

/-- The row that `mint_oauth` inserts. -/
def accessToken (env : OAuthEnv) (args : Issue) (accessExpiresAt : Time) (id : Uuid)
    (raw : String) (salt : Nat) : ApiToken where
  id := id
  userId := args.userId
  tokenHash := env.hash salt raw
  tokenPrefix := ApiToken.slicePrefix raw env.prefixVisibleChars
  scopes := (ScopeSet.fromStrs (splitWhitespace args.scope)).toStrings
  orgId := args.orgId
  expiresAt := accessExpiresAt
  audience := args.resource
  oauthClientId := args.clientId
  familyId := args.familyId

/-- Drops the tokens of the same user, organisation, client and audience, and inserts one. -/
def mintOauth (s : OAuth) (args : Issue) (token : ApiToken) : OAuth :=
  let dropped := s.revokeOauth args.userId args.orgId args.clientId args.resource
  { s with apiTokens := dropped.apiTokens ++ [token] }

/-- The successor that `issue_tokens` inserts. -/
def refreshToken (args : Issue) (hash : String) : RefreshToken where
  tokenHash := hash
  familyId := args.familyId
  clientId := args.clientId
  scope := args.scope
  resource := args.resource
  userId := args.userId
  orgId := args.orgId
  usedAt := none
  expiresAt := args.refreshExpiresAt

def lookupByRaw (env : OAuthEnv) (s : OAuth) (raw : String) : Option ApiToken :=
  if apiTokenPrefix.toList.isPrefixOf raw.toList then
    (s.apiTokens.filter (·.tokenPrefix == ApiToken.slicePrefix raw env.prefixVisibleChars)).find?
      fun t => decide (s.now < t.expiresAt) && env.verify raw t.tokenHash
  else none

def maxRedirectUris : Nat := 10

def maxUriLen : Nat := 2048

/-- What `register` lets a client register. -/
def registrable (env : OAuthEnv) (redirectUris : List String) : Bool :=
  !redirectUris.isEmpty && decide (redirectUris.length ≤ maxRedirectUris) &&
    redirectUris.all fun uri =>
      decide (uri.utf8ByteSize ≤ maxUriLen) && env.isAcceptableRedirectUri uri

/-! ## The decision -/

/-- The row `decision` inserts, unless it refuses. -/
def decide? (env : OAuthEnv) (s : OAuth) (d : Decision) : Option AuthCode :=
  match d.userId, d.activeOrgId, s.getClient d.req.clientId with
  | some user, some org, some client =>
    if !client.redirectUris.contains d.req.redirectUri ||
        !env.isAcceptableRedirectUri d.req.redirectUri then none
    else if trimEndSlashes d.req.resource ≠ env.resource then none
    else if !isValidChallenge d.req.codeChallenge then none
    else if d.req.action ≠ "approve" then none
    else if !d.isActiveMember then none
    else
      let days := max 1 (min (d.req.expiresInDays.getD defaultTokenTtlDays) maxTokenTtlDays)
      some {
        codeHash := env.sha256Hex d.code
        clientId := d.req.clientId
        redirectUri := d.req.redirectUri
        codeChallenge := d.req.codeChallenge
        scope := grantScope (some d.req.scope)
        resource := env.resource
        userId := user
        orgId := org
        expiresAt := d.decidedAt + seconds codeTtlSecs
        refreshExpiresAt := d.decidedAt + seconds (days * 86400) }
  | _, _, _ => none

/-- What was consented to when `code` was inserted for decision `d`. -/
def consentOf (d : Decision) (code : AuthCode) : Consent where
  codeHash := code.codeHash
  clientId := code.clientId
  redirectUri := code.redirectUri
  codeChallenge := code.codeChallenge
  scopes := grantedScopes (some d.req.scope)
  resource := code.resource
  userId := code.userId
  orgId := code.orgId
  refreshExpiresAt := code.refreshExpiresAt

/-! ## The grants -/

/-- The first statement of a request that `token` does not refuse. -/
def firstPhase (req : TokenRequest) : GrantPhase :=
  if req.grantType = "authorization_code" then
    if req.code = "" || req.codeVerifier = "" then .done else .consuming
  else if req.grantType = "refresh_token" then
    if req.refreshToken = "" || req.clientId = "" then .done else .lookingUp
  else .done

def issueForCode (code : AuthCode) (family : Uuid) : Issue where
  familyId := family
  clientId := code.clientId
  scope := code.scope
  resource := code.resource
  userId := code.userId
  orgId := code.orgId
  refreshExpiresAt := code.refreshExpiresAt
  presented := .code code.codeHash

/-- `issue_tokens` for a rotated refresh token. -/
def issueForRefresh (rt : RefreshToken) : Issue where
  familyId := rt.familyId
  clientId := rt.clientId
  scope := rt.scope
  resource := rt.resource
  userId := rt.userId
  orgId := rt.orgId
  refreshExpiresAt := rt.expiresAt
  presented := .refresh rt.tokenHash

/-- The request may redeem this code. -/
def redeems (env : OAuthEnv) (s : OAuth) (req : TokenRequest) (code : AuthCode) : Bool :=
  decide (s.now < code.expiresAt) && code.clientId == req.clientId &&
    code.redirectUri == req.redirectUri && env.verifyS256 req.codeVerifier code.codeChallenge

variable (env : OAuthEnv)

/-- One step of request `g`, the `i`-th. -/
def stepGrant (s : OAuth) (i : Nat) (g : Grant) : GrantEvent → GrantPhase → Option OAuth
  | .consume ok, .consuming =>
    let hash := env.sha256Hex g.req.code
    match ok, s.codes.find? (·.codeHash == hash) with
    | true, some code =>
      some (setPhase { s with codes := s.codes.filter (·.codeHash != hash) } i g (.consumed code))
    | _, _ => some (s.setPhase i g .done)
  | .check newFamily, .consumed code =>
    if redeems env s g.req code then
      if s.families.any (·.id == newFamily) then none
      else
        some (setPhase { s with
          families := s.families ++ [⟨newFamily, code.codeHash⟩]
          redeemed := s.redeemed ++
            [⟨code.codeHash, g.req.clientId, g.req.redirectUri, g.req.codeVerifier⟩] } i g
          (.issuing (issueForCode code newFamily)))
    else some (s.setPhase i g .done)
  | .lookup ok, .lookingUp =>
    match ok, s.getRefreshToken (env.sha256Hex g.req.refreshToken) with
    | true, some rt => some (s.setPhase i g (.found rt))
    | _, _ => some (s.setPhase i g .done)
  | .check _, .found rt =>
    if rt.clientId ≠ g.req.clientId then some (s.setPhase i g .done)
    else if rt.usedAt.isSome then some (s.setPhase i g (.deletingFamily rt))
    else if rt.expiresAt ≤ s.now then some (s.setPhase i g .done)
    else some (setPhase { s with accepted := s.accepted ++ [⟨rt.familyId, s.now⟩] } i g
      (.marking rt))
  | .mark ok, .marking rt =>
    if ok && s.unused rt.tokenHash then
      some ((s.markRefreshUsed rt.tokenHash).setPhase i g (.issuing (issueForRefresh rt)))
    else some (s.setPhase i g .done)
  | .issue, .issuing args =>
    some (s.setPhase i g (.minting args (s.now + seconds env.accessTokenTtlSecs)))
  | .mint ok id raw salt, .minting args accessExpiresAt =>
    if ok then
      some ((s.mintOauth args (accessToken env args accessExpiresAt id raw salt)).setPhase i g
        (.inserting args))
    else some (s.setPhase i g .done)
  | .insert ok raw, .inserting args =>
    let hash := env.sha256Hex raw
    if !ok then some (s.setPhase i g .done)
    else if s.drawn.contains (.refresh hash) then none
    else some (setPhase { s with
      refreshTokens := s.refreshTokens ++ [refreshToken args hash]
      drawn := s.drawn ++ [.refresh hash]
      successors := s.successors ++ [args.presented] } i g .done)
  | .deleteFamily ok, .deletingFamily rt =>
    if ok then some ((s.deleteRefreshFamily rt.familyId).setPhase i g (.revokingOauth rt true))
    else some (s.setPhase i g (.revokingOauth rt false))
  | .revokeOauth ok, .revokingOauth rt deleted =>
    if ok then
      let gone := s.revokeOauth rt.userId rt.orgId rt.clientId rt.resource
      some (setPhase { s with
        apiTokens := gone.apiTokens
        revoked := if deleted then s.revoked ++ [rt.familyId] else s.revoked } i g .done)
    else some (s.setPhase i g .done)
  | .dropped, _ => some (s.setPhase i g .done)
  | _, _ => none

def step (s : OAuth) : OAuthEvent → Option OAuth
  | .tick t => if s.now ≤ t then some { s with now := t } else none
  | .register client =>
    if registrable env client.redirectUris && (s.getClient client.clientId).isNone then
      some { s with clients := s.clients ++ [client] }
    else some s
  | .decision d =>
    match decide? env s d with
    | none => some s
    | some code =>
      if s.drawn.contains (.code code.codeHash) || decide (s.now < d.decidedAt) then none
      else some { s with
        codes := s.codes ++ [code]
        drawn := s.drawn ++ [.code code.codeHash]
        consents := s.consents ++ [consentOf d code] }
  | .token req => some { s with grants := s.grants ++ [⟨req, firstPhase req⟩] }
  | .grant i e => s.grants[i]?.bind fun g => stepGrant env s i g e g.phase
  | .useAccessToken raw =>
    match lookupByRaw env s raw with
    | some t => some { s with accepted := s.accepted ++ [⟨t.familyId, s.now⟩] }
    | none => some s
  | .deleteToken user id =>
    some { s with apiTokens := s.apiTokens.filter fun t => !(t.id == id && t.userId == user) }
  | .sweepCodes =>
    some { s with codes := s.codes.filter fun c => !decide (c.expiresAt < s.now) }
  | .sweepRefreshTokens =>
    some { s with refreshTokens := s.refreshTokens.filter fun rt => !decide (rt.expiresAt < s.now) }

/-! ## What a step can do -/

variable {env} {s s' : OAuth}

theorem firstPhase_cases (req : TokenRequest) :
    firstPhase req = .consuming ∨ firstPhase req = .lookingUp ∨ firstPhase req = .done := by
  unfold firstPhase
  split
  · split
    · exact .inr (.inr rfl)
    · exact .inl rfl
  · split
    · split
      · exact .inr (.inr rfl)
      · exact .inr (.inl rfl)
    · exact .inr (.inr rfl)

/-- What a step of request `g`, the `i`-th, does. -/
inductive GrantStep (env : OAuthEnv) (s : OAuth) (i : Nat) (g : Grant) (e : GrantEvent) :
    OAuth → Prop
  | stopped : GrantStep env s i g e (s.setPhase i g .done)
  | consumed (code : AuthCode) : g.phase = .consuming → code ∈ s.codes →
      code.codeHash = env.sha256Hex g.req.code →
      GrantStep env s i g e (setPhase { s with
        codes := s.codes.filter (·.codeHash != code.codeHash) } i g (.consumed code))
  | redeemed (code : AuthCode) (family : Uuid) : g.phase = .consumed code →
      redeems env s g.req code = true → (∀ f ∈ s.families, f.id ≠ family) →
      GrantStep env s i g e (setPhase { s with
        families := s.families ++ [⟨family, code.codeHash⟩]
        redeemed := s.redeemed ++
          [⟨code.codeHash, g.req.clientId, g.req.redirectUri, g.req.codeVerifier⟩] } i g
        (.issuing (issueForCode code family)))
  | found (rt : RefreshToken) : g.phase = .lookingUp → rt ∈ s.refreshTokens →
      GrantStep env s i g e (s.setPhase i g (.found rt))
  | replayed (rt : RefreshToken) : g.phase = .found rt → rt.usedAt.isSome = true →
      GrantStep env s i g e (s.setPhase i g (.deletingFamily rt))
  | live (rt : RefreshToken) : g.phase = .found rt → s.now < rt.expiresAt →
      GrantStep env s i g e (setPhase { s with
        accepted := s.accepted ++ [⟨rt.familyId, s.now⟩] } i g (.marking rt))
  | marked (rt : RefreshToken) : g.phase = .marking rt → s.unused rt.tokenHash = true →
      GrantStep env s i g e
        ((s.markRefreshUsed rt.tokenHash).setPhase i g (.issuing (issueForRefresh rt)))
  | issued (args : Issue) : e = .issue → g.phase = .issuing args →
      GrantStep env s i g e
        (s.setPhase i g (.minting args (s.now + seconds env.accessTokenTtlSecs)))
  | minted (args : Issue) (accessExpiresAt : Time) (id : Uuid) (raw : String) (salt : Nat) :
      g.phase = .minting args accessExpiresAt →
      GrantStep env s i g e
        ((s.mintOauth args (accessToken env args accessExpiresAt id raw salt)).setPhase i g
          (.inserting args))
  | inserted (args : Issue) (hash : String) : g.phase = .inserting args →
      .refresh hash ∉ s.drawn →
      GrantStep env s i g e (setPhase { s with
        refreshTokens := s.refreshTokens ++ [refreshToken args hash]
        drawn := s.drawn ++ [.refresh hash]
        successors := s.successors ++ [args.presented] } i g .done)
  | familyDeleted (rt : RefreshToken) : e = .deleteFamily true → g.phase = .deletingFamily rt →
      GrantStep env s i g e
        ((s.deleteRefreshFamily rt.familyId).setPhase i g (.revokingOauth rt true))
  | familyKept (rt : RefreshToken) : g.phase = .deletingFamily rt →
      GrantStep env s i g e (s.setPhase i g (.revokingOauth rt false))
  | revoked (rt : RefreshToken) (deleted : Bool) : g.phase = .revokingOauth rt deleted →
      GrantStep env s i g e (setPhase { s with
        apiTokens := (s.revokeOauth rt.userId rt.orgId rt.clientId rt.resource).apiTokens
        revoked := if deleted then s.revoked ++ [rt.familyId] else s.revoked } i g .done)

theorem grantStep_of_stepGrant {i : Nat} {g : Grant} {e : GrantEvent}
    (h : stepGrant env s i g e g.phase = some s') : GrantStep env s i g e s' := by
  generalize hph : g.phase = ph at h
  unfold stepGrant at h
  split at h
  · dsimp only at h
    split at h
    · next code hfind =>
      cases h
      have hhash : code.codeHash = env.sha256Hex g.req.code := by simpa using List.find?_some hfind
      rw [← hhash]
      exact .consumed code hph (List.mem_of_find?_eq_some hfind) hhash
    · cases h
      exact .stopped
  · split at h
    · next hredeems =>
      split at h
      · cases h
      · next hfresh =>
        cases h
        refine .redeemed _ _ hph hredeems fun f hf heq => hfresh ?_
        exact List.any_eq_true.mpr ⟨f, hf, by simp [heq]⟩
    · cases h
      exact .stopped
  · split at h
    · next rt hfind =>
      cases h
      exact .found rt hph (List.mem_of_find?_eq_some hfind)
    · cases h
      exact .stopped
  · split at h
    · cases h
      exact .stopped
    · split at h
      · next hused =>
        cases h
        exact .replayed _ hph hused
      · split at h
        · cases h
          exact .stopped
        · next hlive =>
          cases h
          exact .live _ hph (Int.not_le.mp hlive)
  · split at h
    · next hmark =>
      cases h
      exact .marked _ hph (Bool.and_eq_true_iff.mp hmark).2
    · cases h
      exact .stopped
  · cases h
    exact .issued _ rfl hph
  · split at h
    · cases h
      exact .minted _ _ _ _ _ hph
    · cases h
      exact .stopped
  · dsimp only at h
    split at h
    · cases h
      exact .stopped
    · split at h
      · cases h
      · next hfresh =>
        cases h
        exact .inserted _ _ hph fun hmem => hfresh (List.contains_iff_mem.mpr hmem)
  · split at h
    · next hok =>
      cases h
      exact .familyDeleted _ (by rw [hok]) hph
    · cases h
      exact .familyKept _ hph
  · split at h
    · cases h
      exact .revoked _ _ hph
    · cases h
      exact .stopped
  · cases h
    exact .stopped
  · cases h

/-- What a step that is not a request's own does. -/
inductive StoreStep (env : OAuthEnv) (s : OAuth) : OAuth → Prop
  | tick (t : Time) : s.now ≤ t → StoreStep env s { s with now := t }
  | clients (clients : List OAuthClient) : StoreStep env s { s with clients }
  | same : StoreStep env s s
  | decided (d : Decision) (code : AuthCode) : decide? env s d = some code →
      .code code.codeHash ∉ s.drawn →
      StoreStep env s { s with
        codes := s.codes ++ [code]
        drawn := s.drawn ++ [.code code.codeHash]
        consents := s.consents ++ [consentOf d code] }
  | arrived (req : TokenRequest) :
      StoreStep env s { s with grants := s.grants ++ [⟨req, firstPhase req⟩] }
  | accepted (t : ApiToken) : t ∈ s.apiTokens → s.now < t.expiresAt →
      StoreStep env s { s with accepted := s.accepted ++ [⟨t.familyId, s.now⟩] }
  | deleted (p : ApiToken → Bool) : StoreStep env s { s with apiTokens := s.apiTokens.filter p }
  | sweptCodes (p : AuthCode → Bool) : StoreStep env s { s with codes := s.codes.filter p }
  | sweptRefreshTokens (p : RefreshToken → Bool) :
      StoreStep env s { s with refreshTokens := s.refreshTokens.filter p }

theorem lookupByRaw_some {raw : String} {t : ApiToken} (h : lookupByRaw env s raw = some t) :
    t ∈ s.apiTokens ∧ s.now < t.expiresAt := by
  unfold lookupByRaw at h
  split at h
  · have hcond := List.find?_some h
    simp only [Bool.and_eq_true, decide_eq_true_eq] at hcond
    exact ⟨List.mem_of_mem_filter (List.mem_of_find?_eq_some h), hcond.1⟩
  · cases h

theorem step_cases {e : OAuthEvent} (h : step env s e = some s') :
    StoreStep env s s' ∨ ∃ i g e', e = .grant i e' ∧ s.grants[i]? = some g ∧
      GrantStep env s i g e' s' := by
  cases e with
  | tick t =>
    simp only [step] at h
    split at h
    · next hle =>
      cases h
      exact .inl (.tick t hle)
    · cases h
  | register client =>
    simp only [step] at h
    split at h
    · cases h
      exact .inl (.clients _)
    · cases h
      exact .inl .same
  | decision d =>
    simp only [step] at h
    split at h
    · cases h
      exact .inl .same
    · next code hcode =>
      split at h
      · cases h
      · next hfresh =>
        cases h
        simp only [Bool.or_eq_true, List.contains_iff_mem, not_or] at hfresh
        exact .inl (.decided d code hcode hfresh.1)
  | token req =>
    cases h
    exact .inl (.arrived req)
  | grant i e =>
    obtain ⟨g, hi, hg⟩ := Option.bind_eq_some_iff.mp h
    exact .inr ⟨i, g, e, rfl, hi, grantStep_of_stepGrant hg⟩
  | useAccessToken raw =>
    simp only [step] at h
    split at h
    · next t ht =>
      cases h
      obtain ⟨hmem, hlive⟩ := lookupByRaw_some ht
      exact .inl (.accepted t hmem hlive)
    · cases h
      exact .inl .same
  | deleteToken user id =>
    cases h
    exact .inl (.deleted _)
  | sweepCodes =>
    cases h
    exact .inl (.sweptCodes _)
  | sweepRefreshTokens =>
    cases h
    exact .inl (.sweptRefreshTokens _)

end OAuth

end Uptimepage
