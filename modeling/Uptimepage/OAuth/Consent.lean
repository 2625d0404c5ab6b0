import Uptimepage.OAuth.Secrets

/-!
# A connection and its consent

Every row and every request of a connection carries what was consented to: `Bound`.  What
it does not carry is a limit on the access token, whose life is counted from its own issue,
so a token outlives the connection when less than its life is left of it
(`token_outlives_consent`, `confined_of_within`).
-/

namespace Uptimepage

open Async

/-- What the rows of one connection agree on. -/
structure Connection where
  clientId : String
  scope : String
  resource : String
  userId : UserId
  orgId : OrgId
  refreshExpiresAt : Time

def AuthCode.connection (c : AuthCode) : Connection :=
  ⟨c.clientId, c.scope, c.resource, c.userId, c.orgId, c.refreshExpiresAt⟩

def RefreshToken.connection (rt : RefreshToken) : Connection :=
  ⟨rt.clientId, rt.scope, rt.resource, rt.userId, rt.orgId, rt.expiresAt⟩

def Issue.connection (args : Issue) : Connection :=
  ⟨args.clientId, args.scope, args.resource, args.userId, args.orgId, args.refreshExpiresAt⟩

def Consent.connection (k : Consent) : Connection :=
  ⟨k.clientId, scopeListString k.scopes, k.resource, k.userId, k.orgId, k.refreshExpiresAt⟩

/-- The access token is one of connection `conn`. -/
structure ApiToken.Carries (t : ApiToken) (conn : Connection) : Prop where
  userId : t.userId = conn.userId
  orgId : t.orgId = conn.orgId
  oauthClientId : t.oauthClientId = conn.clientId
  audience : t.audience = conn.resource
  scopes : t.scopes = (ScopeSet.fromStrs (splitWhitespace conn.scope)).toStrings

namespace OAuth

/-- The consent that the family descends from. -/
def ConsentOf (s : OAuth) (family : Uuid) (k : Consent) : Prop :=
  ∃ f ∈ s.families, f.id = family ∧ k ∈ s.consents ∧ k.codeHash = f.codeHash

def Descends (s : OAuth) (family : Uuid) (conn : Connection) : Prop :=
  ∃ k, s.ConsentOf family k ∧ k.connection = conn

def CodeBound (s : OAuth) (code : AuthCode) : Prop :=
  ∃ k ∈ s.consents, k.codeHash = code.codeHash ∧ k.connection = code.connection ∧
    k.redirectUri = code.redirectUri ∧ k.codeChallenge = code.codeChallenge

def PhaseBound (s : OAuth) : GrantPhase → Prop
  | .consumed code => s.CodeBound code
  | .found rt | .marking rt | .deletingFamily rt | .revokingOauth rt _ =>
    s.Descends rt.familyId rt.connection
  | .issuing args | .minting args _ | .inserting args => s.Descends args.familyId args.connection
  | .consuming | .lookingUp | .done => True

/-- The redemption was made by what its code is bound to. -/
def RedeemedBound (env : OAuthEnv) (s : OAuth) (r : Redemption) : Prop :=
  ∃ k ∈ s.consents, k.codeHash = r.codeHash ∧ k.clientId = r.clientId ∧
    k.redirectUri = r.redirectUri ∧ env.verifyS256 r.codeVerifier k.codeChallenge = true

structure Bound (env : OAuthEnv) (s : OAuth) : Prop where
  consents : (s.consents.map (·.codeHash)).Nodup
  drawn : ∀ k ∈ s.consents, .code k.codeHash ∈ s.drawn
  families : (s.families.map (·.id)).Nodup
  codes : ∀ c ∈ s.codes, s.CodeBound c
  phases : ∀ (i : Nat) (g : Grant), s.grants[i]? = some g → s.PhaseBound g.phase
  refreshTokens : ∀ rt ∈ s.refreshTokens, s.Descends rt.familyId rt.connection
  apiTokens : ∀ t ∈ s.apiTokens, ∃ conn, s.Descends t.familyId conn ∧ t.Carries conn
  redeemed : ∀ r ∈ s.redeemed, s.RedeemedBound env r

/-- Consents and families are only added. -/
def Grows (s s' : OAuth) : Prop :=
  (∀ k ∈ s.consents, k ∈ s'.consents) ∧ ∀ f ∈ s.families, f ∈ s'.families

variable {env : OAuthEnv} {s s' : OAuth} {e : OAuthEvent} {i : Nat} {g : Grant}

theorem Grows.refl (s : OAuth) : Grows s s := ⟨fun _ hk => hk, fun _ hf => hf⟩

variable {family : Uuid} {k : Consent} {conn : Connection} {code : AuthCode} {p : GrantPhase}

theorem Grows.consentOf (h : Grows s s') (hk : s.ConsentOf family k) : s'.ConsentOf family k := by
  obtain ⟨f, hf, hid, hk, hcode⟩ := hk
  exact ⟨f, h.2 f hf, hid, h.1 k hk, hcode⟩

theorem Grows.descends (h : Grows s s') (hd : s.Descends family conn) :
    s'.Descends family conn := by
  obtain ⟨k, hk, hconn⟩ := hd
  exact ⟨k, h.consentOf hk, hconn⟩

theorem Grows.codeBound (h : Grows s s') (hc : s.CodeBound code) : s'.CodeBound code := by
  obtain ⟨k, hk, hrest⟩ := hc
  exact ⟨k, h.1 k hk, hrest⟩

theorem Grows.phaseBound (h : Grows s s') {ph : GrantPhase} (hp : s.PhaseBound ph) :
    s'.PhaseBound ph := by
  cases ph with
  | consumed code => exact h.codeBound hp
  | found rt | marking rt | deletingFamily rt | revokingOauth rt => exact h.descends hp
  | issuing args | minting args | inserting args => exact h.descends hp
  | consuming | lookingUp | done => trivial

theorem Grows.redeemedBound (h : Grows s s') {r : Redemption} (hr : s.RedeemedBound env r) :
    s'.RedeemedBound env r := by
  obtain ⟨k, hk, hrest⟩ := hr
  exact ⟨k, h.1 k hk, hrest⟩

theorem Bound.one (h : Bound env s) {k' : Consent} (hk : s.ConsentOf family k)
    (hk' : s.ConsentOf family k') : k = k' := by
  obtain ⟨f, hf, hid, hk, hcode⟩ := hk
  obtain ⟨f', hf', hid', hk', hcode'⟩ := hk'
  obtain rfl : f = f' := List.inj_on_of_nodup_map h.families hf hf' (hid.trans hid'.symm)
  exact List.inj_on_of_nodup_map h.consents hk hk' (hcode.trans hcode'.symm)

theorem Bound.connection_eq (h : Bound env s) {conn' : Connection} (hd : s.Descends family conn)
    (hd' : s.Descends family conn') : conn = conn' := by
  obtain ⟨k, hk, rfl⟩ := hd
  obtain ⟨k', hk', rfl⟩ := hd'
  rw [h.one hk hk']

theorem Bound.frame (h : Bound env s) (hconsents : s'.consents = s.consents)
    (hfamilies : s'.families = s.families) (hdrawn : ∀ x ∈ s.drawn, x ∈ s'.drawn)
    (hcodes : ∀ c ∈ s'.codes, c ∈ s.codes)
    (hphases : ∀ (i : Nat) (g : Grant), s'.grants[i]? = some g →
      s.grants[i]? = some g ∨ s.PhaseBound g.phase)
    (hrefresh : ∀ rt ∈ s'.refreshTokens, s.Descends rt.familyId rt.connection)
    (hapi : ∀ t ∈ s'.apiTokens, t ∈ s.apiTokens ∨
      ∃ conn, s.Descends t.familyId conn ∧ t.Carries conn)
    (hredeemed : s'.redeemed = s.redeemed) : Bound env s' := by
  have hgrows : Grows s s' := ⟨fun k hk => hconsents ▸ hk, fun f hf => hfamilies ▸ hf⟩
  refine ⟨hconsents ▸ h.consents, fun k hk => hdrawn _ (h.drawn k (hconsents ▸ hk)),
    hfamilies ▸ h.families, fun c hc => hgrows.codeBound (h.codes c (hcodes c hc)),
    fun i g hi => ?_, fun rt hrt => hgrows.descends (hrefresh rt hrt), fun t ht => ?_,
    fun r hr => hgrows.redeemedBound (h.redeemed r (hredeemed ▸ hr))⟩
  · rcases hphases i g hi with hold | hnew
    · exact hgrows.phaseBound (h.phases i g hold)
    · exact hgrows.phaseBound hnew
  · obtain ⟨conn, hd, hcarries⟩ : ∃ conn, s.Descends t.familyId conn ∧ t.Carries conn := by
      rcases hapi t ht with hold | hnew
      · exact h.apiTokens t hold
      · exact hnew
    exact ⟨conn, hgrows.descends hd, hcarries⟩

theorem phases_set (hp : s.PhaseBound p) (j : Nat) (g' : Grant)
    (hj : (s.grants.set i { g with phase := p })[j]? = some g') :
    s.grants[j]? = some g' ∨ s.PhaseBound g'.phase := by
  rcases getElem?_set_cases hj with ⟨-, rfl⟩ | ⟨-, hold⟩
  · exact .inr hp
  · exact .inl hold

theorem consentOf_connection {d : Decision} (h : decide? env s d = some code) :
    (consentOf d code).connection = code.connection := by
  unfold decide? at h
  split at h
  · (repeat' split at h) <;> cases h
    rfl
  · cases h

theorem redeems_iff {req : TokenRequest} :
    redeems env s req code = true ↔ s.now < code.expiresAt ∧ code.clientId = req.clientId ∧
      code.redirectUri = req.redirectUri ∧
      env.verifyS256 req.codeVerifier code.codeChallenge = true := by
  simp only [redeems, Bool.and_eq_true, decide_eq_true_eq, beq_iff_eq, and_assoc]

theorem carries_accessToken (env : OAuthEnv) (args : Issue) (accessExpiresAt : Time) (id : Uuid)
    (raw : String) (salt : Nat) :
    (accessToken env args accessExpiresAt id raw salt).Carries args.connection :=
  ⟨rfl, rfl, rfl, rfl, rfl⟩

theorem mem_mintOauth {args : Issue} {token t : ApiToken}
    (h : t ∈ (s.mintOauth args token).apiTokens) : t ∈ s.apiTokens ∨ t = token := by
  rcases List.mem_append.mp h with hold | hnew
  · exact .inl (List.mem_of_mem_filter hold)
  · exact .inr (List.mem_singleton.mp hnew)

theorem markRefreshUsed_row {hash : String} {rt : RefreshToken}
    (h : rt ∈ (s.markRefreshUsed hash).refreshTokens) :
    ∃ old ∈ s.refreshTokens, rt.familyId = old.familyId ∧ rt.connection = old.connection := by
  obtain ⟨old, hold, rfl⟩ := List.mem_map.mp h
  refine ⟨old, hold, ?_⟩
  split <;> exact ⟨rfl, rfl⟩

theorem bound_grantStep (h : Bound env s) {e : GrantEvent} (hi : s.grants[i]? = some g)
    (hstep : GrantStep env s i g e s') : Bound env s' := by
  have hat : ∀ {p : GrantPhase}, g.phase = p → s.PhaseBound p := fun hp => hp ▸ h.phases i g hi
  -- the request moves, and the rows stay
  have hmove : ∀ {p : GrantPhase}, s.PhaseBound p → Bound env (s.setPhase i g p) := fun hp =>
    h.frame rfl rfl (fun _ hx => hx) (fun _ hc => hc) (phases_set hp) h.refreshTokens
      (fun _ ht => .inl ht) rfl
  cases hstep with
  | stopped => exact hmove trivial
  | consumed code hph hmem hhash =>
    exact h.frame rfl rfl (fun _ hx => hx) (fun _ hc => List.mem_of_mem_filter hc)
      (phases_set (h.codes code hmem)) h.refreshTokens (fun _ ht => .inl ht) rfl
  | redeemed code family hph hredeems hfresh =>
    obtain ⟨k, hk, hcode, hconn, hredirect, hchallenge⟩ := hat hph
    obtain ⟨-, hclient, huri, hpkce⟩ := redeems_iff.1 hredeems
    have hgrows : Grows s (setPhase { s with
        families := s.families ++ [⟨family, code.codeHash⟩]
        redeemed := s.redeemed ++
          [⟨code.codeHash, g.req.clientId, g.req.redirectUri, g.req.codeVerifier⟩] } i g
        (.issuing (issueForCode code family))) :=
      ⟨fun k hk => hk, fun f hf => List.mem_append_left _ hf⟩
    refine ⟨h.consents, h.drawn, ?_, fun c hc => hgrows.codeBound (h.codes c hc),
      fun j g' hj => ?_, fun rt hrt => hgrows.descends (h.refreshTokens rt hrt), fun t ht => ?_,
      fun r hr => ?_⟩
    · change ((s.families ++ _).map (·.id)).Nodup
      rw [List.map_append, List.nodup_append']
      refine ⟨h.families, List.nodup_singleton _, fun id hid hid' => ?_⟩
      obtain ⟨f, hf, rfl⟩ := List.mem_map.mp hid
      exact hfresh f hf (List.mem_singleton.mp hid')
    · rcases getElem?_set_cases hj with ⟨-, rfl⟩ | ⟨-, hold⟩
      · exact ⟨k, ⟨_, List.mem_append_right _ List.mem_cons_self, rfl, hk, hcode⟩, hconn⟩
      · exact hgrows.phaseBound (h.phases j g' hold)
    · obtain ⟨conn, hd, hcarries⟩ := h.apiTokens t ht
      exact ⟨conn, hgrows.descends hd, hcarries⟩
    · rcases List.mem_append.mp hr with hold | hnew
      · exact hgrows.redeemedBound (h.redeemed r hold)
      · rw [List.mem_singleton.mp hnew]
        refine ⟨k, hk, hcode, ?_, hredirect.trans huri, hchallenge ▸ hpkce⟩
        exact (congrArg Connection.clientId hconn).trans hclient
  | found rt hph hmem => exact hmove (h.refreshTokens rt hmem)
  | replayed rt hph hused => exact hmove (p := .deletingFamily rt) (hat hph :)
  | live rt hph hlive =>
    exact h.frame rfl rfl (fun _ hx => hx) (fun _ hc => hc)
      (phases_set (p := .marking rt) (hat hph :)) h.refreshTokens (fun _ ht => .inl ht) rfl
  | marked rt hph hunused =>
    refine h.frame rfl rfl (fun _ hx => hx) (fun _ hc => hc)
      (phases_set (p := .issuing (issueForRefresh rt)) (hat hph :)) (fun rt' hrt' => ?_)
      (fun _ ht => .inl ht) rfl
    obtain ⟨old, hold, hfamily, hconn⟩ := markRefreshUsed_row hrt'
    rw [hfamily, hconn]
    exact h.refreshTokens old hold
  | issued args he hph => exact hmove (p := .minting args _) (hat hph :)
  | minted args accessExpiresAt id raw salt hph =>
    refine h.frame rfl rfl (fun _ hx => hx) (fun _ hc => hc)
      (phases_set (p := .inserting args) (hat hph :)) h.refreshTokens (fun t ht => ?_) rfl
    rcases mem_mintOauth ht with hold | rfl
    · exact .inl hold
    · exact .inr ⟨args.connection, hat hph, carries_accessToken env args accessExpiresAt id raw salt⟩
  | inserted args hash hph hfresh =>
    refine h.frame rfl rfl (fun _ hx => List.mem_append_left _ hx) (fun _ hc => hc)
      (phases_set (p := .done) trivial) (fun rt hrt => ?_) (fun _ ht => .inl ht) rfl
    rcases List.mem_append.mp hrt with hold | hnew
    · exact h.refreshTokens rt hold
    · rw [List.mem_singleton.mp hnew]
      exact hat hph
  | familyDeleted rt he hph =>
    exact h.frame rfl rfl (fun _ hx => hx) (fun _ hc => hc)
      (phases_set (p := .revokingOauth rt true) (hat hph :))
      (fun rt' hrt' => h.refreshTokens rt' (List.mem_of_mem_filter hrt')) (fun _ ht => .inl ht) rfl
  | familyKept rt hph => exact hmove (p := .revokingOauth rt false) (hat hph :)
  | revoked rt deleted hph =>
    exact h.frame rfl rfl (fun _ hx => hx) (fun _ hc => hc) (phases_set (p := .done) trivial)
      h.refreshTokens (fun t ht => .inl (List.mem_of_mem_filter ht)) rfl

theorem phaseBound_firstPhase (s : OAuth) (req : TokenRequest) : s.PhaseBound (firstPhase req) := by
  rcases firstPhase_cases req with h | h | h <;> rw [h] <;> trivial

theorem bound_storeStep (h : Bound env s) (hstep : StoreStep env s s') :
    Bound env s' := by
  cases hstep with
  | tick t hle => exact ⟨h.1, h.2, h.3, h.4, h.5, h.6, h.7, h.8⟩
  | clients clients => exact ⟨h.1, h.2, h.3, h.4, h.5, h.6, h.7, h.8⟩
  | same => exact h
  | decided d code hcode hfresh =>
    have hgrows : Grows s { s with
        codes := s.codes ++ [code]
        drawn := s.drawn ++ [.code code.codeHash]
        consents := s.consents ++ [consentOf d code] } :=
      ⟨fun k hk => List.mem_append_left _ hk, fun f hf => hf⟩
    refine ⟨?_, fun k hk => ?_, h.families, fun c hc => ?_,
      fun j g hj => hgrows.phaseBound (h.phases j g hj),
      fun rt hrt => hgrows.descends (h.refreshTokens rt hrt), fun t ht => ?_,
      fun r hr => hgrows.redeemedBound (h.redeemed r hr)⟩
    · change ((s.consents ++ _).map (·.codeHash)).Nodup
      rw [List.map_append, List.nodup_append']
      refine ⟨h.consents, List.nodup_singleton _, fun hash hmem hmem' => ?_⟩
      obtain ⟨k, hk, rfl⟩ := List.mem_map.mp hmem
      have heq : k.codeHash = code.codeHash := List.mem_singleton.mp hmem'
      exact hfresh (heq ▸ h.drawn k hk)
    · rcases List.mem_append.mp hk with hold | hnew
      · exact List.mem_append_left _ (h.drawn k hold)
      · rw [List.mem_singleton.mp hnew]
        exact List.mem_append_right _ List.mem_cons_self
    · rcases List.mem_append.mp hc with hold | hnew
      · exact hgrows.codeBound (h.codes c hold)
      · rw [List.mem_singleton.mp hnew]
        exact ⟨consentOf d code, List.mem_append_right _ List.mem_cons_self, rfl,
          consentOf_connection hcode, rfl, rfl⟩
    · obtain ⟨conn, hd, hcarries⟩ := h.apiTokens t ht
      exact ⟨conn, hgrows.descends hd, hcarries⟩
  | arrived req =>
    refine h.frame rfl rfl (fun _ hx => hx) (fun _ hc => hc) (fun i g hi => ?_) h.refreshTokens
      (fun _ ht => .inl ht) rfl
    rcases getElem?_snoc_cases hi with hold | ⟨-, rfl⟩
    · exact .inl hold
    · exact .inr (phaseBound_firstPhase s req)
  | accepted t hmem hlive => exact ⟨h.1, h.2, h.3, h.4, h.5, h.6, h.7, h.8⟩
  | deleted p =>
    exact h.frame rfl rfl (fun _ hx => hx) (fun _ hc => hc) (fun _ _ hi => .inl hi) h.refreshTokens
      (fun t ht => .inl (List.mem_of_mem_filter ht)) rfl
  | sweptCodes p =>
    exact h.frame rfl rfl (fun _ hx => hx) (fun _ hc => List.mem_of_mem_filter hc)
      (fun _ _ hi => .inl hi) h.refreshTokens (fun _ ht => .inl ht) rfl
  | sweptRefreshTokens p =>
    exact h.frame rfl rfl (fun _ hx => hx) (fun _ hc => hc) (fun _ _ hi => .inl hi)
      (fun rt hrt => h.refreshTokens rt (List.mem_of_mem_filter hrt)) (fun _ ht => .inl ht) rfl

theorem bound_start (env : OAuthEnv) (now : Time) : Bound env (start now) := by
  constructor <;> simp [start]

theorem bound_step (h : Bound env s) (hstep : step env s e = some s') : Bound env s' := by
  rcases step_cases hstep with hstore | ⟨i, g, e', -, hi, hgrant⟩
  · exact bound_storeStep h hstore
  · exact bound_grantStep h hi hgrant

theorem grows_step (h : step env s e = some s') : Grows s s' := by
  rcases step_cases h with hstore | ⟨i, g, e', -, -, hgrant⟩
  · cases hstore with
    | decided d code hcode hfresh => exact ⟨fun k hk => List.mem_append_left _ hk, fun f hf => hf⟩
    | _ => exact .refl _
  · cases hgrant with
    | redeemed code family hph hredeems hfresh =>
      exact ⟨fun k hk => hk, fun f hf => List.mem_append_left _ hf⟩
    | _ => exact .refl _

/-! ## The deadline -/

/-- An access token that is issued now does not outlive its connection. -/
def issuesWithin (env : OAuthEnv) (s : OAuth) : OAuthEvent → Bool
  | .grant i .issue =>
    match s.grants[i]?.map Grant.phase with
    | some (.issuing args) =>
      decide (s.now + seconds env.accessTokenTtlSecs ≤ args.refreshExpiresAt)
    | _ => true
  | _ => true

/-- Nothing of a connection lives, or was accepted, past its deadline. -/
structure Timely (s : OAuth) : Prop where
  minting : ∀ (i : Nat) (g : Grant) (args : Issue) (accessExpiresAt : Time),
    s.grants[i]? = some g → g.phase = .minting args accessExpiresAt →
      accessExpiresAt ≤ args.refreshExpiresAt
  apiTokens : ∀ t ∈ s.apiTokens, ∃ k, s.ConsentOf t.familyId k ∧ t.expiresAt ≤ k.refreshExpiresAt
  accepted : ∀ a ∈ s.accepted, ∃ k, s.ConsentOf a.familyId k ∧ a.acceptedAt < k.refreshExpiresAt

theorem Timely.frame (h : Timely s) (hgrows : Grows s s')
    (hminting : ∀ (i : Nat) (g : Grant), s'.grants[i]? = some g → s.grants[i]? = some g ∨
      ∀ args accessExpiresAt, g.phase = .minting args accessExpiresAt →
        accessExpiresAt ≤ args.refreshExpiresAt)
    (hapi : ∀ t ∈ s'.apiTokens, t ∈ s.apiTokens ∨
      ∃ k, s.ConsentOf t.familyId k ∧ t.expiresAt ≤ k.refreshExpiresAt)
    (haccepted : ∀ a ∈ s'.accepted, a ∈ s.accepted ∨
      ∃ k, s.ConsentOf a.familyId k ∧ a.acceptedAt < k.refreshExpiresAt) : Timely s' := by
  refine ⟨fun i g args exp hi hph => ?_, fun t ht => ?_, fun a ha => ?_⟩
  · rcases hminting i g hi with hold | hnew
    · exact h.minting i g args exp hold hph
    · exact hnew args exp hph
  · obtain ⟨k, hk, hle⟩ : ∃ k, s.ConsentOf t.familyId k ∧ t.expiresAt ≤ k.refreshExpiresAt := by
      rcases hapi t ht with hold | hnew
      · exact h.apiTokens t hold
      · exact hnew
    exact ⟨k, hgrows.consentOf hk, hle⟩
  · obtain ⟨k, hk, hlt⟩ :
        ∃ k, s.ConsentOf a.familyId k ∧ a.acceptedAt < k.refreshExpiresAt := by
      rcases haccepted a ha with hold | hnew
      · exact h.accepted a hold
      · exact hnew
    exact ⟨k, hgrows.consentOf hk, hlt⟩

theorem minting_set (hp : ∀ args accessExpiresAt, p = .minting args accessExpiresAt →
      accessExpiresAt ≤ args.refreshExpiresAt) (j : Nat) (g' : Grant)
    (hj : (s.grants.set i { g with phase := p })[j]? = some g') :
    s.grants[j]? = some g' ∨ ∀ args accessExpiresAt, g'.phase = .minting args accessExpiresAt →
      accessExpiresAt ≤ args.refreshExpiresAt := by
  rcases getElem?_set_cases hj with ⟨-, rfl⟩ | ⟨-, hold⟩
  · exact .inr hp
  · exact .inl hold

theorem timely_grantStep (h : Timely s) (hbound : Bound env s) {e : GrantEvent}
    (hi : s.grants[i]? = some g) (hok : issuesWithin env s (.grant i e) = true)
    (hgrows : Grows s s') (hstep : GrantStep env s i g e s') : Timely s' := by
  have hat : ∀ {p : GrantPhase}, g.phase = p → s.PhaseBound p := fun hp =>
    hp ▸ hbound.phases i g hi
  cases hstep with
  | live rt hph hlive =>
    refine h.frame hgrows (minting_set nofun) (fun _ ht => .inl ht) fun a ha => ?_
    rcases List.mem_append.mp ha with hold | hnew
    · exact .inl hold
    · obtain ⟨k, hk, hconn⟩ : s.Descends rt.familyId rt.connection := hat hph
      rw [List.mem_singleton.mp hnew]
      exact .inr ⟨k, hk, lt_of_lt_of_eq hlive (congrArg Connection.refreshExpiresAt hconn).symm⟩
  | issued args he hph =>
    subst he
    simp only [issuesWithin, hi, Option.map_some, hph, decide_eq_true_eq] at hok
    refine h.frame hgrows (minting_set fun args' exp heq => ?_) (fun _ ht => .inl ht)
      fun _ ha => .inl ha
    cases heq
    exact hok
  | minted args accessExpiresAt id raw salt hph =>
    refine h.frame hgrows (minting_set nofun) (fun t ht => ?_) fun _ ha => .inl ha
    rcases mem_mintOauth ht with hold | rfl
    · exact .inl hold
    · obtain ⟨k, hk, hconn⟩ : s.Descends args.familyId args.connection := hat hph
      refine .inr ⟨k, hk, ?_⟩
      have hle := h.minting i g args accessExpiresAt hi hph
      exact le_of_le_of_eq hle (congrArg Connection.refreshExpiresAt hconn).symm
  | revoked rt deleted hph =>
    exact h.frame hgrows (minting_set nofun) (fun t ht => .inl (List.mem_of_mem_filter ht))
      fun _ ha => .inl ha
  | _ => exact h.frame hgrows (minting_set nofun) (fun _ ht => .inl ht) fun _ ha => .inl ha

theorem timely_storeStep (h : Timely s) (hgrows : Grows s s') (hstep : StoreStep env s s') :
    Timely s' := by
  cases hstep with
  | arrived req =>
    refine h.frame hgrows (fun i g hi => ?_) (fun _ ht => .inl ht) fun _ ha => .inl ha
    rcases getElem?_snoc_cases hi with hold | ⟨-, rfl⟩
    · exact .inl hold
    · refine .inr fun args exp hph => ?_
      have hnone := firstPhase_held req
      rw [show firstPhase req = .minting args exp from hph] at hnone
      cases hnone
  | accepted t hmem hlive =>
    refine h.frame hgrows (fun _ _ hi => .inl hi) (fun _ ht => .inl ht) fun a ha => ?_
    rcases List.mem_append.mp ha with hold | hnew
    · exact .inl hold
    · obtain ⟨k, hk, hle⟩ := h.apiTokens t hmem
      rw [List.mem_singleton.mp hnew]
      exact .inr ⟨k, hk, lt_of_lt_of_le hlive hle⟩
  | deleted p =>
    exact h.frame hgrows (fun _ _ hi => .inl hi) (fun t ht => .inl (List.mem_of_mem_filter ht))
      fun _ ha => .inl ha
  | _ => exact h.frame hgrows (fun _ _ hi => .inl hi) (fun _ ht => .inl ht) fun _ ha => .inl ha

theorem timely_step (h : Timely s) (hbound : Bound env s) (hok : issuesWithin env s e = true)
    (hstep : step env s e = some s') : Timely s' := by
  rcases step_cases hstep with hstore | ⟨i, g, e', rfl, hi, hgrant⟩
  · exact timely_storeStep h (grows_step hstep) hstore
  · exact timely_grantStep h hbound hi hok (grows_step hstep) hgrant

/-! ## The connection is confined to its consent -/

/-- Every token is one of the consent it descends from, none was accepted after that
consent's deadline, and each code was redeemed once, by what it is bound to. -/
structure Confined (env : OAuthEnv) (s : OAuth) : Prop where
  one : ∀ family k k', s.ConsentOf family k → s.ConsentOf family k' → k = k'
  refreshTokens : ∀ rt ∈ s.refreshTokens, ∃ k, s.ConsentOf rt.familyId k ∧
    rt.userId = k.userId ∧ rt.orgId = k.orgId ∧ rt.clientId = k.clientId ∧
    rt.resource = k.resource ∧
    ScopeSet.fromStrs (splitWhitespace rt.scope) = k.scopes.toFinset ∧
    rt.expiresAt = k.refreshExpiresAt
  apiTokens : ∀ t ∈ s.apiTokens, ∃ k, s.ConsentOf t.familyId k ∧
    t.userId = k.userId ∧ t.orgId = k.orgId ∧ t.oauthClientId = k.clientId ∧
    t.audience = k.resource ∧ ScopeSet.fromStrs t.scopes = k.scopes.toFinset
  accepted : ∀ a ∈ s.accepted, ∃ k, s.ConsentOf a.familyId k ∧ a.acceptedAt < k.refreshExpiresAt
  redeemedOnce : (s.redeemed.map (·.codeHash)).Nodup
  redeemed : ∀ r ∈ s.redeemed, s.RedeemedBound env r

theorem confined (hbound : Bound env s) (htimely : Timely s) (hspent : Spent s) :
    Confined env s where
  one _ _ _ hk hk' := hbound.one hk hk'
  refreshTokens := by
    intro rt hrt
    obtain ⟨k, hk, hconn⟩ := hbound.refreshTokens rt hrt
    have hscope : scopeListString k.scopes = rt.scope := congrArg Connection.scope hconn
    refine ⟨k, hk, (congrArg Connection.userId hconn).symm, (congrArg Connection.orgId hconn).symm,
      (congrArg Connection.clientId hconn).symm, (congrArg Connection.resource hconn).symm, ?_,
      (congrArg Connection.refreshExpiresAt hconn).symm⟩
    rw [← hscope, fromStrs_scopeListString]
  apiTokens := by
    intro t ht
    obtain ⟨conn, ⟨k, hk, rfl⟩, hcarries⟩ := hbound.apiTokens t ht
    refine ⟨k, hk, hcarries.userId, hcarries.orgId, hcarries.oauthClientId, hcarries.audience, ?_⟩
    rw [hcarries.scopes, ScopeSet.fromStrs_toStrings]
    exact fromStrs_scopeListString k.scopes
  accepted := htimely.accepted
  redeemedOnce := hspent.redeemedOnce
  redeemed := hbound.redeemed

/-- **A connection never outgrows its consent, and does not outlive it** in a run where each
access token is issued with no less of the connection left than the token's own life. -/
theorem confined_of_within {now : Time}
    (hrun : Run (step env) (fun s e => issuesWithin env s e = true) (start now) s) :
    Confined env s := by
  have htimely : Timely (start now) := by constructor <;> simp [start]
  obtain ⟨hbound, htimely, hspent⟩ := hrun.invariant
    (I := fun u => Bound env u ∧ Timely u ∧ Spent u)
    ⟨bound_start env now, htimely, spent_start now⟩
    fun _ _ _ h hok hstep =>
      ⟨bound_step h.1 hstep, timely_step h.2.1 h.1 hok hstep, spent_step h.2.2 hstep⟩
  exact confined hbound htimely hspent

/-! ## A connection of one day -/

def rfcVerifier : String := "dBjftJeZ4CVP-mB92K27uhbUJU1p1r_wW1gFWFOEjXk"

def rfcChallenge : String := "E9Melhoa2OwvFrEMTJguCHaoeK1t8URWbuGJSstw-cM"

/-- Hashes that tell their inputs apart, and access tokens of an hour. -/
def plainEnv : OAuthEnv where
  sha256Hex raw := raw
  challengeOf verifier := if verifier = rfcVerifier then rfcChallenge else verifier
  hash _ raw := raw
  verify raw hashed := raw == hashed
  isAcceptableRedirectUri uri := uri == "https://app.example/cb"
  resourceUri := "https://mcp.example/mcp"
  accessTokenTtlSecs := 3600
  prefixVisibleChars := 16

def codeRequest : TokenRequest where
  grantType := "authorization_code"
  code := "code"
  redirectUri := "https://app.example/cb"
  clientId := "client"
  codeVerifier := rfcVerifier
  refreshToken := ""

def refreshRequest (raw : String) : TokenRequest where
  grantType := "refresh_token"
  code := ""
  redirectUri := ""
  clientId := "client"
  codeVerifier := ""
  refreshToken := raw

/-- A user consents to a connection of one day, and its code is exchanged. -/
def connecting : List OAuthEvent :=
  [.register ⟨"client", ["https://app.example/cb"]⟩,
    .decision {
      userId := some 1
      activeOrgId := some 2
      req := {
        action := "approve"
        clientId := "client"
        redirectUri := "https://app.example/cb"
        codeChallenge := rfcChallenge
        scope := "targets:read unknown targets:write"
        resource := "https://mcp.example/mcp/"
        expiresInDays := some 1 }
      isActiveMember := true
      decidedAt := 0
      code := "code" },
    .token codeRequest, .grant 0 (.consume true), .grant 0 (.check 7), .grant 0 .issue,
    .grant 0 (.mint true 1 "sm_live_first" 0), .grant 0 (.insert true "refresh1")]

/-- A refresh of the connection: request `i` presents `raw` and gets as far as its issue. -/
def rotating (i : Nat) (raw : String) : List OAuthEvent :=
  [.token (refreshRequest raw), .grant i (.lookup true), .grant i (.check 0), .grant i (.mark true)]

theorem confined_of_within_refreshed :
    ∃ s, Run (step plainEnv) (fun s e => issuesWithin plainEnv s e = true) (start 0) s ∧
      s.refreshTokens.length = 2 ∧ s.apiTokens.length = 1 ∧ s.accepted.length = 2 ∧
      Confined plainEnv s := by
  let events : List OAuthEvent :=
    connecting ++ ([.tick (seconds 3000)] : List OAuthEvent) ++ rotating 1 "refresh1" ++
    ([.grant 1 .issue, .grant 1 (.mint true 2 "sm_live_second" 0),
      .grant 1 (.insert true "refresh2"), .useAccessToken "sm_live_second"] : List OAuthEvent)
  obtain ⟨s, hrun, hs⟩ : ∃ s : OAuth,
      Run (step plainEnv) (fun s e => issuesWithin plainEnv s e = true) (start 0) s ∧
      s.refreshTokens.length = 2 ∧ s.apiTokens.length = 1 ∧ s.accepted.length = 2 :=
    exists_guarded_run events (by decide +kernel)
  obtain ⟨hrefresh, hapi, haccepted⟩ := hs
  exact ⟨s, hrun, hrefresh, hapi, haccepted, confined_of_within hrun⟩

/-- The connection of a day is refreshed ten minutes before its end; the access token of an
hour is accepted fifty minutes after it. -/
theorem token_outlives_consent :
    ∃ s, Run (step plainEnv) (fun _ _ => True) (start 0) s ∧
      ∃ k, s.consents = [k] ∧ k.refreshExpiresAt = seconds 86400 ∧ s.ConsentOf 7 k ∧
        ⟨7, seconds (86400 + 2999)⟩ ∈ s.accepted := by
  let events : List OAuthEvent :=
    connecting ++ ([.tick (seconds (86400 - 600))] : List OAuthEvent) ++ rotating 1 "refresh1" ++
    ([.grant 1 .issue, .grant 1 (.mint true 2 "sm_live_second" 0),
      .grant 1 (.insert true "refresh2"), .tick (seconds (86400 + 2999)),
      .useAccessToken "sm_live_second"] : List OAuthEvent)
  obtain ⟨s, hrun, hs⟩ : ∃ s : OAuth, Run (step plainEnv) (fun _ _ => True) (start 0) s ∧
      s.families = [⟨7, "code"⟩] ∧
        s.consents.map (fun k => (k.codeHash, k.refreshExpiresAt)) = [("code", seconds 86400)] ∧
        ⟨7, seconds (86400 + 2999)⟩ ∈ s.accepted :=
    exists_run_satisfying events (by decide +kernel)
  obtain ⟨hfamilies, hconsents, haccepted⟩ := hs
  obtain ⟨k, hk, hfields⟩ := List.map_eq_singleton_iff.mp hconsents
  obtain ⟨hcode, hdeadline⟩ := Prod.mk.inj hfields
  refine ⟨s, hrun, k, hk, hdeadline, ⟨⟨7, "code"⟩, ?_, rfl, ?_, hcode⟩, haccepted⟩
  · rw [hfamilies]
    exact List.mem_cons_self
  · rw [hk]
    exact List.mem_cons_self

end OAuth
end Uptimepage
