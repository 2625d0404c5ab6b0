import Uptimepage.OAuth.Family

/-!
# A refresh that fails, and its retry

`refresh_grant` of `oauth/token.rs` marks the token used before it mints and inserts, and each
of the three may end in a server error.  The client then presents the same token again.  The retry
is spared exactly when the failing statement is the mark, it did not take effect and nobody else
marked the token, or when the row is gone (`retry_spared_iff`); otherwise the family is revoked.
-/

namespace Uptimepage

open Async

/-- What is drawn for a grant: the access token with its id and salt, and the successor. -/
structure Draws where
  id : Uuid
  access : String
  salt : Nat
  refresh : String

inductive GrantAnswer
  | issued (accessToken refreshToken : String)
  | invalidRequest
  | invalidGrant
deriving DecidableEq

/-- A statement of `refresh_grant` that can end in a server error. -/
inductive FailurePoint
  | mark
  | mint
  | insert
deriving DecidableEq

/-- The statement, which takes effect or not. -/
def FailurePoint.statement (draws : Draws) : FailurePoint → Bool → GrantEvent
  | .mark, tookEffect => .mark tookEffect
  | .mint, tookEffect => .mint tookEffect draws.id draws.access draws.salt
  | .insert, tookEffect => .insert tookEffect draws.refresh

/-- Its answer is an error, with which the request ends. -/
def FailurePoint.failing (draws : Draws) (p : FailurePoint) (tookEffect : Bool) :
    List GrantEvent :=
  [p.statement draws tookEffect, .dropped]

def TokenRequest.Presents (req : TokenRequest) : Prop :=
  req.refreshToken ≠ "" ∧ req.clientId ≠ ""

/-- What the request has read, marked or issues for is what it presented. -/
def TokenRequest.Owns (env : OAuthEnv) (req : TokenRequest) : GrantPhase → Prop
  | .consuming | .consumed _ => req.grantType = "authorization_code"
  | .lookingUp => req.Presents
  | .found rt => req.Presents ∧ rt.tokenHash = env.sha256Hex req.refreshToken
  | .marking rt => req.Presents ∧ rt.tokenHash = env.sha256Hex req.refreshToken ∧
      rt.clientId = req.clientId
  | .issuing args | .minting args _ | .inserting args =>
    req.grantType = "authorization_code" ∨
      (req.Presents ∧ args.presented = .refresh (env.sha256Hex req.refreshToken))
  | .deletingFamily _ | .revokingOauth _ _ | .done => True

namespace OAuth

/-! ## A request with storage up -/

/-- `revoke_family`. -/
def revokeFamily (s : OAuth) (rt : RefreshToken) : OAuth :=
  let deleted := s.deleteRefreshFamily rt.familyId
  { deleted with
    apiTokens := (deleted.revokeOauth rt.userId rt.orgId rt.clientId rt.resource).apiTokens
    revoked := s.revoked ++ [rt.familyId] }

/-- The history has it that the token was let through. -/
def accept (s : OAuth) (rt : RefreshToken) : OAuth :=
  { s with accepted := s.accepted ++ [⟨rt.familyId, s.now⟩] }

def issueTokens (env : OAuthEnv) (draws : Draws) (s : OAuth) (args : Issue) : OAuth × GrantAnswer :=
  let accessExpiresAt := s.now + seconds env.accessTokenTtlSecs
  let minted := s.mintOauth args
    (accessToken env args accessExpiresAt draws.id draws.access draws.salt)
  let hash := env.sha256Hex draws.refresh
  ({ minted with
      refreshTokens := s.refreshTokens ++ [refreshToken args hash]
      drawn := s.drawn ++ [.refresh hash]
      successors := s.successors ++ [args.presented] }, .issued draws.access draws.refresh)

/-- `refresh_grant`, when no statement of it fails and no other request runs meanwhile. -/
def refreshGrant (env : OAuthEnv) (draws : Draws) (s : OAuth) (req : TokenRequest) :
    OAuth × GrantAnswer :=
  if req.refreshToken = "" || req.clientId = "" then (s, .invalidRequest)
  else
    let hash := env.sha256Hex req.refreshToken
    match s.getRefreshToken hash with
    | none => (s, .invalidGrant)
    | some rt =>
      if rt.clientId ≠ req.clientId then (s, .invalidGrant)
      else if rt.usedAt.isSome then (s.revokeFamily rt, .invalidGrant)
      else if rt.expiresAt ≤ s.now then (s, .invalidGrant)
      else issueTokens env draws ((s.accept rt).markRefreshUsed hash) (issueForRefresh rt)

/-- The request got its tokens, or was refused and changed nothing. -/
def Spared (s : OAuth) (answered : OAuth × GrantAnswer) : Prop :=
  (∃ access refresh, answered.2 = .issued access refresh) ∨ answered.1 = s

variable {env : OAuthEnv} {s s' : OAuth} {e : OAuthEvent} {i : Nat} {g : Grant}

/-! ## It is the request of the machine, run alone -/

/-- One more request, in this phase. -/
def alone (s : OAuth) (req : TokenRequest) (ph : GrantPhase) : OAuth :=
  { s with grants := s.grants ++ [⟨req, ph⟩] }

theorem step_alone {n : Nat} {u : OAuth} {req : TokenRequest} {ph ph' : GrantPhase}
    {e : GrantEvent} (hs : s.grants.length = n) (hu : u.grants.length = n)
    (h : stepGrant env (s.alone req ph) n ⟨req, ph⟩ e ph =
      some ((u.alone req ph).setPhase n ⟨req, ph⟩ ph')) :
    step env (s.alone req ph) (.grant n e) = some (u.alone req ph') := by
  subst hs
  have hset : (u.alone req ph).setPhase s.grants.length ⟨req, ph⟩ ph' = u.alone req ph' := by
    rw [← hu]
    simp [setPhase, alone]
  rw [← hset, ← h]
  simp [step, alone]

theorem alone_getRefreshToken (s : OAuth) (req : TokenRequest) (ph : GrantPhase) (hash : String) :
    (s.alone req ph).getRefreshToken hash = s.getRefreshToken hash := rfl

theorem steps_issueTokens {draws : Draws} {req : TokenRequest} {args : Issue} {n : Nat}
    (hn : s.grants.length = n) (hfresh : .refresh (env.sha256Hex draws.refresh) ∉ s.drawn) :
    steps (step env) (s.alone req (.issuing args))
      [.grant n .issue, .grant n (.mint true draws.id draws.access draws.salt),
        .grant n (.insert true draws.refresh)] =
      some ((issueTokens env draws s args).1.alone req .done) := by
  let accessExpiresAt := s.now + seconds env.accessTokenTtlSecs
  let minted := s.mintOauth args
    (accessToken env args accessExpiresAt draws.id draws.access draws.salt)
  have hissue : step env (s.alone req (.issuing args)) (.grant n .issue) =
      some (s.alone req (.minting args accessExpiresAt)) := step_alone hn hn rfl
  have hmint : step env (s.alone req (.minting args accessExpiresAt))
      (.grant n (.mint true draws.id draws.access draws.salt)) =
        some (minted.alone req (.inserting args)) := step_alone hn hn rfl
  have hinsert : step env (minted.alone req (.inserting args))
      (.grant n (.insert true draws.refresh)) =
        some ((issueTokens env draws s args).1.alone req .done) := by
    refine step_alone hn hn ?_
    have hnot : (minted.alone req (.inserting args)).drawn.contains
        (.refresh (env.sha256Hex draws.refresh)) = false := by
      rw [Bool.eq_false_iff]
      exact fun hmem => hfresh (List.contains_iff_mem.mp hmem)
    simp only [stepGrant, hnot]
    rfl
  simp [steps, hissue, hmint, hinsert]

/-- **`refreshGrant` is what the machine does with a request that runs alone.** -/
theorem steps_refreshGrant {draws : Draws} {req : TokenRequest}
    (hreq : req.grantType = "refresh_token")
    (hfresh : .refresh (env.sha256Hex draws.refresh) ∉ s.drawn) :
    ∃ es : List GrantEvent,
      steps (step env) s (.token req :: es.map (.grant s.grants.length)) =
        some ((refreshGrant env draws s req).1.alone req .done) := by
  unfold refreshGrant
  split
  · next hempty =>
    refine ⟨[], ?_⟩
    simp [steps, step, firstPhase, hreq, hempty, alone]
  · next hfull =>
    have hfirst : step env s (.token req) = some (s.alone req .lookingUp) := by
      simp [step, firstPhase, hreq, hfull, alone]
    dsimp only
    split
    · next hnone =>
      refine ⟨[.lookup true], ?_⟩
      have hlookup : step env (s.alone req .lookingUp) (.grant s.grants.length (.lookup true)) =
          some (s.alone req .done) :=
        step_alone rfl rfl (by simp [stepGrant, alone_getRefreshToken, hnone])
      simp [steps, hfirst, hlookup]
    · next rt hsome =>
      have hhash : rt.tokenHash = env.sha256Hex req.refreshToken := by
        simpa using List.find?_some hsome
      have hlookup : step env (s.alone req .lookingUp) (.grant s.grants.length (.lookup true)) =
          some (s.alone req (.found rt)) :=
        step_alone rfl rfl (by simp [stepGrant, alone_getRefreshToken, hsome])
      split
      · next hclient =>
        refine ⟨[.lookup true, .check 0], ?_⟩
        have hcheck : step env (s.alone req (.found rt)) (.grant s.grants.length (.check 0)) =
            some (s.alone req .done) := step_alone rfl rfl (if_pos hclient)
        simp [steps, hfirst, hlookup, hcheck]
      · next hclient =>
        split
        · next hused =>
          refine ⟨[.lookup true, .check 0, .deleteFamily true, .revokeOauth true], ?_⟩
          have hcheck : step env (s.alone req (.found rt)) (.grant s.grants.length (.check 0)) =
              some (s.alone req (.deletingFamily rt)) :=
            step_alone rfl rfl (by simp [stepGrant, hclient, hused])
          have hdelete : step env (s.alone req (.deletingFamily rt))
              (.grant s.grants.length (.deleteFamily true)) =
                some ((s.deleteRefreshFamily rt.familyId).alone req (.revokingOauth rt true)) :=
            step_alone rfl rfl rfl
          have hrevoke : step env
              ((s.deleteRefreshFamily rt.familyId).alone req (.revokingOauth rt true))
              (.grant s.grants.length (.revokeOauth true)) =
                some ((s.revokeFamily rt).alone req .done) :=
            step_alone rfl rfl rfl
          simp [steps, hfirst, hlookup, hcheck, hdelete, hrevoke]
        · next hunused =>
          split
          · next hexpired =>
            refine ⟨[.lookup true, .check 0], ?_⟩
            have hnow : rt.expiresAt ≤ (s.alone req (.found rt)).now := hexpired
            have hcheck : step env (s.alone req (.found rt)) (.grant s.grants.length (.check 0)) =
                some (s.alone req .done) :=
              step_alone rfl rfl (by simp [stepGrant, hclient, hunused, hnow])
            simp [steps, hfirst, hlookup, hcheck]
          · next hlive =>
            refine ⟨[.lookup true, .check 0, .mark true, .issue,
              .mint true draws.id draws.access draws.salt, .insert true draws.refresh], ?_⟩
            have hnow : ¬rt.expiresAt ≤ (s.alone req (.found rt)).now := hlive
            have hcheck : step env (s.alone req (.found rt)) (.grant s.grants.length (.check 0)) =
                some ((s.accept rt).alone req (.marking rt)) :=
              step_alone rfl rfl (by simp [stepGrant, hclient, hunused, hnow]; rfl)
            have hunmarked : (s.alone req (.marking rt)).unused rt.tokenHash = true := by
              refine List.any_eq_true.mpr ⟨rt, List.mem_of_find?_eq_some hsome, ?_⟩
              simpa using hunused
            have hmark : step env ((s.accept rt).alone req (.marking rt))
                (.grant s.grants.length (.mark true)) =
                  some (((s.accept rt).markRefreshUsed rt.tokenHash).alone req
                    (.issuing (issueForRefresh rt))) :=
              step_alone rfl rfl (if_pos hunmarked)
            have hissue := @steps_issueTokens env ((s.accept rt).markRefreshUsed rt.tokenHash)
              draws req (issueForRefresh rt) s.grants.length rfl hfresh
            rw [← hhash, ← hissue]
            simp [steps, hfirst, hlookup, hcheck, hmark]

/-! ## A request holds what it presented -/

theorem owns_firstPhase (req : TokenRequest) : req.Owns env (firstPhase req) := by
  unfold firstPhase
  split
  · next hcode =>
    split
    · trivial
    · exact hcode
  · split
    · split
      · trivial
      · next hfull =>
        simp only [Bool.or_eq_true, decide_eq_true_eq, not_or] at hfull
        exact hfull
    · trivial

theorem owns_stepGrant {e : GrantEvent} (h : g.req.Owns env g.phase)
    (hstep : stepGrant env s i g e g.phase = some s') :
    ∃ ph, s'.grants = s.grants.set i { g with phase := ph } ∧ g.req.Owns env ph := by
  have hdone : ∃ ph, (s.setPhase i g .done).grants = s.grants.set i { g with phase := ph } ∧
      g.req.Owns env ph := ⟨.done, rfl, trivial⟩
  generalize g.phase = ph at h hstep
  unfold stepGrant at hstep
  split at hstep
  · dsimp only at hstep
    split at hstep <;> cases hstep
    · exact ⟨_, rfl, h⟩
    · exact hdone
  · split at hstep
    · split at hstep <;> cases hstep
      exact ⟨_, rfl, .inl h⟩
    · cases hstep
      exact hdone
  · split at hstep <;> cases hstep
    · next rt hfind =>
      have hhash : rt.tokenHash = env.sha256Hex g.req.refreshToken := by
        simpa using List.find?_some hfind
      exact ⟨_, rfl, h, hhash⟩
    · exact hdone
  · split at hstep
    · cases hstep
      exact hdone
    · next hclient =>
      split at hstep
      · cases hstep
        exact ⟨_, rfl, trivial⟩
      · split at hstep <;> cases hstep
        · exact hdone
        · exact ⟨_, rfl, h.1, h.2, not_not.mp hclient⟩
  · split at hstep <;> cases hstep
    · exact ⟨_, rfl, .inr ⟨h.1, congrArg Secret.refresh h.2.1⟩⟩
    · exact hdone
  · cases hstep
    exact ⟨_, rfl, h⟩
  · split at hstep <;> cases hstep
    · exact ⟨_, rfl, h⟩
    · exact hdone
  · dsimp only at hstep
    split at hstep
    · cases hstep
      exact hdone
    · split at hstep <;> cases hstep
      exact ⟨.done, rfl, trivial⟩
  · split at hstep <;> cases hstep <;> exact ⟨_, rfl, trivial⟩
  · split at hstep <;> cases hstep
    · exact ⟨.done, rfl, trivial⟩
    · exact hdone
  · cases hstep
    exact hdone
  · cases hstep

/-- The row of a token that a request holds is of the request's client. -/
def HeldOfClient (s : OAuth) : Prop :=
  ∀ (i : Nat) (g : Grant) (hash : String), s.grants[i]? = some g →
    g.phase.held = some (.refresh hash) →
    ∀ rt ∈ s.refreshTokens, rt.tokenHash = hash → rt.clientId = g.req.clientId

/-- Requests hold what they presented, with rows of their client. -/
structure Owned (env : OAuthEnv) (s : OAuth) : Prop where
  own : ∀ (i : Nat) (g : Grant), s.grants[i]? = some g → g.req.Owns env g.phase
  client : s.HeldOfClient

theorem own_step (h : Owned env s) (hstep : step env s e = some s') (j : Nat) (g' : Grant)
    (hj : s'.grants[j]? = some g') : g'.req.Owns env g'.phase := by
  cases e with
  | grant i e =>
    obtain ⟨g, hi, hg⟩ := Option.bind_eq_some_iff.mp hstep
    obtain ⟨ph, hgrants, hown⟩ := owns_stepGrant (h.own i g hi) hg
    rw [hgrants] at hj
    rcases getElem?_set_cases hj with ⟨-, rfl⟩ | ⟨-, hold⟩
    · exact hown
    · exact h.own j g' hold
  | token req =>
    cases hstep
    rcases getElem?_snoc_cases hj with hold | ⟨-, rfl⟩
    · exact h.own j g' hold
    · exact owns_firstPhase req
  | tick t | register client | decision d | useAccessToken raw =>
    simp only [step] at hstep
    (repeat' split at hstep) <;> cases hstep <;> exact h.own j g' hj
  | deleteToken user id | sweepCodes | sweepRefreshTokens =>
    cases hstep
    exact h.own j g' hj

theorem Owned.frame (h : Owned env s) (hspent : Spent s)
    (hrows : ∀ rt' ∈ s'.refreshTokens, (∃ rt ∈ s.refreshTokens, rt.tokenHash = rt'.tokenHash ∧
      rt.clientId = rt'.clientId) ∨ .refresh rt'.tokenHash ∉ s.drawn)
    (hgrants : ∀ (j : Nat) (g' : Grant) (hash : String), s'.grants[j]? = some g' →
      g'.phase.held = some (.refresh hash) →
      (∃ (k : Nat) (g : Grant), s.grants[k]? = some g ∧ g.phase.held = some (.refresh hash) ∧
        g.req = g'.req) ∨
      ∀ rt' ∈ s'.refreshTokens, rt'.tokenHash = hash → rt'.clientId = g'.req.clientId) :
    s'.HeldOfClient := by
  intro j g' hash hj hheld
  rcases hgrants j g' hash hj hheld with ⟨k, g, hk, hheldk, hreq⟩ | hnew
  · intro rt' hrt' hhash
    rcases hrows rt' hrt' with ⟨rt, hrt, hsame, hclient⟩ | hundrawn
    · rw [← hclient, ← hreq]
      exact h.client k g hash hk hheldk rt hrt (hsame.trans hhash)
    · rw [hhash] at hundrawn
      exact absurd (hspent.held k g _ hk hheldk).1.1 hundrawn
  · exact hnew

theorem holds_set {p : GrantPhase} (hi : s.grants[i]? = some g)
    (hp : ∀ hash, p.held = some (.refresh hash) → g.phase.held = some (.refresh hash))
    (j : Nat) (g' : Grant) (hash : String)
    (hj : (s.grants.set i { g with phase := p })[j]? = some g')
    (hheld : g'.phase.held = some (.refresh hash)) :
    ∃ (k : Nat) (g : Grant), s.grants[k]? = some g ∧ g.phase.held = some (.refresh hash) ∧
      g.req = g'.req := by
  rcases getElem?_set_cases hj with ⟨-, rfl⟩ | ⟨-, hold⟩
  · exact ⟨i, g, hi, hp hash hheld, rfl⟩
  · exact ⟨j, g', hold, hheld, rfl⟩

theorem client_of_marking (hkeyed : Keyed s) (hbound : Bound env s) {rt : RefreshToken}
    (hi : s.grants[i]? = some g) (hph : g.phase = .marking rt) :
    ∀ row ∈ s.refreshTokens, row.tokenHash = rt.tokenHash → row.clientId = rt.clientId := by
  intro row hrow hhash
  have hfamily := (hkeyed.read i g rt hi (by rw [hph]; rfl)).2 row hrow hhash
  have hread : s.Descends rt.familyId rt.connection := by
    have hbp := hbound.phases i g hi
    rw [hph] at hbp
    exact hbp
  have hconn := hbound.connection_eq (hfamily ▸ hbound.refreshTokens row hrow) hread
  exact congrArg Connection.clientId hconn

theorem owned_grantStep (h : Owned env s) (hspent : Spent s) (hkeyed : Keyed s)
    (hbound : Bound env s) {e : GrantEvent} (hi : s.grants[i]? = some g)
    (hstep : GrantStep env s i g e s') : s'.HeldOfClient := by
  have hsame : ∀ rt' ∈ s.refreshTokens, (∃ rt ∈ s.refreshTokens, rt.tokenHash = rt'.tokenHash ∧
      rt.clientId = rt'.clientId) ∨ .refresh rt'.tokenHash ∉ s.drawn :=
    fun rt hrt => .inl ⟨rt, hrt, rfl, rfl⟩
  cases hstep with
  | redeemed code family hph hredeems hfresh =>
    exact h.frame hspent hsame (fun j g' hash hj hheld => .inl
      (holds_set hi (fun _ hp => by cases hp) j g' hash hj hheld))
  | marked rt hph hunused =>
    have hrows : ∀ rt' ∈ (s.markRefreshUsed rt.tokenHash).refreshTokens, ∃ old ∈ s.refreshTokens,
        old.tokenHash = rt'.tokenHash ∧ old.clientId = rt'.clientId := by
      intro rt' hrt'
      rcases Table.mem_update hrt' with hold | ⟨old, hold, -, rfl⟩
      · exact ⟨rt', hold, rfl, rfl⟩
      · exact ⟨old, hold, rfl, rfl⟩
    refine h.frame hspent (fun rt' hrt' => .inl (hrows rt' hrt')) (fun k u hash hk hheld => ?_)
    rcases getElem?_set_cases hk with ⟨-, rfl⟩ | ⟨-, hold⟩
    · refine .inr fun rt' hrt' hhash => ?_
      obtain ⟨old, hold, hsamehash, hclient⟩ := hrows rt' hrt'
      have hown := h.own i g hi
      rw [hph] at hown
      cases hheld
      rw [← hclient, client_of_marking hkeyed hbound hi hph old hold (hsamehash.trans hhash)]
      exact hown.2.2
    · exact .inl ⟨k, u, hold, hheld, rfl⟩
  | issued args he hph =>
    refine h.frame hspent hsame (fun j g' hash hj hheld => .inl
      (holds_set hi (fun _ hp => ?_) j g' hash hj hheld))
    rw [hph]
    exact hp
  | minted args accessExpiresAt id raw salt hph =>
    refine h.frame hspent hsame (fun j g' hash hj hheld => .inl
      (holds_set hi (fun _ hp => ?_) j g' hash hj hheld))
    rw [hph]
    exact hp
  | inserted args new hph hfresh =>
    refine h.frame hspent (fun rt' hrt' => ?_) (fun j g' hash hj hheld => .inl
      (holds_set hi (fun _ hp => by cases hp) j g' hash hj hheld))
    rcases List.mem_append.mp hrt' with hold | hnew
    · exact hsame rt' hold
    · rw [List.mem_singleton.mp hnew]
      exact .inr hfresh
  | familyDeleted rt he hph =>
    exact h.frame hspent (fun rt' hrt' => hsame rt' (List.mem_of_mem_filter hrt'))
      (fun j g' hash hj hheld => .inl
        (holds_set hi (fun _ hp => by cases hp) j g' hash hj hheld))
  | _ =>
    exact h.frame hspent hsame (fun j g' hash hj hheld => .inl
      (holds_set hi (fun _ hp => by cases hp) j g' hash hj hheld))

theorem owned_storeStep (h : Owned env s) (hstep : StoreStep env s s') :
    s'.HeldOfClient := by
  cases hstep with
  | arrived req =>
    intro j g' hash hj hheld
    rcases getElem?_snoc_cases hj with hold | ⟨-, rfl⟩
    · exact h.client j g' hash hold hheld
    · rw [firstPhase_held] at hheld
      cases hheld
  | sweptRefreshTokens p =>
    intro j g' hash hj hheld rt' hrt'
    exact h.client j g' hash hj hheld rt' (List.mem_of_mem_filter hrt')
  | _ => exact h.client

structure Rotating (env : OAuthEnv) (s : OAuth) : Prop where
  spent : Spent s
  bound : Bound env s
  keyed : Keyed s
  owned : Owned env s

theorem rotating_start (env : OAuthEnv) (now : Time) : Rotating env (start now) where
  spent := spent_start now
  bound := bound_start env now
  keyed := by constructor <;> simp [start]
  owned := by constructor <;> simp [start, HeldOfClient]

theorem rotating_step (h : Rotating env s) (hstep : step env s e = some s') : Rotating env s' where
  spent := spent_step h.spent hstep
  bound := bound_step h.bound hstep
  keyed := keyed_step h.keyed hstep
  owned := {
    own := own_step h.owned hstep
    client := by
      rcases step_cases hstep with hstore | ⟨i, g, e', -, hi, hgrant⟩
      · exact owned_storeStep h.owned hstore
      · exact owned_grantStep h.owned h.spent h.keyed h.bound hi hgrant }

theorem rotating_run {now : Time} (h : Run (step env) (fun _ _ => True) (start now) s) :
    Rotating env s :=
  h.invariant (rotating_start env now) fun _ _ _ hinv _ hstep => rotating_step hinv hstep

/-! ## The retry -/

theorem spared_refreshGrant_iff {draws : Draws} {req : TokenRequest} (hkeyed : Keyed s)
    (hreq : req.Presents) (hclient : ∀ rt ∈ s.refreshTokens,
      rt.tokenHash = env.sha256Hex req.refreshToken → rt.clientId = req.clientId) :
    Spared s (refreshGrant env draws s req) ↔ ∀ rt ∈ s.refreshTokens,
      rt.tokenHash = env.sha256Hex req.refreshToken → rt.usedAt = none := by
  have hfull : ¬(decide (req.refreshToken = "") || decide (req.clientId = "")) = true := by
    simpa [TokenRequest.Presents] using hreq
  unfold refreshGrant
  rw [if_neg hfull]
  dsimp only
  split
  · next hnone =>
    refine ⟨fun _ rt hrt hhash => ?_, fun _ => .inr rfl⟩
    exact absurd (List.find?_eq_none.mp hnone rt hrt) (by simp [hhash])
  · next rt hsome =>
    have hrt := List.mem_of_find?_eq_some hsome
    have hhash : rt.tokenHash = env.sha256Hex req.refreshToken := by
      simpa using List.find?_some hsome
    have honly : (∀ row ∈ s.refreshTokens,
        row.tokenHash = env.sha256Hex req.refreshToken → row.usedAt = none) ↔ rt.usedAt = none := by
      refine ⟨fun h => h rt hrt hhash, fun h row hrow hrowhash => ?_⟩
      rwa [List.inj_on_of_nodup_map hkeyed.hashes hrow hrt (hrowhash.trans hhash.symm)]
    rw [if_neg (not_not.mpr (hclient rt hrt hhash)), honly]
    split
    · next hused =>
      refine ⟨fun h => ?_, fun h => ?_⟩
      · -- the family's rows are gone, the presented one among them
        rcases h with ⟨access, refresh, hanswer⟩ | hstate
        · cases hanswer
        · have hsame : s.revokeFamily rt = s := hstate
          have hmem : rt ∈ (s.revokeFamily rt).refreshTokens := hsame.symm ▸ hrt
          simpa using (List.mem_filter.mp hmem).2
      · rw [h] at hused
        cases hused
    · next hunused =>
      refine ⟨fun _ => by simpa using hunused, fun _ => ?_⟩
      split
      · exact .inr rfl
      · exact .inl ⟨_, _, rfl⟩

theorem of_failing {p : FailurePoint} {tookEffect : Bool} {draws : Draws}
    (h : steps (step env) s ((p.failing draws tookEffect).map (.grant i)) = some s') :
    ∃ u, step env s (.grant i (p.statement draws tookEffect)) = some u ∧
      s'.refreshTokens = u.refreshTokens := by
  simp only [FailurePoint.failing, List.map_cons, List.map_nil, steps] at h
  split at h
  · cases h
  · next u hu =>
    refine ⟨u, hu, ?_⟩
    split at h
    · cases h
    · next v hv =>
      cases h
      obtain ⟨g, hi, hg⟩ := Option.bind_eq_some_iff.mp hv
      cases hph : g.phase <;>
      · rw [hph] at hg
        cases hg
        rfl

theorem markRefreshUsed_of_used {hash : String} (h : ¬s.unused hash = true) :
    (s.markRefreshUsed hash).refreshTokens = s.refreshTokens := by
  refine Table.update_of_find?_none (List.find?_eq_none.mpr fun rt hrt hcond => h ?_)
  exact List.any_eq_true.mpr ⟨rt, hrt, hcond⟩

theorem of_mark {ok : Bool} (hi : s.grants[i]? = some g)
    (h : step env s (.grant i (.mark ok)) = some s') :
    ∃ rt, g.phase = .marking rt ∧ s'.refreshTokens =
      if ok then (s.markRefreshUsed rt.tokenHash).refreshTokens else s.refreshTokens := by
  simp only [step, hi, Option.bind_some] at h
  generalize hph : g.phase = ph at h
  cases ph with
  | marking rt =>
    refine ⟨rt, rfl, ?_⟩
    simp only [stepGrant] at h
    cases ok with
    | false =>
      cases h
      rfl
    | true =>
      split at h
      · cases h
        rfl
      · next hmark =>
        cases h
        exact (markRefreshUsed_of_used hmark).symm
  | _ => cases h

theorem of_past {p : FailurePoint} {tookEffect : Bool} {draws : Draws} (hp : p ≠ .mark)
    (hi : s.grants[i]? = some g) (hown : g.req.Owns env g.phase)
    (hreq : g.req.grantType = "refresh_token")
    (h : step env s (.grant i (p.statement draws tookEffect)) = some s') :
    g.req.Presents ∧ g.phase.held = some (.refresh (env.sha256Hex g.req.refreshToken)) ∧
      (∀ rt ∈ s.refreshTokens, rt ∈ s'.refreshTokens) ∧
      ∀ rt ∈ s'.refreshTokens, rt ∈ s.refreshTokens ∨ .refresh rt.tokenHash ∉ s.drawn := by
  simp only [step, hi, Option.bind_some] at h
  generalize g.phase = ph at h hown
  have hissue : ∀ args : Issue, (g.req.grantType = "authorization_code" ∨
      (g.req.Presents ∧ args.presented = .refresh (env.sha256Hex g.req.refreshToken))) →
      g.req.Presents ∧ some args.presented = some (.refresh (env.sha256Hex g.req.refreshToken)) := by
    rintro args (hcode | ⟨hpresents, heq⟩)
    · exact absurd (hreq.symm.trans hcode) (by decide)
    · exact ⟨hpresents, congrArg some heq⟩
  cases p with
  | mark => exact absurd rfl hp
  | mint =>
    cases ph with
    | minting args at' =>
      simp only [FailurePoint.statement, stepGrant] at h
      obtain ⟨hpresents, hheld⟩ := hissue args hown
      refine ⟨hpresents, hheld, ?_⟩
      split at h <;> cases h <;> exact ⟨fun _ hrt => hrt, fun _ hrt => .inl hrt⟩
    | _ => cases h
  | insert =>
    cases ph with
    | inserting args =>
      simp only [FailurePoint.statement, stepGrant] at h
      obtain ⟨hpresents, hheld⟩ := hissue args hown
      refine ⟨hpresents, hheld, ?_⟩
      split at h
      · cases h
        exact ⟨fun _ hrt => hrt, fun _ hrt => .inl hrt⟩
      · split at h
        · cases h
        · next hfresh =>
          cases h
          refine ⟨fun _ hrt => List.mem_append_left _ hrt, fun rt hrt => ?_⟩
          rcases List.mem_append.mp hrt with hold | hnew
          · exact .inl hold
          · rw [List.mem_singleton.mp hnew]
            exact .inr fun hmem => hfresh (List.contains_iff_mem.mpr hmem)
    | _ => cases h

theorem spared_iff_of_mark {rt : RefreshToken} {tookEffect : Bool} {draws : Draws}
    (hinv : Rotating env s) (hkeyed : Keyed s') (hi : s.grants[i]? = some g)
    (hph : g.phase = .marking rt) (hrows : s'.refreshTokens =
      if tookEffect then (s.markRefreshUsed rt.tokenHash).refreshTokens else s.refreshTokens) :
    Spared s' (refreshGrant env draws s' g.req) ↔ ∀ rt ∈ s.refreshTokens,
      rt.tokenHash = env.sha256Hex g.req.refreshToken →
        tookEffect = false ∧ rt.usedAt = none := by
  have hclient := client_of_marking hinv.keyed hinv.bound hi hph
  have hown := hinv.owned.own i g hi
  rw [hph] at hown
  obtain ⟨hpresents, hhash, hreqclient⟩ := hown
  rw [hhash] at hclient hrows
  rw [hreqclient] at hclient
  cases tookEffect with
  | false =>
    rw [if_neg Bool.false_ne_true] at hrows
    rw [spared_refreshGrant_iff hkeyed hpresents (hrows ▸ hclient), hrows]
    simp only [true_and]
  | true =>
    rw [if_pos rfl] at hrows
    have hold : ∀ rt' ∈ s'.refreshTokens, ∃ old ∈ s.refreshTokens,
        old.tokenHash = rt'.tokenHash ∧ old.clientId = rt'.clientId := by
      intro rt' hrt'
      rw [hrows] at hrt'
      rcases Table.mem_update hrt' with hmem | ⟨old, hmem, -, rfl⟩
      · exact ⟨rt', hmem, rfl, rfl⟩
      · exact ⟨old, hmem, rfl, rfl⟩
    rw [spared_refreshGrant_iff hkeyed hpresents]
    · refine ⟨fun hall row hrow hrowhash => ?_, fun hnone rt' hrt' hhash' => ?_⟩
      · -- the row is in the table still, and marked
        obtain ⟨row', hrow', hsame, hused⟩ : ∃ row' ∈ s'.refreshTokens,
            row'.tokenHash = row.tokenHash ∧ row'.usedAt ≠ none := by
          rw [hrows]
          refine ⟨_, List.mem_map_of_mem hrow, ?_⟩
          split
          · exact ⟨rfl, Option.some_ne_none _⟩
          · next hcond => exact ⟨rfl, fun hunused => hcond (by simp [hrowhash, hunused])⟩
        exact absurd (hall row' hrow' (hsame.trans hrowhash)) hused
      · obtain ⟨old, hmem, hsame, -⟩ := hold rt' hrt'
        cases (hnone old hmem (hsame.trans hhash')).1
    · intro rt' hrt' hhash'
      obtain ⟨old, hmem, hsame, hsameclient⟩ := hold rt' hrt'
      exact hsameclient.symm.trans (hclient old hmem (hsame.trans hhash'))

theorem spared_iff_of_past {draws : Draws} (hinv : Rotating env s) (hkeyed : Keyed s')
    (hi : s.grants[i]? = some g) (hpresents : g.req.Presents)
    (hheld : g.phase.held = some (.refresh (env.sha256Hex g.req.refreshToken)))
    (hkept : ∀ rt ∈ s.refreshTokens, rt ∈ s'.refreshTokens)
    (hold : ∀ rt ∈ s'.refreshTokens, rt ∈ s.refreshTokens ∨ .refresh rt.tokenHash ∉ s.drawn) :
    Spared s' (refreshGrant env draws s' g.req) ↔
      ∀ rt ∈ s.refreshTokens, rt.tokenHash ≠ env.sha256Hex g.req.refreshToken := by
  obtain ⟨⟨hdrawn, hnotLive⟩, -⟩ := hinv.spent.held i g _ hi hheld
  have hmem : ∀ rt ∈ s'.refreshTokens, rt.tokenHash = env.sha256Hex g.req.refreshToken →
      rt ∈ s.refreshTokens := by
    intro rt hrt hhash
    rcases hold rt hrt with hmem | hundrawn
    · exact hmem
    · rw [hhash] at hundrawn
      exact absurd hdrawn hundrawn
  rw [spared_refreshGrant_iff hkeyed hpresents fun rt hrt hhash =>
    hinv.owned.client i g _ hi hheld rt (hmem rt hrt hhash) hhash]
  refine ⟨fun hall rt hrt hhash => ?_, fun hnone rt hrt hhash => ?_⟩
  · exact hnotLive ⟨rt, hrt, hhash, hall rt (hkept rt hrt) hhash⟩
  · exact absurd hhash (hnone rt (hmem rt hrt hhash))

/-- **A retry is spared exactly when no row of its token is left, or the failing statement was
the mark, it did not take effect, and no other request has marked the token.** -/
theorem retry_spared_iff {now t : Time} {p : FailurePoint} {tookEffect : Bool}
    {draws retried : Draws} (hrun : Run (step env) (fun _ _ => True) (start now) s)
    (hi : s.grants[i]? = some g) (hreq : g.req.grantType = "refresh_token")
    (hfail : steps (step env) s ((p.failing draws tookEffect).map (.grant i)) = some s') :
    Spared { s' with now := t } (refreshGrant env retried { s' with now := t } g.req) ↔
      ∀ rt ∈ s.refreshTokens, rt.tokenHash = env.sha256Hex g.req.refreshToken →
        p = .mark ∧ tookEffect = false ∧ rt.usedAt = none := by
  have hinv := rotating_run hrun
  have hinv' := rotating_run (hrun.trans (.of_steps hfail))
  have hkeyed : Keyed { s' with now := t } :=
    ⟨hinv'.keyed.hashes, hinv'.keyed.drawn, hinv'.keyed.read⟩
  obtain ⟨u, hu, hrows⟩ := of_failing hfail
  by_cases hp : p = .mark
  · subst hp
    obtain ⟨rt, hph, hrowsu⟩ := of_mark hi hu
    rw [spared_iff_of_mark hinv hkeyed hi hph (hrows.trans hrowsu)]
    simp only [true_and]
  · obtain ⟨hpresents, hheld, hkept, hold⟩ := of_past hp hi (hinv.owned.own i g hi) hreq hu
    rw [← hrows] at hkept hold
    rw [spared_iff_of_past hinv hkeyed hi hpresents hheld hkept hold]
    simp only [hp, false_and, imp_false, ne_eq]

namespace One

def draws : Draws := ⟨2, "sm_live_second", 0, "refresh2"⟩

/-- The connection's first refresh. -/
theorem steps_refreshGrant_connected :
    ∃ s, Run (step plainEnv) (fun _ _ => True) (start 0) s ∧ s.refreshTokens ≠ [] ∧
      ∃ es : List GrantEvent, steps (step plainEnv) s (.token (refreshRequest "refresh1") ::
        es.map (.grant s.grants.length)) =
          some ((refreshGrant plainEnv draws s (refreshRequest "refresh1")).1.alone
            (refreshRequest "refresh1") .done) := by
  have hrun : (steps (step plainEnv) (start 0) connecting).any (fun s =>
      !s.refreshTokens.isEmpty && !s.drawn.contains (.refresh draws.refresh)) = true := by
    decide +kernel
  obtain ⟨s, hs, hcond⟩ := (Option.any_eq_true _ _).mp hrun
  obtain ⟨htokens, hfresh⟩ := Bool.and_eq_true_iff.mp hcond
  refine ⟨s, .of_steps hs, by simpa using htokens, steps_refreshGrant rfl ?_⟩
  show Secret.refresh draws.refresh ∉ s.drawn
  simpa using hfresh

def retried : Draws := ⟨3, "sm_live_third", 0, "refresh3"⟩

/-- The first refresh of the connection, about to mark its token. -/
def marking : List OAuthEvent :=
  connecting ++
  ([.token (refreshRequest "refresh1"), .grant 1 (.lookup true), .grant 1 (.check 0)] :
    List OAuthEvent)

/-- Its mark fails without effect, and the retry gets its tokens or is refused. -/
theorem retry_spared_iff_mark :
    ∃ s s' g, Run (step plainEnv) (fun _ _ => True) (start 0) s ∧ s.grants[1]? = some g ∧
      g.req = refreshRequest "refresh1" ∧
      steps (step plainEnv) s ((FailurePoint.mark.failing draws false).map (.grant 1)) = some s' ∧
      Spared { s' with now := seconds 9 }
        (refreshGrant plainEnv retried { s' with now := seconds 9 } g.req) := by
  have hrun : ((steps (step plainEnv) (start 0) marking).any fun s => s.grants[1]?.any fun g =>
      decide (g.req = refreshRequest "refresh1") && s.refreshTokens.all (·.usedAt.isNone) &&
      (steps (step plainEnv) s
        ((FailurePoint.mark.failing draws false).map (.grant 1))).isSome) = true := by
    decide +kernel
  obtain ⟨s, hs, hcond⟩ := (Option.any_eq_true _ _).mp hrun
  obtain ⟨g, hi, hcond⟩ := (Option.any_eq_true _ _).mp hcond
  simp only [Bool.and_eq_true, decide_eq_true_eq, List.all_eq_true,
    Option.isNone_iff_eq_none] at hcond
  obtain ⟨⟨hreq, hunused⟩, hfail⟩ := hcond
  obtain ⟨s', hfail⟩ := Option.isSome_iff_exists.mp hfail
  refine ⟨s, s', g, .of_steps hs, hi, hreq, hfail, ?_⟩
  refine (retry_spared_iff (.of_steps hs) hi (by rw [hreq]; rfl) hfail).mpr fun rt hrt _ => ?_
  exact ⟨rfl, rfl, hunused rt hrt⟩

/-- The mint fails after the mark.  Nobody else has the token, but its client's retry is taken
for a theft, and the connection is gone. -/
theorem retry_revokes_family :
    ∃ s s' u answer, Run (step plainEnv) (fun _ _ => True) (start 0) s ∧
      steps (step plainEnv) s ((FailurePoint.mint.failing draws false).map (.grant 1)) = some s' ∧
      refreshGrant plainEnv retried s' (refreshRequest "refresh1") = (u, answer) ∧
      answer = .invalidGrant ∧ s'.revoked = [] ∧ u.revoked = [7] ∧ u.refreshTokens = [] ∧
      u.apiTokens = [] := by
  have hrun : ((steps (step plainEnv) (start 0) (marking ++
      ([.grant 1 (.mark true), .grant 1 .issue] : List OAuthEvent))).any fun s =>
      (steps (step plainEnv) s
        ((FailurePoint.mint.failing draws false).map (.grant 1))).any fun s' =>
        decide (s'.revoked = [] ∧
          (refreshGrant plainEnv retried s' (refreshRequest "refresh1")).2 = .invalidGrant ∧
          (refreshGrant plainEnv retried s' (refreshRequest "refresh1")).1.revoked = [7] ∧
          (refreshGrant plainEnv retried s' (refreshRequest "refresh1")).1.refreshTokens = [] ∧
          (refreshGrant plainEnv retried s' (refreshRequest "refresh1")).1.apiTokens = [])) =
        true := by
    decide +kernel
  obtain ⟨s, hs, hcond⟩ := (Option.any_eq_true _ _).mp hrun
  obtain ⟨s', hs', hcond⟩ := (Option.any_eq_true _ _).mp hcond
  obtain ⟨hbefore, hanswer, hrest⟩ := of_decide_eq_true hcond
  exact ⟨s, s', _, _, .of_steps hs, hs', rfl, hanswer, hbefore, hrest⟩

end One

end OAuth
end Uptimepage
