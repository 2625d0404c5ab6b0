import Mathlib.Data.List.Infix
import Uptimepage.Async.Tasks
import Uptimepage.Domain.Channel
import Uptimepage.Domain.Text
import Uptimepage.Sql.Rows
import Uptimepage.Text.Delimited

/-!
# Proved addresses of email channels

An email channel delivers while it is enabled and its address is proved: by a click on the mailed
link, by being a member's own, or by the signup that seeded it.  A recipient's stop and a bounce
disable the channel and take the proof away, but only where they find it enabled
(`stopped_inbox_resumes`, `stopped_inbox_stays_stopped`).
-/

namespace Uptimepage.ChannelVerification

open Async Sql

/-! ## Email addresses -/

/-- `address` is the source's `to`. -/
structure EmailConfig where
  address : String
deriving DecidableEq

def MAX_EMAIL_LEN : Nat := 254

namespace EmailConfig

def normalize (cfg : EmailConfig) : EmailConfig := ⟨toAsciiLowercase (trim cfg.address)⟩

def validate (cfg : EmailConfig) : Except String Unit :=
  let a := cfg.address.toList
  if a.isEmpty then .error "to address is required"
  else if cfg.address.utf8ByteSize > MAX_EMAIL_LEN then
    .error s!"to address must be at most {MAX_EMAIL_LEN} characters"
  else if a.any fun c => isWhitespace c || isControl c then
    .error "to address must not contain whitespace"
  else if a.any Char.isUpper then .error "to address must be lowercase"
  else
    match Delimited.splitOnce '@' a with
    | none => .error "to address is not a valid email"
    | some (mailbox, domain) =>
      if mailbox.isEmpty || decide ((String.ofList mailbox).utf8ByteSize > 64) ||
          domain.contains '@' then
        .error "to address is not a valid email"
      else if !domain.contains '.' || decide (['.', '.'] <:+: domain) || domain.head? == some '.' ||
          domain.getLast? == some '.' then
        .error "to address is not a valid email"
      else .ok ()

theorem lower_of_validate {cfg : EmailConfig} (h : cfg.validate = .ok ()) :
    toAsciiLowercase cfg.address = cfg.address := by
  apply toAsciiLowercase_eq_self
  intro c hc
  unfold validate at h
  dsimp only at h
  split at h
  · cases h
  split at h
  · cases h
  split at h
  · cases h
  split at h
  · cases h
  · next hupper =>
    rw [Bool.eq_false_iff]
    intro hc'
    exact hupper (List.any_eq_true.mpr ⟨c, hc, hc'⟩)

end EmailConfig

def eqIgnoreAsciiCase (a b : String) : Bool := toAsciiLowercase a == toAsciiLowercase b

theorem eqIgnoreAsciiCase_refl (a : String) : eqIgnoreAsciiCase a a = true := beq_self_eq_true _

/-! ## Channels -/

/-- The settings of the other kinds are not looked into. -/
inductive ChannelConfig
  | email (cfg : EmailConfig)
  | other (kind : { k : ChannelKind // k ≠ .email }) (settings : String)
    (lifecycleRef : Option String)
deriving DecidableEq

namespace ChannelConfig

def kind : ChannelConfig → ChannelKind
  | email _ => .email
  | other kind _ _ => kind

def lifecycleRef : ChannelConfig → Option String
  | email cfg => some cfg.address
  | other _ _ ref => ref

def normalize : ChannelConfig → ChannelConfig
  | email cfg => email cfg.normalize
  | config => config

def validate : ChannelConfig → Except String Unit
  | email cfg => cfg.validate
  | other _ _ _ => .ok ()

/-- Whether an event at an address is at this channel's. -/
def isAt (address : String) : ChannelConfig → Bool
  | email cfg => eqIgnoreAsciiCase cfg.address address
  | other _ _ _ => false

end ChannelConfig

/-- A row of `notification_channels`.  `writtenAt`, not in the source, is the number of the write
of its config. -/
structure Channel where
  id : Uuid
  orgId : OrgId
  config : ChannelConfig
  externalRef : Option String
  enabled : Bool
  disabledReason : Option String
  verifiedAt : Option Time
  updatedAt : Nat
  writtenAt : Nat
deriving DecidableEq

namespace Channel

def awaitingVerification (ch : Channel) : Bool := ch.config.kind == .email && ch.verifiedAt.isNone

def canDeliver (ch : Channel) : Bool := ch.enabled && !ch.awaitingVerification

/-- The assignments of `update`. -/
def edit (number : Nat) (config : Option ChannelConfig) (enabled : Option Bool) (ch : Channel) :
    Channel :=
  { ch with
    config := config.getD ch.config
    enabled := enabled.getD ch.enabled
    disabledReason := if enabled = some true then none else ch.disabledReason
    verifiedAt := if config.isSome then none else ch.verifiedAt
    externalRef := match config with
      | some c => c.lifecycleRef
      | none => ch.externalRef
    updatedAt := number
    writtenAt := if config.isSome then number else ch.writtenAt }

def verify (number : Nat) (now : Time) (ch : Channel) : Channel :=
  { ch with verifiedAt := some now, updatedAt := number }

def disable (number : Nat) (reason : String) (ch : Channel) : Channel :=
  { ch with
    enabled := false
    verifiedAt := none
    disabledReason := some reason
    updatedAt := number }

theorem edit_id (number : Nat) (config : Option ChannelConfig) (enabled : Option Bool)
    (ch : Channel) : (ch.edit number config enabled).id = ch.id := rfl

theorem verify_id (number : Nat) (now : Time) (ch : Channel) :
    (ch.verify number now).id = ch.id := rfl

theorem disable_id (number : Nat) (reason : String) (ch : Channel) :
    (ch.disable number reason).id = ch.id := rfl

end Channel

/-- A row of `channel_verification_tokens`. -/
structure Token where
  orgId : OrgId
  channelId : Uuid
  email : String
  tokenHash : String
  expiresAt : Time
  usedAt : Option Time
deriving DecidableEq

theorem Token.use_hash (now : Time) (t : Token) :
    ({ t with usedAt := some now } : Token).tokenHash = t.tokenHash := rfl

def VERIFICATION_TTL_HOURS : Int := 24

structure ConsumedToken where
  orgId : OrgId
  channelId : Uuid
  email : String
deriving DecidableEq

structure Proof where
  channelId : Uuid
  address : String
  number : Nat
deriving DecidableEq

/-- `events` numbers what happens to the channels; `proofs` and `stops` are not in the source, and
log the proofs, and the stops and bounces that were handled. -/
structure Store where
  now : Time
  channels : Rows Channel.id
  tokens : Rows Token.tokenHash
  nextId : Nat
  events : Nat
  proofs : List Proof
  stops : List (Uuid × Nat)

namespace Store

def get (st : Store) (org : OrgId) (id : Uuid) : Option Channel :=
  (st.channels.get? id).filter fun ch => ch.orgId == org

def create (st : Store) (org : OrgId) (config : ChannelConfig) (enabled : Bool) :
    Channel × Store :=
  let ch : Channel :=
    { id := st.nextId, orgId := org, config, externalRef := config.lifecycleRef, enabled
      disabledReason := none, verifiedAt := none, updatedAt := st.events
      writtenAt := st.events }
  (ch, { st with
    channels := st.channels.insert ch
    nextId := st.nextId + 1
    events := st.events + 1 })

/-- Seeded pre-verified: the signup has proved the inbox. -/
def seedOwnerEmail (st : Store) (org : OrgId) (address : String) : Store :=
  let address := toAsciiLowercase (trim address)
  { st with
    channels := st.channels.insert
      { id := st.nextId, orgId := org, config := .email ⟨address⟩, externalRef := some address
        enabled := true, disabledReason := none, verifiedAt := some st.now
        updatedAt := st.events, writtenAt := st.events }
    nextId := st.nextId + 1
    events := st.events + 1
    proofs := st.proofs ++ [⟨st.nextId, address, st.events⟩] }

def update (st : Store) (org : OrgId) (id : Uuid) (config : Option ChannelConfig)
    (enabled : Option Bool) : Option (Channel × Store) :=
  (st.get org id).map fun ch =>
    (ch.edit st.events config enabled,
      { st with
        channels := st.channels.update (fun r => r.id == id)
          (Channel.edit st.events config enabled) (Channel.edit_id st.events config enabled)
        events := st.events + 1 })

def delete (st : Store) (org : OrgId) (id : Uuid) : Store :=
  { st with channels := st.channels.delete fun r => r.id == id && r.orgId == org }

def disableByExternalRef (st : Store) (kind : ChannelKind) (ref reason : String) : Store :=
  { st with
    channels := st.channels.update
      (fun r => r.config.kind == kind && r.externalRef == some ref && r.enabled)
      (Channel.disable st.events reason) (Channel.disable_id st.events reason)
    events := st.events + 1
    stops := st.stops ++ (st.channels.rows.filter fun r => r.config.isAt ref).map
      fun r => (r.id, st.events) }

def disableSelfService (st : Store) (id : Uuid) (reason : String) : Store :=
  { st with
    channels := st.channels.update (fun r => r.id == id && r.enabled)
      (Channel.disable st.events reason) (Channel.disable_id st.events reason)
    events := st.events + 1
    stops := st.stops ++ [(id, st.events)] }

/-- The rows that `set_verified` matches. -/
def provable (org : OrgId) (id : Uuid) (expected : Nat) (r : Channel) : Bool :=
  r.id == id && r.orgId == org && r.config.kind == .email && r.updatedAt == expected

/-- `address` is what the caller proved. -/
def setVerified (st : Store) (org : OrgId) (id : Uuid) (expected : Nat) (address : String) :
    Option Store :=
  if st.channels.rows.any (provable org id expected) then
    some { st with
      channels := st.channels.update (provable org id expected)
        (Channel.verify st.events st.now) (Channel.verify_id st.events st.now)
      events := st.events + 1
      proofs := st.proofs ++ [⟨id, address, st.events⟩] }
  else none

def mint (st : Store) (org : OrgId) (id : Uuid) (email hash : String) : Store :=
  { st with
    tokens := st.tokens.insert
      { orgId := org, channelId := id, email, tokenHash := hash
        expiresAt := st.now + seconds (VERIFICATION_TTL_HOURS * 3600), usedAt := none } }

def consume (st : Store) (hash : String) : Option (ConsumedToken × Store) :=
  ((st.tokens.get? hash).filter fun t => t.usedAt.isNone && decide (t.expiresAt > st.now)).map
    fun t => (⟨t.orgId, t.channelId, t.email⟩,
      { st with
        tokens := st.tokens.update (fun t' => t'.tokenHash == hash)
          (fun t' => { t' with usedAt := some st.now }) (Token.use_hash st.now) })

end Store

/-! ## The requests -/

def STOP_REASON : String := "recipient stopped delivery"

def HARD_BOUNCE_NOTE : String := "the email address hard-bounced"

def COMPLAINT_NOTE : String := "the recipient reported our mail as spam"

inductive Request
  | create (org : OrgId) (config : ChannelConfig) (enabled : Bool)
  | seed (org : OrgId) (address : String)
  | update (org : OrgId) (id : Uuid) (config : Option ChannelConfig) (enabled : Option Bool)
  | delete (org : OrgId) (id : Uuid)
  | resend (org : OrgId) (id : Uuid)
  | click (hash : String)
  | stop (id : Uuid)
  | bounced (address : String)
  | complained (address : String)
deriving DecidableEq

inductive Phase
  | creating (org : OrgId) (config : ChannelConfig) (enabled : Bool)
  | seeding (org : OrgId) (address : String)
  | comparing (org : OrgId) (id : Uuid) (config : ChannelConfig) (enabled : Option Bool)
  /-- `replaced`: the request has a config. -/
  | updating (org : OrgId) (id : Uuid) (config : Option ChannelConfig) (enabled : Option Bool)
    (replaced : Bool)
  /-- The look-up of `fast_verify_member_email`. -/
  | lookingUp (org : OrgId) (id : Uuid) (address : String) (expected : Nat)
  /-- `mails`: for a member, whose channel gets the mail if this fails. -/
  | verifying (org : OrgId) (id : Uuid) (address : String) (expected : Nat) (mails : Bool)
  | deleting (org : OrgId) (id : Uuid)
  | reading (org : OrgId) (id : Uuid)
  | minting (org : OrgId) (id : Uuid) (email : String)
  | consuming (hash : String)
  | resolving (consumed : ConsumedToken)
  | stopping (id : Uuid)
  | bouncing (address note : String)
  | done
deriving DecidableEq

/-- A config that does not validate is refused. -/
def admitted (config : ChannelConfig) (next : ChannelConfig → Phase) : Phase :=
  match config.normalize.validate with
  | .ok () => next config.normalize
  | .error _ => .done

def Request.first : Request → Phase
  | create org config enabled => admitted config fun config => .creating org config enabled
  | seed org address => .seeding org address
  | update org id (some config) enabled =>
    admitted config fun config => .comparing org id config enabled
  | update org id none enabled => .updating org id none enabled false
  | delete org id => .deleting org id
  | resend org id => .reading org id
  | click hash => .consuming hash
  | stop id => .stopping id
  | bounced address => .bouncing (toAsciiLowercase address) HARD_BOUNCE_NOTE
  | complained address => .bouncing (toAsciiLowercase address) COMPLAINT_NOTE

inductive Choice
  | ok
  /-- The call fails, or is refused by a cap or a gate. -/
  | fails
  /-- Whether the address is a member's confirmed one. -/
  | answers (isMember : Bool)
  | draw (hash : String)
deriving DecidableEq

/-- `fast_verify_member_email` up to its look-up; what needs no proof gets no mail either. -/
def fastVerify (ch : Channel) : Phase :=
  match ch.config with
  | .email cfg => if ch.awaitingVerification then .lookingUp ch.orgId ch.id cfg.address ch.updatedAt
    else .done
  | .other _ _ _ => .done

def next (st : Store) : Phase → Choice → Option (Store × Phase)
  | .done, _ => none
  -- a config that cannot be read is replaced
  | .comparing org id config enabled, .fails =>
    some (st, .updating org id (some config) enabled true)
  | _, .fails => some (st, .done)
  | .creating org config enabled, .ok =>
    let (ch, st') := st.create org config enabled
    some (st', fastVerify ch)
  | .seeding org address, .ok => some (st.seedOwnerEmail org address, .done)
  | .comparing org id config enabled, .ok =>
    let same := (st.get org id).any fun current => current.config == config
    some (st, .updating org id (if same then none else some config) enabled true)
  | .updating org id config enabled replaced, .ok =>
    match st.update org id config enabled with
    | some (ch, st') => some (st', if replaced then fastVerify ch else .done)
    | none => some (st, .done)
  | .lookingUp org id address expected, .answers isMember =>
    some (st, if isMember then .verifying org id address expected true
      else .minting org id address)
  | .verifying org id address expected mails, .ok =>
    match st.setVerified org id expected address with
    | some st' => some (st', .done)
    | none => some (st, if mails then .minting org id address else .done)
  | .deleting org id, .ok => some (st.delete org id, .done)
  | .reading org id, .ok =>
    some (st, match st.get org id with
      | some ch => match ch.config with
        | .email cfg => if ch.awaitingVerification then .minting org ch.id cfg.address else .done
        | .other _ _ _ => .done
      | none => .done)
  | .minting org id email, .draw hash =>
    if (st.tokens.get? hash).isSome then none else some (st.mint org id email hash, .done)
  | .consuming hash, .ok =>
    match st.consume hash with
    | some (consumed, st') => some (st', .resolving consumed)
    | none => some (st, .done)
  | .resolving consumed, .ok =>
    some (st, match st.get consumed.orgId consumed.channelId with
      | some ch => match ch.config with
        | .email cfg =>
          if eqIgnoreAsciiCase cfg.address consumed.email then
            .verifying consumed.orgId ch.id consumed.email ch.updatedAt false
          else .done
        | .other _ _ _ => .done
      | none => .done)
  | .stopping id, .ok => some (st.disableSelfService id STOP_REASON, .done)
  | .bouncing address note, .ok => some (st.disableByExternalRef .email address note, .done)
  | _, _ => none

def program : Program Store Phase Request Choice Nat where
  first := Request.first
  next := next
  outer := fun st passed => { st with now := st.now + passed }

/-- A stop finds the channel enabled, or its address not proved. -/
def Channel.hears (ch : Channel) : Bool := ch.enabled || ch.verifiedAt.isNone

/-- So does every stop that is handled, and every bounce. -/
def heard (s : Pooled Store Phase) : Act Request Choice Nat → Bool
  | .go i .ok =>
    match s.tasks[i]? with
    | some (.stopping id) => (s.store.channels.get? id).all Channel.hears
    | some (.bouncing address _) =>
      s.store.channels.rows.all fun r => !r.config.isAt address || r.hears
    | _ => true
  | _ => true

/-! ## The invariant -/

/-- The address is stored as its bounces are looked up. -/
def ChannelConfig.Lowered (config : ChannelConfig) : Prop :=
  ∀ cfg, config = .email cfg → toAsciiLowercase cfg.address = cfg.address

/-- A channel that still bears the number it was read with has the address. -/
def Current (st : Store) (id : Uuid) (address : String) (expected : Nat) : Prop :=
  expected < st.events ∧ ∀ r ∈ st.channels.rows, r.id = id → r.updatedAt = expected →
    ∃ cfg, r.config = .email cfg ∧ eqIgnoreAsciiCase address cfg.address = true

def Phase.Fits (st : Store) : Phase → Prop
  | creating _ config _ | comparing _ _ config _ | updating _ _ (some config) _ _ => config.Lowered
  | lookingUp _ id address expected | verifying _ id address expected _ =>
    Current st id address expected
  | bouncing address _ => toAsciiLowercase address = address
  | _ => True

/-- The address of a channel was proved after it was written and after the channel was stopped. -/
def Proved (st : Store) (r : Channel) (cfg : EmailConfig) : Prop :=
  ∃ p ∈ st.proofs, p.channelId = r.id ∧ eqIgnoreAsciiCase p.address cfg.address = true ∧
    r.writtenAt ≤ p.number ∧ ∀ stop ∈ st.stops, stop.1 = r.id → stop.2 < p.number

structure Channel.Kept (st : Store) (r : Channel) : Prop where
  issued : r.id < st.nextId
  lowered : r.config.Lowered
  mirrored : ∀ cfg, r.config = .email cfg → r.externalRef = some cfg.address
  updated : r.updatedAt < st.events
  written : r.writtenAt < st.events

structure Sound (s : Pooled Store Phase) : Prop where
  fits : ∀ q ∈ s.tasks, q.Fits s.store
  rows : ∀ r ∈ s.store.channels.rows, r.Kept s.store
  stops : ∀ stop ∈ s.store.stops, stop.2 < s.store.events
  proved : ∀ r ∈ s.store.channels.rows, ∀ cfg, r.config = .email cfg → r.verifiedAt ≠ none →
    Proved s.store r cfg

section

variable {s s' : Pooled Store Phase} {i : Nat} {p p' : Phase} {st st' : Store} {org : OrgId}
  {id : Uuid} {address : String} {config : ChannelConfig} {cfg : EmailConfig} {r r' : Channel}

theorem Channel.Kept.mono (h : r.Kept st) (hnext : st.nextId ≤ st'.nextId)
    (hle : st.events ≤ st'.events) : r.Kept st' :=
  ⟨Nat.lt_of_lt_of_le h.issued hnext, h.lowered, h.mirrored, Nat.lt_of_lt_of_le h.updated hle,
    Nat.lt_of_lt_of_le h.written hle⟩

theorem Current.mono (h : Current st id address n) (hle : st.events ≤ st'.events)
    (hrows : ∀ r ∈ st'.channels.rows, r ∈ st.channels.rows ∨ st.events ≤ r.updatedAt) :
    Current st' id address n := by
  refine ⟨Nat.lt_of_lt_of_le h.1 hle, ?_⟩
  intro r hr hid hn
  rcases hrows r hr with hold | hnew
  · exact h.2 r hold hid hn
  · have := h.1
    omega

theorem Phase.Fits.mono {q : Phase} (h : q.Fits st) (hle : st.events ≤ st'.events)
    (hrows : ∀ r ∈ st'.channels.rows, r ∈ st.channels.rows ∨ st.events ≤ r.updatedAt) :
    q.Fits st' := by
  cases q with
  | creating org config enabled | comparing org id config enabled => exact h
  | updating org id config enabled replaced =>
    cases config with
    | none => trivial
    | some config => exact h
  | lookingUp org id address expected | verifying org id address expected mails =>
    exact Current.mono h hle hrows
  | bouncing address note => exact h
  | _ => trivial

theorem Sound.quiet (h : Sound s) (hchannels : st.channels = s.store.channels)
    (hnext : st.nextId = s.store.nextId) (hevents : st.events = s.store.events)
    (hproofs : st.proofs = s.store.proofs) (hstops : st.stops = s.store.stops) (hfits : p'.Fits st) :
    Sound ⟨st, s.tasks.set i p'⟩ := by
  refine ⟨?_, ?_, ?_, ?_⟩
  · refine forall_mem_set (fun q hq => (h.fits q hq).mono (Nat.le_of_eq hevents.symm) ?_) hfits
    intro r hr
    exact .inl (hchannels ▸ hr)
  · intro r hr
    exact (h.rows r (hchannels ▸ hr)).mono (Nat.le_of_eq hnext.symm) (Nat.le_of_eq hevents.symm)
  · show ∀ stop ∈ st.stops, stop.2 < st.events
    rw [hstops, hevents]
    exact h.stops
  · show ∀ r ∈ st.channels.rows, ∀ cfg, r.config = .email cfg → r.verifiedAt ≠ none →
      Proved st r cfg
    unfold Proved
    rw [hchannels, hproofs, hstops]
    exact h.proved

theorem Sound.wrote (h : Sound s) (hnext : s.store.nextId ≤ st.nextId)
    (hevents : st.events = s.store.events + 1)
    (hrows : ∀ r ∈ st.channels.rows, r ∈ s.store.channels.rows ∨
      (r.updatedAt = s.store.events ∧ r.Kept st))
    (hstops : ∀ stop ∈ st.stops, stop ∈ s.store.stops ∨ stop.2 = s.store.events)
    (hproved : ∀ r ∈ st.channels.rows, ∀ cfg, r.config = .email cfg → r.verifiedAt ≠ none →
      Proved st r cfg)
    (hfits : p'.Fits st) : Sound ⟨st, s.tasks.set i p'⟩ := by
  have hle : s.store.events ≤ st.events := by omega
  refine ⟨?_, ?_, ?_, hproved⟩
  · refine forall_mem_set (fun q hq => (h.fits q hq).mono hle ?_) hfits
    intro r hr
    exact (hrows r hr).imp_right fun hnew => Nat.le_of_eq hnew.1.symm
  · intro r hr
    rcases hrows r hr with hold | ⟨-, hkept⟩
    · exact (h.rows r hold).mono hnext hle
    · exact hkept
  · intro stop hstop
    show stop.2 < st.events
    rcases hstops stop hstop with hold | hnew
    · exact Nat.lt_of_lt_of_le (h.stops stop hold) hle
    · omega

/-! ## The statements -/

theorem get_eq_some {ch : Channel} (h : st.get org id = some ch) :
    ch ∈ st.channels.rows ∧ ch.id = id ∧ ch.orgId = org := by
  obtain ⟨hsome, horg⟩ := Option.filter_eq_some_iff.mp h
  obtain ⟨hmem, hid⟩ := Rows.get?_eq_some.1 hsome
  exact ⟨hmem, hid, beq_iff_eq.mp horg⟩

theorem current_of_mem (hr : r ∈ st.channels.rows) (hcfg : r.config = .email cfg)
    (hlt : r.updatedAt < st.events) (heq : eqIgnoreAsciiCase address cfg.address = true) :
    Current st r.id address r.updatedAt := by
  refine ⟨hlt, ?_⟩
  intro r' hr' hid _
  rw [Rows.eq_of_key hr' hr hid]
  exact ⟨cfg, hcfg, heq⟩

theorem fastVerify_fits (hr : r ∈ st.channels.rows) (hlt : r.updatedAt < st.events) :
    (fastVerify r).Fits st := by
  unfold fastVerify
  split
  · next cfg hcfg =>
    split
    · exact current_of_mem hr hcfg hlt (eqIgnoreAsciiCase_refl _)
    · trivial
  · trivial

theorem Proved.grow {channels : Rows Channel.id} {nextId events : Nat} {proofs : List Proof}
    (h : Proved st r cfg) (hid : r'.id = r.id) (hwritten : r'.writtenAt = r.writtenAt) :
    Proved { st with
      channels := channels
      nextId := nextId
      events := events
      proofs := st.proofs ++ proofs } r' cfg := by
  obtain ⟨q, hq, hchannel, heq, hle, hall⟩ := h
  refine ⟨q, List.mem_append_left _ hq, hchannel.trans hid.symm, heq, hwritten ▸ hle, ?_⟩
  intro stop hstop hsid
  exact hall stop hstop (hsid.trans hid)

theorem Sound.created (h : Sound s) {enabled : Bool} (hlowered : config.Lowered) :
    Sound ⟨(s.store.create org config enabled).2,
      s.tasks.set i (fastVerify (s.store.create org config enabled).1)⟩ := by
  have hmem : (s.store.create org config enabled).1 ∈
      (s.store.create org config enabled).2.channels.rows :=
    Rows.mem_insert_self (Rows.get?_eq_none.2 fun r hr => Nat.ne_of_lt (h.rows r hr).issued)
  refine h.wrote (Nat.le_succ _) rfl ?_ (fun stop => .inl) ?_ (fastVerify_fits hmem (Nat.lt_succ_self _))
  · intro r hr
    refine (Rows.mem_insert hr).imp_right ?_
    rintro rfl
    refine ⟨rfl, Nat.lt_succ_self _, hlowered, ?_, Nat.lt_succ_self _, Nat.lt_succ_self _⟩
    rintro cfg rfl
    rfl
  · intro r hr cfg hcfg hverified
    rcases Rows.mem_insert hr with hold | rfl
    · obtain ⟨q, hq, hrest⟩ := h.proved r hold cfg hcfg hverified
      exact ⟨q, hq, hrest⟩
    · exact absurd rfl hverified

theorem Sound.seeded (h : Sound s) :
    Sound ⟨s.store.seedOwnerEmail org address, s.tasks.set i .done⟩ := by
  refine h.wrote (Nat.le_succ _) rfl ?_ (fun stop => .inl) ?_ trivial
  · intro r hr
    refine (Rows.mem_insert hr).imp_right ?_
    rintro rfl
    refine ⟨rfl, Nat.lt_succ_self _, ?_, ?_, Nat.lt_succ_self _, Nat.lt_succ_self _⟩
    · intro cfg hcfg
      rw [← ChannelConfig.email.inj hcfg]
      exact toAsciiLowercase_idem _
    · intro cfg hcfg
      rw [← ChannelConfig.email.inj hcfg]
  · intro r hr cfg hcfg hverified
    rcases Rows.mem_insert hr with hold | rfl
    · exact (h.proved r hold cfg hcfg hverified).grow rfl rfl
    · rw [← ChannelConfig.email.inj hcfg]
      refine ⟨_, List.mem_append_right _ (List.mem_singleton.mpr rfl), rfl,
        eqIgnoreAsciiCase_refl _, Nat.le_refl _, ?_⟩
      -- every stop was before the channel
      exact fun stop hstop _ => h.stops stop hstop

theorem Sound.updated (h : Sound s) {config : Option ChannelConfig} {enabled : Option Bool}
    {ch : Channel} (hp : s.tasks[i]? = some (.updating org id config enabled replaced))
    (hupdate : s.store.update org id config enabled = some (ch, st))
    (hfits : p' = .done ∨ p' = fastVerify ch) : Sound ⟨st, s.tasks.set i p'⟩ := by
  obtain ⟨r, hget, heq⟩ := Option.map_eq_some_iff.mp hupdate
  obtain ⟨rfl, rfl⟩ := Prod.mk.inj heq
  obtain ⟨hr, hid, -⟩ := get_eq_some hget
  have hlowered := h.fits _ (List.mem_of_getElem? hp)
  have hrows : ∀ r' ∈ (s.store.channels.update (fun r => r.id == id)
      (Channel.edit s.store.events config enabled)
      (Channel.edit_id s.store.events config enabled)).rows,
      r' ∈ s.store.channels.rows ∨ ∃ r₀ ∈ s.store.channels.rows,
        r' = r₀.edit s.store.events config enabled := by
    intro r' hr'
    rcases Table.mem_update hr' with hold | ⟨r₀, hr₀, -, heq⟩
    · exact .inl hold
    · exact .inr ⟨r₀, hr₀, heq⟩
  have hkept : ∀ r₀ ∈ s.store.channels.rows,
      (r₀.edit s.store.events config enabled).Kept { s.store with
        channels := s.store.channels.update (fun r => r.id == id)
          (Channel.edit s.store.events config enabled)
          (Channel.edit_id s.store.events config enabled)
        events := s.store.events + 1 } := by
    intro r₀ hr₀
    have hkept₀ := h.rows r₀ hr₀
    cases config with
    | none =>
      exact ⟨hkept₀.issued, hkept₀.lowered, hkept₀.mirrored, Nat.lt_succ_self _,
        Nat.lt_succ_of_lt hkept₀.written⟩
    | some config =>
      refine ⟨hkept₀.issued, hlowered, ?_, Nat.lt_succ_self _, Nat.lt_succ_self _⟩
      intro cfg hcfg
      obtain rfl : config = .email cfg := hcfg
      rfl
  refine h.wrote (Nat.le_refl _) rfl ?_ (fun stop => .inl) ?_ ?_
  · intro r' hr'
    refine (hrows r' hr').imp_right ?_
    rintro ⟨r₀, hr₀, rfl⟩
    exact ⟨rfl, hkept r₀ hr₀⟩
  · intro r' hr' cfg hcfg hverified
    rcases hrows r' hr' with hold | ⟨r₀, hr₀, rfl⟩
    · exact h.proved r' hold cfg hcfg hverified
    · cases config with
      | none => exact h.proved r₀ hr₀ cfg hcfg hverified
      | some config => exact absurd rfl hverified
  · rcases hfits with rfl | rfl
    · trivial
    · have hmem := Rows.mem_update_of_pos (p := fun r => r.id == id)
        (Channel.edit_id s.store.events config enabled) hr (beq_iff_eq.mpr hid)
      exact fastVerify_fits hmem (Nat.lt_succ_self _)

theorem Sound.disabled (h : Sound s) {q : Channel → Bool} {reason : String}
    {stops : List (Uuid × Nat)} (hstops : ∀ stop ∈ stops, stop.2 = s.store.events)
    (hheard : ∀ r ∈ s.store.channels.rows, ∀ cfg, r.config = .email cfg →
      (∃ stop ∈ stops, stop.1 = r.id) → q r = false → r.verifiedAt = none) :
    Sound ⟨{ s.store with
      channels := s.store.channels.update q (Channel.disable s.store.events reason)
        (Channel.disable_id s.store.events reason)
      events := s.store.events + 1
      stops := s.store.stops ++ stops }, s.tasks.set i .done⟩ := by
  have hrows : ∀ r' ∈ (s.store.channels.update q (Channel.disable s.store.events reason)
      (Channel.disable_id s.store.events reason)).rows,
      (r' ∈ s.store.channels.rows ∧ q r' = false) ∨
      ∃ r ∈ s.store.channels.rows, r' = r.disable s.store.events reason := by
    intro r' hr'
    obtain ⟨r, hr, heq⟩ := List.mem_map.mp hr'
    cases hq : q r with
    | true =>
      rw [if_pos hq] at heq
      exact .inr ⟨r, hr, heq.symm⟩
    | false =>
      rw [if_neg (by rw [hq]; exact Bool.false_ne_true)] at heq
      exact .inl ⟨heq ▸ hr, heq ▸ hq⟩
  refine h.wrote (Nat.le_refl _) rfl ?_ ?_ ?_ trivial
  · intro r' hr'
    rcases hrows r' hr' with ⟨hold, -⟩ | ⟨r, hr, rfl⟩
    · exact .inl hold
    · have hkept := h.rows r hr
      exact .inr ⟨rfl, hkept.issued, hkept.lowered, hkept.mirrored, Nat.lt_succ_self _,
        Nat.lt_succ_of_lt hkept.written⟩
  · intro stop hstop
    exact (List.mem_append.mp hstop).imp_right (hstops stop)
  · intro r' hr' cfg hcfg hverified
    rcases hrows r' hr' with ⟨hold, hq⟩ | ⟨r, hr, rfl⟩
    · obtain ⟨p, hp, hchannel, heq, hle, hall⟩ := h.proved r' hold cfg hcfg hverified
      refine ⟨p, hp, hchannel, heq, hle, ?_⟩
      intro stop hstop hid
      rcases List.mem_append.mp hstop with hstop | hstop
      · exact hall stop hstop hid
      · exact absurd (hheard r' hold cfg hcfg ⟨stop, hstop, hid⟩ hq) hverified
    · exact absurd rfl hverified

theorem Sound.verified (h : Sound s) {expected : Nat}
    (hcurrent : Current s.store id address expected)
    (hset : s.store.setVerified org id expected address = some st) :
    Sound ⟨st, s.tasks.set i .done⟩ := by
  unfold Store.setVerified at hset
  split at hset
  · cases hset
    have hmatch : ∀ r, Store.provable org id expected r = true →
        r.id = id ∧ r.updatedAt = expected := by
      intro r hr
      simp only [Store.provable, Bool.and_eq_true, beq_iff_eq] at hr
      exact ⟨hr.1.1.1, hr.2⟩
    refine h.wrote (Nat.le_refl _) rfl ?_ (fun stop => .inl) ?_ trivial
    · intro r' hr'
      refine (Table.mem_update hr').imp_right ?_
      rintro ⟨r, hr, -, rfl⟩
      have hkept := h.rows r hr
      exact ⟨rfl, hkept.issued, hkept.lowered, hkept.mirrored, Nat.lt_succ_self _,
        Nat.lt_succ_of_lt hkept.written⟩
    · intro r' hr' cfg hcfg hverified
      rcases Table.mem_update hr' with hold | ⟨r, hr, hq, rfl⟩
      · exact (h.proved r' hold cfg hcfg hverified).grow rfl rfl
      · obtain ⟨hid, hexpected⟩ := hmatch r hq
        obtain ⟨cfg', hcfg', heq⟩ := hcurrent.2 r hr hid hexpected
        obtain rfl : cfg' = cfg := ChannelConfig.email.inj (hcfg'.symm.trans hcfg)
        refine ⟨_, List.mem_append_right _ (List.mem_singleton.mpr rfl), hid.symm, heq,
          Nat.le_of_lt (h.rows r hr).written, ?_⟩
        exact fun stop hstop _ => h.stops stop hstop
  · cases hset

theorem isAt_iff {ref : String} (hr : r.Kept st) (href : toAsciiLowercase ref = ref)
    (hcfg : r.config = .email cfg) : r.config.isAt ref = true ↔ cfg.address = ref := by
  rw [hcfg]
  show (toAsciiLowercase cfg.address == toAsciiLowercase ref) = true ↔ _
  rw [beq_iff_eq, hr.lowered cfg hcfg, href]

theorem Sound.stopped (h : Sound s) (hp : s.tasks[i]? = some (.stopping id))
    (hheard : heard s (.go i .ok) = true) :
    Sound ⟨s.store.disableSelfService id STOP_REASON, s.tasks.set i .done⟩ := by
  refine h.disabled ?_ ?_
  · intro stop hstop
    rw [List.mem_singleton.mp hstop]
  · rintro r hr cfg hcfg ⟨stop, hstop, hid⟩ hmiss
    rw [List.mem_singleton.mp hstop] at hid
    have hhears : r.hears = true := by
      have hget : s.store.channels.get? id = some r := Rows.get?_eq_some.2 ⟨hr, hid.symm⟩
      simpa [heard, hp, hget] using hheard
    have henabled : r.enabled = false := by simpa [← hid] using hmiss
    simpa [Channel.hears, henabled] using hhears

theorem Sound.bounced (h : Sound s) {note : String}
    (hp : s.tasks[i]? = some (.bouncing address note)) (hheard : heard s (.go i .ok) = true) :
    Sound ⟨s.store.disableByExternalRef .email address note, s.tasks.set i .done⟩ := by
  have haddress : toAsciiLowercase address = address := h.fits _ (List.mem_of_getElem? hp)
  refine h.disabled ?_ ?_
  · intro stop hstop
    obtain ⟨r, -, rfl⟩ := List.mem_map.mp hstop
    rfl
  · rintro r hr cfg hcfg ⟨stop, hstop, hid⟩ hmiss
    obtain ⟨r', hr', rfl⟩ := List.mem_map.mp hstop
    obtain ⟨hmem, hat⟩ := List.mem_filter.mp hr'
    obtain rfl : r' = r := Rows.eq_of_key hmem hr hid
    have hhears : r'.hears = true := by
      simp only [heard, hp, List.all_eq_true, Bool.or_eq_true, Bool.not_eq_true'] at hheard
      rcases hheard r' hr with hnot | hhears
      · rw [hat] at hnot
        cases hnot
      · exact hhears
    have henabled : r'.enabled = false := by
      have href := (h.rows r' hr).mirrored cfg hcfg
      rw [(isAt_iff (h.rows r' hr) haddress hcfg).mp hat] at href
      simpa [hcfg, ChannelConfig.kind, href] using hmiss
    simpa [Channel.hears, henabled] using hhears

theorem Sound.read (h : Sound s) {ch : Channel} (hget : s.store.get org id = some ch)
    (hcfg : ch.config = .email cfg) (heq : eqIgnoreAsciiCase cfg.address address = true) :
    Current s.store ch.id address ch.updatedAt := by
  obtain ⟨hr, -⟩ := get_eq_some hget
  refine current_of_mem hr hcfg (h.rows ch hr).updated ?_
  rw [eqIgnoreAsciiCase, beq_iff_eq] at heq ⊢
  exact heq.symm

theorem Sound.deleted (h : Sound s) :
    Sound ⟨s.store.delete org id, s.tasks.set i .done⟩ := by
  have hmem : ∀ r ∈ (s.store.delete org id).channels.rows, r ∈ s.store.channels.rows :=
    fun r hr => (Rows.mem_delete.1 hr).1
  refine ⟨?_, ?_, h.stops, fun r hr => h.proved r (hmem r hr)⟩
  · refine forall_mem_set (fun q hq => (h.fits q hq).mono (Nat.le_refl _) ?_) trivial
    exact fun r hr => .inl (hmem r hr)
  · intro r hr
    exact (h.rows r (hmem r hr)).mono (Nat.le_refl _) (Nat.le_refl _)

theorem Sound.went (h : Sound s) {choice : Choice} (hp : s.tasks[i]? = some p)
    (hnext : next s.store p choice = some (st, p')) (hheard : heard s (.go i choice) = true) :
    Sound ⟨st, s.tasks.set i p'⟩ := by
  have hfits := h.fits p (List.mem_of_getElem? hp)
  have hidle : ∀ {p' : Phase}, p'.Fits s.store → Sound ⟨s.store, s.tasks.set i p'⟩ :=
    h.quiet rfl rfl rfl rfl rfl
  cases choice with
  | fails =>
    cases p with
    | comparing org id config enabled =>
      cases hnext
      exact hidle hfits
    | done => cases hnext
    | _ =>
      cases hnext
      exact hidle trivial
  | answers isMember =>
    cases p with
    | lookingUp org id address expected =>
      cases hnext
      refine hidle ?_
      split
      · exact hfits
      · trivial
    | _ => cases hnext
  | draw hash =>
    cases p with
    | minting org id email =>
      simp only [next] at hnext
      split at hnext
      · cases hnext
      · cases hnext
        exact h.quiet rfl rfl rfl rfl rfl trivial
    | _ => cases hnext
  | ok =>
    cases p with
    | creating org config enabled =>
      cases hnext
      exact h.created hfits
    | seeding org address =>
      cases hnext
      exact h.seeded
    | comparing org id config enabled =>
      cases hnext
      refine hidle ?_
      split
      · trivial
      · exact hfits
    | updating org id config enabled replaced =>
      simp only [next] at hnext
      split at hnext
      · next ch st' hupdate =>
        cases hnext
        refine h.updated hp hupdate ?_
        split
        · exact .inr rfl
        · exact .inl rfl
      · cases hnext
        exact hidle trivial
    | lookingUp org id address expected => cases hnext
    | verifying org id address expected mails =>
      simp only [next] at hnext
      split at hnext
      · next st' hset =>
        cases hnext
        exact h.verified hfits hset
      · cases hnext
        refine hidle ?_
        split <;> trivial
    | deleting org id =>
      cases hnext
      exact h.deleted
    | reading org id =>
      cases hnext
      refine hidle ?_
      repeat' split
      all_goals trivial
    | minting org id email => cases hnext
    | consuming hash =>
      simp only [next] at hnext
      split at hnext
      · next consumed st' hconsumed =>
        cases hnext
        obtain ⟨t, -, heq⟩ := Option.map_eq_some_iff.mp hconsumed
        obtain ⟨-, rfl⟩ := Prod.mk.inj heq
        exact h.quiet rfl rfl rfl rfl rfl trivial
      · cases hnext
        exact hidle trivial
    | resolving consumed =>
      cases hnext
      refine hidle ?_
      split
      · next ch hget =>
        split
        · next cfg hcfg =>
          split
          · next heq => exact h.read hget hcfg heq
          · trivial
        · trivial
      · trivial
    | stopping id =>
      cases hnext
      exact h.stopped hp hheard
    | bouncing address note =>
      cases hnext
      exact h.bounced hp hheard
    | done => cases hnext

theorem lowered_of_validate (h : config.validate = .ok ()) : config.Lowered := by
  rintro cfg rfl
  exact EmailConfig.lower_of_validate h

theorem Request.first_fits (request : Request) (st : Store) : request.first.Fits st := by
  have hadmitted : ∀ (config : ChannelConfig) (q : ChannelConfig → Phase),
      (config.normalize.Lowered → (q config.normalize).Fits st) → (admitted config q).Fits st := by
    intro config q hq
    unfold admitted
    split
    · next hvalid => exact hq (lowered_of_validate hvalid)
    · trivial
  cases request with
  | create org config enabled =>
    apply hadmitted config fun config => .creating org config enabled
    exact fun hlowered => hlowered
  | update org id config enabled =>
    cases config with
    | none => trivial
    | some config =>
      apply hadmitted config fun config => .comparing org id config enabled
      exact fun hlowered => hlowered
  | bounced address | complained address => exact toAsciiLowercase_idem address
  | _ => trivial

theorem Sound.step (h : Sound s) {e : Act Request Choice Nat} (hheard : heard s e = true)
    (heq : program.step s e = some s') : Sound s' := by
  cases Program.stepped heq with
  | begin request =>
    refine ⟨?_, h.rows, h.stops, h.proved⟩
    intro q hq
    rcases List.mem_append.mp hq with hq | hq
    · exact h.fits q hq
    · rw [List.mem_singleton.mp hq]
      exact request.first_fits s.store
  | go hp hnext => exact h.went hp hnext hheard
  | outer passed =>
    refine ⟨?_, ?_, h.stops, h.proved⟩
    · exact fun q hq => (h.fits q hq).mono (Nat.le_refl _) fun r => .inl
    · exact fun r hr => (h.rows r hr).mono (Nat.le_refl _) (Nat.le_refl _)

/-- **A stopped inbox stays stopped**: an email channel that delivers has had its address proved
after the address was last written and after every stop and bounce that was handled, as long as
none is handled while the channel is disabled with its address still proved. -/
theorem stopped_inbox_stays_stopped {s₀ : Pooled Store Phase}
    (hfresh : s₀.store.channels.rows = [] ∧ s₀.store.stops = []) (hidle : s₀.tasks = [])
    (hrun : Run program.step (fun s e => heard s e = true) s₀ s) :
    ∀ r ∈ s.store.channels.rows, ∀ cfg, r.config = .email cfg → r.canDeliver = true →
      ∃ p ∈ s.store.proofs, p.channelId = r.id ∧
        eqIgnoreAsciiCase p.address cfg.address = true ∧ r.writtenAt ≤ p.number ∧
        ∀ stop ∈ s.store.stops, stop.1 = r.id → stop.2 < p.number := by
  have hinit : Sound s₀ := by
    constructor
    · simp [hidle]
    · simp [hfresh.1]
    · simp [hfresh.2]
    · simp [hfresh.1]
  have hsound : Sound s := hrun.invariant hinit fun _ _ _ h hok heq => h.step hok heq
  intro r hr cfg hcfg hdeliver
  have hverified : r.verifiedAt ≠ none := by
    intro hnone
    unfold Channel.canDeliver Channel.awaitingVerification at hdeliver
    rw [hcfg, hnone, Bool.and_eq_true] at hdeliver
    cases hdeliver.2
  exact hsound.proved r hr cfg hcfg hverified

end

/-! ## A seeded channel -/

namespace One

def start : Pooled Store Phase := ⟨⟨0, Rows.empty, Rows.empty, 1, 0, [], []⟩, []⟩

def seeded : List (Act Request Choice Nat) := [.begin (.seed 1 "a@b.c"), .go 0 .ok]

/-- A stop, a new link, and an enable. -/
def proved : List (Act Request Choice Nat) :=
  seeded ++
  ([.begin (.stop 1), .go 1 .ok, .begin (.resend 1 1), .go 2 .ok, .go 2 (.draw "h"),
    .begin (.click "h"), .go 3 .ok, .go 3 .ok, .go 3 .ok, .begin (.update 1 1 none (some true)),
    .go 4 .ok] : List (Act Request Choice Nat))

/-- The stop comes while the channel is disabled. -/
def resumed : List (Act Request Choice Nat) :=
  seeded ++
  ([.begin (.update 1 1 none (some false)), .go 1 .ok, .begin (.stop 1), .go 2 .ok,
    .begin (.update 1 1 none (some true)), .go 3 .ok] : List (Act Request Choice Nat))

end One

theorem stopped_inbox_stays_stopped_proved : ∃ s,
    Run program.step (fun s e => heard s e = true) One.start s ∧ s.store.stops = [(1, 1)] ∧
    ∃ r ∈ s.store.channels.rows, r.canDeliver = true ∧ ∃ p ∈ s.store.proofs,
      p.channelId = r.id ∧ ∀ stop ∈ s.store.stops, stop.1 = r.id → stop.2 < p.number := by
  obtain ⟨s, hrun, hend⟩ := exists_run_of_steps (show
    (steps (guarded program.step heard) One.start One.proved).any
      (fun s => s.store.stops == [(1, 1)] && s.store.channels.rows.any fun r =>
        r.config == .email ⟨"a@b.c"⟩ && r.canDeliver) = true by decide +kernel)
  simp only [Bool.and_eq_true, beq_iff_eq, List.any_eq_true] at hend
  obtain ⟨hstops, r, hr, hcfg, hdeliver⟩ := hend
  have hheard : Run program.step (fun s e => heard s e = true) One.start s :=
    hrun.unguard fun _ _ h => h
  obtain ⟨p, hp, hchannel, -, -, hafter⟩ :=
    stopped_inbox_stays_stopped ⟨rfl, rfl⟩ rfl hheard r hr ⟨"a@b.c"⟩ hcfg hdeliver
  exact ⟨s, hheard, hstops, r, hr, hdeliver, p, hp, hchannel, hafter⟩

/-- The enable after the stop delivers to the inbox again. -/
theorem stopped_inbox_resumes : ¬ ∀ s₀ s : Pooled Store Phase,
    s₀.store.channels.rows = [] ∧ s₀.store.stops = [] → s₀.tasks = [] →
    Run program.step (fun _ _ => True) s₀ s →
    ∀ r ∈ s.store.channels.rows, ∀ cfg, r.config = .email cfg → r.canDeliver = true →
      ∃ p ∈ s.store.proofs, p.channelId = r.id ∧
        eqIgnoreAsciiCase p.address cfg.address = true ∧ r.writtenAt ≤ p.number ∧
        ∀ stop ∈ s.store.stops, stop.1 = r.id → stop.2 < p.number := by
  intro h
  obtain ⟨s, hrun, hend⟩ := exists_run_of_steps (show
    (steps program.step One.start One.resumed).any
      (fun s => s.store.stops == [(1, 2)] && s.store.proofs == [⟨1, "a@b.c", 0⟩] &&
        s.store.channels.rows.any fun r =>
          r.id == 1 && r.config == .email ⟨"a@b.c"⟩ && r.canDeliver) = true by decide +kernel)
  simp only [Bool.and_eq_true, beq_iff_eq, List.any_eq_true] at hend
  obtain ⟨⟨hstops, hproofs⟩, r, hr, ⟨hid, hcfg⟩, hdeliver⟩ := hend
  obtain ⟨p, hp, -, -, -, hafter⟩ :=
    h One.start s ⟨rfl, rfl⟩ rfl hrun r hr ⟨"a@b.c"⟩ hcfg hdeliver
  rw [hproofs, List.mem_singleton] at hp
  have hlt := hafter (1, 2) (by rw [hstops]; exact List.mem_singleton.mpr rfl) hid.symm
  rw [hp] at hlt
  exact Nat.not_lt_zero _ hlt

end Uptimepage.ChannelVerification
