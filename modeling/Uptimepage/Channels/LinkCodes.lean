import Uptimepage.Async.Tasks
import Uptimepage.Domain.Channel
import Uptimepage.Sql.Rows

/-!
# Link codes

A link code lets someone outside the dashboard attach one channel to an organisation.  Each
request claims the code, creates the channel, and attaches it or restores the code.  The Telegram
webhook takes delegate codes too, but does not look at the kind they are pinned to
(`pinned_code_misused`), and it returns without a restore when the plan cannot be read.
-/

namespace Uptimepage.Channels

open Async Sql

inductive LinkPurpose
  | telegram
  | delegate
  | whatsapp
deriving DecidableEq

/-- A row of `channel_link_codes`; ids are handed out in order. -/
structure LinkCode where
  id : Uuid
  orgId : OrgId
  purpose : LinkPurpose
  codeHash : String
  kindHint : Option ChannelKind
  expiresAt : Time
  consumedAt : Option Time
  revokedAt : Option Time
  channelId : Option Uuid
deriving DecidableEq

namespace LinkCode

def live (now : Time) (r : LinkCode) : Bool :=
  r.consumedAt.isNone && r.revokedAt.isNone && decide (r.expiresAt > now)

def consume (now : Time) (r : LinkCode) : LinkCode := { r with consumedAt := some now }

def restore (r : LinkCode) : LinkCode := { r with consumedAt := none }

def revoke (now : Time) (r : LinkCode) : LinkCode := { r with revokedAt := some now }

def attach (channel : Uuid) (r : LinkCode) : LinkCode := { r with channelId := some channel }

theorem consume_id (now : Time) (r : LinkCode) : (r.consume now).id = r.id := rfl

theorem restore_id (r : LinkCode) : r.restore.id = r.id := rfl

theorem revoke_id (now : Time) (r : LinkCode) : (r.revoke now).id = r.id := rfl

theorem attach_id (channel : Uuid) (r : LinkCode) : (r.attach channel).id = r.id := rfl

end LinkCode

/-- What a claim returns.  `claim` is not in the source: it numbers the claims and revokes. -/
structure ConsumedLink where
  id : Uuid
  orgId : OrgId
  kindHint : Option ChannelKind
  claim : Nat
deriving DecidableEq

structure LinkedChannel where
  id : Uuid
  orgId : OrgId
  kind : ChannelKind
  link : ConsumedLink
deriving DecidableEq

inductive Provider
  | slack
  | discord
deriving DecidableEq

def Provider.kind : Provider → ChannelKind
  | slack => .slack
  | discord => .discord

/-- A row of `oauth_states`. -/
structure OAuthState where
  stateHash : String
  provider : Provider
  expiresAt : Time
  linkCodeId : Option Uuid
deriving DecidableEq

/-- `revokes` is the log of the revokes that returned true, with their numbers. -/
structure Store where
  now : Time
  codes : Rows LinkCode.id
  states : Rows OAuthState.stateHash
  channels : List LinkedChannel
  nextId : Nat
  events : Nat
  revokes : List (Uuid × Nat)

def ONE_TAP_LINK_TTL_MINUTES : Int := 15

def DELEGATE_LINK_TTL_DAYS : Int := 7

/-- `ONE_TAP_LINK_MAX_OUTSTANDING` and `DELEGATE_LINK_MAX_OUTSTANDING`. -/
def MAX_OUTSTANDING : Nat := 5

def LinkPurpose.ttl : LinkPurpose → Int
  | delegate => seconds (DELEGATE_LINK_TTL_DAYS * 24 * 60 * 60)
  | _ => seconds (ONE_TAP_LINK_TTL_MINUTES * 60)

/-! ## The store of codes -/

namespace Store

def peek (st : Store) (purpose : LinkPurpose) (hash : String) : Option LinkCode :=
  st.codes.rows.find? fun r => r.codeHash == hash && r.purpose == purpose && r.live st.now

def claimRow (st : Store) (r : LinkCode) : ConsumedLink × Store :=
  (⟨r.id, r.orgId, r.kindHint, st.events⟩,
    { st with
      codes := st.codes.update (fun r' => r'.id == r.id) (LinkCode.consume st.now)
        (LinkCode.consume_id st.now)
      events := st.events + 1 })

def consume (st : Store) (purpose : LinkPurpose) (hash : String) :
    Option (ConsumedLink × Store) :=
  (st.peek purpose hash).map st.claimRow

def consumeById (st : Store) (id : Uuid) : Option (ConsumedLink × Store) :=
  ((st.codes.get? id).filter (LinkCode.live st.now)).map st.claimRow

def restore (st : Store) (id : Uuid) : Store :=
  { st with
    codes := st.codes.update (fun r => r.id == id && r.channelId.isNone) LinkCode.restore
      LinkCode.restore_id }

def attachChannel (st : Store) (id channel : Uuid) : Store :=
  { st with
    codes := st.codes.update (fun r => r.id == id) (LinkCode.attach channel)
      (LinkCode.attach_id channel) }

def revocable (org : OrgId) (id : Uuid) (r : LinkCode) : Bool :=
  r.id == id && r.orgId == org && r.purpose == .delegate && r.consumedAt.isNone &&
    r.revokedAt.isNone

def revoke (st : Store) (org : OrgId) (id : Uuid) : Store :=
  if st.codes.rows.any (revocable org id) then
    { st with
      codes := st.codes.update (revocable org id) (LinkCode.revoke st.now)
        (LinkCode.revoke_id st.now)
      events := st.events + 1
      revokes := st.revokes ++ [(id, st.events)] }
  else st

/-- The purge of a mint; an OAuth state goes with its code. -/
def purge (st : Store) (org : OrgId) : Store :=
  let dead : LinkCode → Bool := fun r =>
    r.orgId == org && decide (r.expiresAt ≤ st.now) && r.channelId.isNone
  { st with
    codes := st.codes.delete dead
    states := st.states.delete fun o =>
      o.linkCodeId.any fun id => (st.codes.get? id).any dead }

def mint (st : Store) (org : OrgId) (purpose : LinkPurpose) (hash : String)
    (kindHint : Option ChannelKind) : Store :=
  let purged := st.purge org
  let outstanding := purged.codes.rows.countP fun r =>
    r.orgId == org && r.purpose == purpose && r.live st.now
  if outstanding < MAX_OUTSTANDING then
    { purged with
      codes := purged.codes.insert
        ⟨st.nextId, org, purpose, hash, kindHint, st.now + purpose.ttl, none, none, none⟩
      nextId := st.nextId + 1 }
  else st

def createChannel (st : Store) (link : ConsumedLink) (kind : ChannelKind) : Store :=
  { st with
    channels := st.channels ++ [⟨st.nextId, link.orgId, kind, link⟩]
    nextId := st.nextId + 1 }

end Store

/-! ## The paths -/

/-- How a code was claimed. -/
inductive Via
  | form
  | oauth
  /-- Of a Telegram code, or of a delegate code. -/
  | telegram (delegated : Bool)
  | whatsapp
deriving DecidableEq

/-- A failed create restores the code. -/
def Via.restores : Via → Bool
  | form | oauth => true
  | telegram delegated => delegated
  | whatsapp => false

/-- So does a plan that cannot be read, but not in the webhooks. -/
def Via.restoresOnLimit : Via → Bool
  | form | oauth => true
  | telegram _ | whatsapp => false

inductive Request
  | connectForm (hash : String) (kind : ChannelKind)
  | oauthStart (hash : String) (provider : Provider)
  | oauthCallback (stateHash : String) (provider : Provider) (cancelled : Bool)
  | telegramStart (hash : String)
  | whatsappStart (hash : String)
  | revoke (org : OrgId) (id : Uuid)
  | mint (org : OrgId) (purpose : LinkPurpose)
  | mintDelegate (org : OrgId) (kind : Option ChannelKind)
deriving DecidableEq

inductive Phase
  | peeking (hash : String) (kind : ChannelKind)
  | claimingForm (id : Uuid) (kind : ChannelKind)
  | starting (hash : String) (provider : Provider)
  | insertingState (id : Uuid) (provider : Provider)
  | consumingState (stateHash : String) (provider : Provider) (cancelled : Bool)
  | claimingCallback (id : Uuid) (provider : Provider)
  | exchanging (link : ConsumedLink) (provider : Provider)
  | claimingTelegram (hash : String)
  | claimingDelegate (hash : String)
  | claimingWhatsapp (hash : String)
  /-- `limit_for_org`. -/
  | limiting (link : ConsumedLink) (via : Via) (kind : ChannelKind)
  | creating (link : ConsumedLink) (via : Via) (kind : ChannelKind)
  | attaching (id channel : Uuid)
  | restoring (id : Uuid)
  | revoking (org : OrgId) (id : Uuid)
  | minting (org : OrgId) (purpose : LinkPurpose) (kindHint : Option ChannelKind)
  | done
deriving DecidableEq

def Request.first : Request → Phase
  | .connectForm hash kind => .peeking hash kind
  | .oauthStart hash provider => .starting hash provider
  | .oauthCallback stateHash provider cancelled => .consumingState stateHash provider cancelled
  | .telegramStart hash => .claimingTelegram hash
  | .whatsappStart hash => .claimingWhatsapp hash
  | .revoke org id => .revoking org id
  | .mint org purpose => .minting org purpose none
  | .mintDelegate org kind => .minting org .delegate kind

inductive Choice
  | ok
  /-- The call fails, with no effect; a form's input is refused. -/
  | fails
  /-- A state or a code is drawn. -/
  | draw (hash : String)
deriving DecidableEq

/-- `reject_managed_kind`. -/
def operatorManaged : ChannelKind → Bool
  | .telegramApp | .whatsAppApp => true
  | _ => false

/-- No kind is pinned, or this one. -/
def accepts (hint : Option ChannelKind) (kind : ChannelKind) : Bool :=
  hint.all fun k => k == kind

def STATE_EXPIRY_MINUTES : Int := 10

/-- Where a path goes from a claim that fails or succeeds. -/
def claimed (st : Store) (found : Option (ConsumedLink × Store)) (next : ConsumedLink → Phase)
    (otherwise : Phase) : Store × Phase :=
  match found with
  | some (link, st') => (st', next link)
  | none => (st, otherwise)

def next (st : Store) : Phase → Choice → Option (Store × Phase)
  | .done, _ => none
  | .limiting link via _, .fails =>
    some (st, if via.restoresOnLimit then .restoring link.id else .done)
  | .creating link via _, .fails =>
    some (st, if via.restores then .restoring link.id else .done)
  | .exchanging link _, .fails => some (st, .restoring link.id)
  | _, .fails => some (st, .done)
  | .peeking hash kind, .ok =>
    some (st, match st.peek .delegate hash with
      | some r =>
        if accepts r.kindHint kind && !operatorManaged kind then .claimingForm r.id kind else .done
      | none => .done)
  | .claimingForm id kind, .ok =>
    some (claimed st (st.consumeById id) (fun link => .limiting link .form kind) .done)
  | .starting hash provider, .ok =>
    some (st, match st.peek .delegate hash with
      | some r => if accepts r.kindHint provider.kind then .insertingState r.id provider else .done
      | none => .done)
  | .insertingState id provider, .draw hash =>
    -- the state refers to the code, which must still be there
    if (st.codes.get? id).isSome && (st.states.get? hash).isNone then
      some ({ st with
        states := st.states.insert
          ⟨hash, provider, st.now + seconds (STATE_EXPIRY_MINUTES * 60), some id⟩ }, .done)
    else some (st, .done)
  | .consumingState stateHash provider cancelled, .ok =>
    match (st.states.get? stateHash).filter fun o => decide (o.expiresAt > st.now) with
    | some o =>
      let st' := { st with states := st.states.delete fun o => o.stateHash == stateHash }
      match o.linkCodeId with
      | some id =>
        some (st', if o.provider == provider && !cancelled then .claimingCallback id provider
          else .done)
      | none => some (st', .done)
    | none => some (st, .done)
  | .claimingCallback id provider, .ok =>
    some (claimed st (st.consumeById id) (fun link => .exchanging link provider) .done)
  | .exchanging link provider, .ok => some (st, .limiting link .oauth provider.kind)
  | .claimingTelegram hash, .ok =>
    some (claimed st (st.consume .telegram hash)
      (fun link => .limiting link (.telegram false) .telegramApp) (.claimingDelegate hash))
  | .claimingDelegate hash, .ok =>
    some (claimed st (st.consume .delegate hash)
      (fun link => .limiting link (.telegram true) .telegramApp) .done)
  | .claimingWhatsapp hash, .ok =>
    some (claimed st (st.consume .whatsapp hash)
      (fun link => .limiting link .whatsapp .whatsAppApp) .done)
  | .limiting link via kind, .ok => some (st, .creating link via kind)
  | .creating link _ kind, .ok => some (st.createChannel link kind, .attaching link.id st.nextId)
  | .attaching id channel, .ok => some (st.attachChannel id channel, .done)
  | .restoring id, .ok => some (st.restore id, .done)
  | .revoking org id, .ok => some (st.revoke org id, .done)
  | .minting org purpose kindHint, .draw hash =>
    -- a code is drawn anew
    if st.codes.rows.any fun r => r.codeHash == hash then none
    else some (st.mint org purpose hash kindHint, .done)
  | _, _ => none

def program : Program Store Phase Request Choice Nat where
  first := Request.first
  next := next
  outer := fun st passed => { st with now := st.now + passed }

/-! ## What keeps the codes -/

/-- The code that a request has claimed, and is yet to make a channel with or to restore. -/
def Phase.spends : Phase → Option Uuid
  | exchanging link _ | limiting link _ _ | creating link _ _ => some link.id
  | restoring id => some id
  | _ => none

/-- The code can still be claimed, if it is restored. -/
def Store.claimable (st : Store) (id : Uuid) : Bool :=
  (st.codes.get? id).any fun r => decide (r.expiresAt > st.now)

/-- The Telegram webhook claims no delegate code that is pinned to another kind, and can read the
plan when it has claimed one; a restore does not fail while the code lasts. -/
def sparing (s : Pooled Store Phase) : Act Request Choice Nat → Bool
  | .go i choice =>
    match s.tasks[i]?, choice with
    | some (.claimingDelegate hash), .ok =>
      (s.store.peek .delegate hash).all fun r => accepts r.kindHint .telegramApp
    | some (.limiting link (.telegram true) _), .fails => !s.store.claimable link.id
    | some (.restoring id), .fails => !s.store.claimable id
    | _, _ => true
  | _ => true

def channelsOf (st : Store) (id : Uuid) : Nat := st.channels.countP fun ch => ch.link.id == id

/-- How many channels a code made, and requests that may still make one or restore it. -/
def claims (s : Pooled Store Phase) (id : Uuid) : Nat :=
  channelsOf s.store id + s.tasks.countP fun p => p.spends == some id

/-! ## The invariant -/

/-- A code that may be spent on a kind. -/
def Accepts (st : Store) (id : Uuid) (kind : ChannelKind) : Prop :=
  id < st.nextId ∧ ∀ r ∈ st.codes.rows, r.id = id → accepts r.kindHint kind = true

/-- A claim that may make a channel of a kind, and precedes every revoke of its code. -/
structure LinkFits (st : Store) (link : ConsumedLink) (kind : ChannelKind) : Prop where
  issued : link.id < st.nextId
  counted : link.claim < st.events
  accepted : accepts link.kindHint kind = true
  hint : ∀ r ∈ st.codes.rows, r.id = link.id → r.kindHint = link.kindHint
  revokes : ∀ e ∈ st.revokes, e.1 = link.id → link.claim < e.2

def Phase.Fits (st : Store) : Phase → Prop
  | claimingForm id kind => Accepts st id kind
  | insertingState id provider | claimingCallback id provider => Accepts st id provider.kind
  | exchanging link provider => LinkFits st link provider.kind
  | limiting link via kind | creating link via kind => LinkFits st link kind ∧
    (via.restores = false → ∀ r ∈ st.codes.rows, r.id = link.id → r.purpose ≠ .delegate)
  | restoring id => id < st.nextId
  | attaching id _ => id < st.nextId ∧ 1 ≤ channelsOf st id
  | minting _ purpose kindHint => purpose ≠ .delegate → kindHint = none
  | _ => True

structure Sound (s : Pooled Store Phase) : Prop where
  fits : ∀ q ∈ s.tasks, q.Fits s.store
  states : ∀ o ∈ s.store.states.rows, ∀ id, o.linkCodeId = some id →
    Accepts s.store id o.provider.kind
  channels : ∀ ch ∈ s.store.channels, LinkFits s.store ch.link ch.kind
  issued : ∀ r ∈ s.store.codes.rows, r.id < s.store.nextId
  unpinned : ∀ r ∈ s.store.codes.rows, r.purpose ≠ .delegate → r.kindHint = none
  attached : ∀ r ∈ s.store.codes.rows, r.channelId ≠ none → 1 ≤ channelsOf s.store r.id
  revoked : ∀ e ∈ s.store.revokes, e.1 < s.store.nextId ∧ e.2 < s.store.events ∧
    ∀ r ∈ s.store.codes.rows, r.id = e.1 → r.revokedAt ≠ none
  once : ∀ id, claims s id ≤ 1
  unspent : ∀ r ∈ s.store.codes.rows, r.consumedAt = none → claims s r.id = 0
  kept : ∀ r ∈ s.store.codes.rows, r.purpose = .delegate → r.expiresAt > s.store.now →
    r.consumedAt ≠ none → 1 ≤ claims s r.id

/-! ## How the store moves -/

/-- Codes keep their purpose and pinned kind, and what is revoked stays so. -/
structure Grows (st st' : Store) : Prop where
  nextId : st.nextId ≤ st'.nextId
  events : st.events ≤ st'.events
  rows : ∀ r' ∈ st'.codes.rows, st.nextId ≤ r'.id ∨ ∃ r ∈ st.codes.rows, r.id = r'.id ∧
    r.purpose = r'.purpose ∧ r.kindHint = r'.kindHint
  revokes : ∀ e ∈ st'.revokes, e ∈ st.revokes ∨ st.events ≤ e.2
  channels : ∀ id, channelsOf st id ≤ channelsOf st' id

section

variable {st st' : Store} {id : Uuid} {kind : ChannelKind} {link : ConsumedLink}

theorem Grows.accepts (h : Grows st st') (ha : Accepts st id kind) : Accepts st' id kind := by
  refine ⟨Nat.lt_of_lt_of_le ha.1 h.nextId, ?_⟩
  intro r' hr' hid
  rcases h.rows r' hr' with hnew | ⟨r, hr, hrid, -, hhint⟩
  · exact absurd (hid ▸ hnew) (Nat.not_le_of_lt ha.1)
  · rw [← hhint]
    exact ha.2 r hr (hrid.trans hid)

theorem Grows.linkFits (h : Grows st st') (hl : LinkFits st link kind) : LinkFits st' link kind := by
  refine ⟨Nat.lt_of_lt_of_le hl.issued h.nextId, Nat.lt_of_lt_of_le hl.counted h.events,
    hl.accepted, ?_, ?_⟩
  · intro r' hr' hid
    rcases h.rows r' hr' with hnew | ⟨r, hr, hrid, -, hhint⟩
    · exact absurd (hid ▸ hnew) (Nat.not_le_of_lt hl.issued)
    · rw [← hhint]
      exact hl.hint r hr (hrid.trans hid)
  · intro e he hid
    rcases h.revokes e he with hold | hnew
    · exact hl.revokes e hold hid
    · exact Nat.lt_of_lt_of_le hl.counted hnew

theorem Grows.fits (h : Grows st st') {q : Phase} (hq : q.Fits st) : q.Fits st' := by
  cases q with
  | claimingForm id kind => exact h.accepts hq
  | insertingState id provider | claimingCallback id provider => exact h.accepts hq
  | exchanging link provider => exact h.linkFits hq
  | limiting link via kind | creating link via kind =>
    refine ⟨h.linkFits hq.1, ?_⟩
    intro hvia r' hr' hid
    rcases h.rows r' hr' with hnew | ⟨r, hr, hrid, hpurpose, -⟩
    · exact absurd (hid ▸ hnew) (Nat.not_le_of_lt hq.1.issued)
    · rw [← hpurpose]
      exact hq.2 hvia r hr (hrid.trans hid)
  | restoring id => exact Nat.lt_of_lt_of_le hq h.nextId
  | attaching id channel =>
    exact ⟨Nat.lt_of_lt_of_le hq.1 h.nextId, Nat.le_trans hq.2 (h.channels id)⟩
  | minting org purpose kindHint => exact hq
  | _ => trivial

theorem Grows.refl (st : Store) : Grows st st :=
  ⟨Nat.le_refl _, Nat.le_refl _, fun r' hr' => .inr ⟨r', hr', rfl, rfl, rfl⟩, fun _ => .inl,
    fun _ => Nat.le_refl _⟩

theorem Grows.of_update {codes : Rows LinkCode.id} {events : Nat} {revokes : List (Uuid × Nat)}
    (hevents : st.events ≤ events)
    (hrows : ∀ r' ∈ codes.rows, ∃ r ∈ st.codes.rows, r.id = r'.id ∧ r.purpose = r'.purpose ∧
      r.kindHint = r'.kindHint)
    (hrevokes : ∀ e ∈ revokes, e ∈ st.revokes ∨ st.events ≤ e.2) :
    Grows st { st with codes := codes, events := events, revokes := revokes } :=
  ⟨Nat.le_refl _, hevents, fun r' hr' => .inr (hrows r' hr'), hrevokes, fun _ => Nat.le_refl _⟩

theorem mem_update_rows {q : LinkCode → Bool} {f : LinkCode → LinkCode}
    (hf : ∀ r, (f r).id = r.id) {r' : LinkCode} (h : r' ∈ (st.codes.update q f hf).rows) :
    (r' ∈ st.codes.rows ∧ q r' = false) ∨ ∃ r ∈ st.codes.rows, q r = true ∧ r' = f r := by
  obtain ⟨r, hr, heq⟩ := List.mem_map.mp h
  cases hq : q r with
  | true =>
    rw [if_pos hq] at heq
    exact .inr ⟨r, hr, hq, heq.symm⟩
  | false =>
    rw [if_neg (by rw [hq]; exact Bool.false_ne_true)] at heq
    exact .inl ⟨heq ▸ hr, heq ▸ hq⟩

end

/-! ## Steps -/

section

variable {s s' : Pooled Store Phase} {i : Nat} {p p' : Phase} {st : Store}
  {id : Uuid} {kind : ChannelKind} {link : ConsumedLink}

theorem claims_set (st : Store) (p' : Phase) (hp : s.tasks[i]? = some p) (id : Uuid) :
    claims ⟨st, s.tasks.set i p'⟩ id + (channelsOf s.store id +
        if p.spends = some id then 1 else 0) =
      claims s id + (channelsOf st id + if p'.spends = some id then 1 else 0) := by
  have hcount := countP_set_add (fun p : Phase => p.spends == some id) hp p'
  simp only [beq_iff_eq] at hcount
  unfold claims
  dsimp only
  omega

theorem Sound.held (h : Sound s) (hp : s.tasks[i]? = some p) (hspends : p.spends = some id) :
    claims s id = 1 ∧ channelsOf s.store id = 0 := by
  have hpos : 0 < s.tasks.countP fun p => p.spends == some id :=
    List.countP_pos_iff.mpr ⟨p, List.mem_of_getElem? hp, beq_iff_eq.mpr hspends⟩
  have honce := h.once id
  unfold claims at honce ⊢
  omega

theorem Sound.quiet (h : Sound s) (hp : s.tasks[i]? = some p) (hgrows : Grows s.store st)
    (hcodes : st.codes = s.store.codes) (hchannels : st.channels = s.store.channels)
    (hrevokes : st.revokes = s.store.revokes) (hnow : st.now = s.store.now)
    (hstates : ∀ o ∈ st.states.rows, ∀ id, o.linkCodeId = some id →
      Accepts s.store id o.provider.kind)
    (hfits : p'.Fits st) (hspends : p'.spends = p.spends) : Sound ⟨st, s.tasks.set i p'⟩ := by
  have hof : ∀ id, channelsOf st id = channelsOf s.store id := by
    intro id
    unfold channelsOf
    rw [hchannels]
  have hclaims : ∀ id, claims ⟨st, s.tasks.set i p'⟩ id = claims s id := by
    intro id
    have hset := claims_set st p' hp id
    rw [hof, hspends] at hset
    exact Nat.add_right_cancel hset
  refine ⟨?_, ?_, ?_, ?_, ?_, ?_, ?_, ?_, ?_, ?_⟩
  · exact forall_mem_set (fun q hq => hgrows.fits (h.fits q hq)) hfits
  · exact fun o ho id hid => hgrows.accepts (hstates o ho id hid)
  · intro ch hch
    rw [hchannels] at hch
    exact hgrows.linkFits (h.channels ch hch)
  · intro r hr
    rw [hcodes] at hr
    exact Nat.lt_of_lt_of_le (h.issued r hr) hgrows.nextId
  · intro r hr
    rw [hcodes] at hr
    exact h.unpinned r hr
  · intro r hr
    rw [hcodes] at hr
    rw [hof]
    exact h.attached r hr
  · intro e he
    rw [hrevokes] at he
    obtain ⟨hid, hevent, hrows⟩ := h.revoked e he
    refine ⟨Nat.lt_of_lt_of_le hid hgrows.nextId, Nat.lt_of_lt_of_le hevent hgrows.events, ?_⟩
    rw [hcodes]
    exact hrows
  · intro id
    rw [hclaims]
    exact h.once id
  · intro r hr
    rw [hcodes] at hr
    rw [hclaims]
    exact h.unspent r hr
  · intro r hr
    rw [hcodes] at hr
    rw [hclaims, hnow]
    exact h.kept r hr

theorem Sound.idle (h : Sound s) (hp : s.tasks[i]? = some p) (hfits : p'.Fits s.store)
    (hspends : p'.spends = p.spends) : Sound ⟨s.store, s.tasks.set i p'⟩ :=
  h.quiet hp (.refl _) rfl rfl rfl rfl h.states hfits hspends

theorem Sound.recoded (h : Sound s) {codes : Rows LinkCode.id} {events : Nat}
    {revokes : List (Uuid × Nat)} (hevents : s.store.events ≤ events)
    (hrows : ∀ r' ∈ codes.rows, ∃ r ∈ s.store.codes.rows, r.id = r'.id ∧
      r.purpose = r'.purpose ∧ r.kindHint = r'.kindHint ∧
      (r.revokedAt ≠ none → r'.revokedAt ≠ none))
    (hrevokes : ∀ e ∈ revokes, e ∈ s.store.revokes ∨ (s.store.events ≤ e.2 ∧ e.2 < events ∧
      e.1 < s.store.nextId ∧ ∀ r' ∈ codes.rows, r'.id = e.1 → r'.revokedAt ≠ none))
    (hfits : p'.Fits { s.store with codes := codes, events := events, revokes := revokes })
    (hattached : ∀ r' ∈ codes.rows, r'.channelId ≠ none → 1 ≤ channelsOf s.store r'.id)
    (honce : ∀ id, claims ⟨{ s.store with codes := codes, events := events, revokes := revokes },
      s.tasks.set i p'⟩ id ≤ 1)
    (hspent : ∀ r' ∈ codes.rows,
      (r'.consumedAt = none → claims ⟨{ s.store with
        codes := codes, events := events, revokes := revokes }, s.tasks.set i p'⟩ r'.id = 0) ∧
      (r'.purpose = .delegate → r'.expiresAt > s.store.now → r'.consumedAt ≠ none →
        1 ≤ claims ⟨{ s.store with codes := codes, events := events, revokes := revokes },
          s.tasks.set i p'⟩ r'.id)) :
    Sound ⟨{ s.store with codes := codes, events := events, revokes := revokes },
      s.tasks.set i p'⟩ := by
  have hgrows : Grows s.store
      { s.store with codes := codes, events := events, revokes := revokes } := by
    refine .of_update hevents ?_ ?_
    · intro r' hr'
      obtain ⟨r, hr, hid, hpurpose, hhint, -⟩ := hrows r' hr'
      exact ⟨r, hr, hid, hpurpose, hhint⟩
    · exact fun e he => (hrevokes e he).imp_right And.left
  refine ⟨?_, ?_, ?_, ?_, ?_, hattached, ?_, honce, fun r hr => (hspent r hr).1,
    fun r hr => (hspent r hr).2⟩
  · exact forall_mem_set (fun q hq => hgrows.fits (h.fits q hq)) hfits
  · exact fun o ho id hid => hgrows.accepts (h.states o ho id hid)
  · exact fun ch hch => hgrows.linkFits (h.channels ch hch)
  · intro r' hr'
    obtain ⟨r, hr, hid, -⟩ := hrows r' hr'
    rw [← hid]
    exact h.issued r hr
  · intro r' hr'
    obtain ⟨r, hr, -, hpurpose, hhint, -⟩ := hrows r' hr'
    rw [← hpurpose, ← hhint]
    exact h.unpinned r hr
  · intro e he
    rcases hrevokes e he with hold | ⟨-, hevent, hid, hall⟩
    · obtain ⟨hid, hevent, hall⟩ := h.revoked e hold
      refine ⟨hid, Nat.lt_of_lt_of_le hevent hevents, ?_⟩
      intro r' hr' hrid
      obtain ⟨r, hr, hsame, -, -, hrevoked⟩ := hrows r' hr'
      exact hrevoked (hall r hr (hsame.trans hrid))
    · exact ⟨hid, hevent, hall⟩

variable {r : LinkCode} {org : OrgId} {purpose : LinkPurpose} {hash : String} {via : Via}

theorem Sound.claimedRow (h : Sound s) (hp : s.tasks[i]? = some p) (hr : r ∈ s.store.codes.rows)
    (hlive : r.live s.store.now = true) (hnone : p.spends = none)
    (hfits : LinkFits (s.store.claimRow r).2 (s.store.claimRow r).1 kind →
      p'.Fits (s.store.claimRow r).2) (haccepts : accepts r.kindHint kind = true)
    (hspends : p'.spends = some r.id) : Sound ⟨(s.store.claimRow r).2, s.tasks.set i p'⟩ := by
  simp only [LinkCode.live, Bool.and_eq_true, Option.isNone_iff_eq_none, decide_eq_true_eq] at hlive
  obtain ⟨⟨hunconsumed, hunrevoked⟩, hfuture⟩ := hlive
  have hzero : claims s r.id = 0 := h.unspent r hr hunconsumed
  have hrows : ∀ r' ∈ (s.store.claimRow r).2.codes.rows,
      (r' ∈ s.store.codes.rows ∧ r'.id ≠ r.id) ∨ r' = r.consume s.store.now := by
    intro r' hr'
    rcases mem_update_rows (LinkCode.consume_id _) hr' with ⟨hmem, hne⟩ | ⟨r₀, hr₀, hid, rfl⟩
    · exact .inl ⟨hmem, beq_eq_false_iff_ne.mp hne⟩
    · rw [Rows.eq_of_key hr₀ hr (beq_iff_eq.mp hid)]
      exact .inr rfl
  have hclaims : ∀ id, claims ⟨(s.store.claimRow r).2, s.tasks.set i p'⟩ id =
      claims s id + if r.id = id then 1 else 0 := by
    intro id
    have hset := claims_set (s.store.claimRow r).2 p' hp id
    have hof : channelsOf (s.store.claimRow r).2 id = channelsOf s.store id := rfl
    rw [hof, hnone, hspends, if_neg fun heq => nomatch heq] at hset
    simp only [Option.some.injEq] at hset
    omega
  have hold : ∀ r' ∈ (s.store.claimRow r).2.codes.rows, ∃ r₀ ∈ s.store.codes.rows,
      r₀.id = r'.id ∧ r₀.purpose = r'.purpose ∧ r₀.kindHint = r'.kindHint ∧
      r₀.revokedAt = r'.revokedAt ∧ r₀.channelId = r'.channelId := by
    intro r' hr'
    rcases hrows r' hr' with ⟨hmem, -⟩ | rfl
    · exact ⟨r', hmem, rfl, rfl, rfl, rfl, rfl⟩
    · exact ⟨r, hr, rfl, rfl, rfl, rfl, rfl⟩
  have hlink : LinkFits (s.store.claimRow r).2 (s.store.claimRow r).1 kind := by
    refine ⟨h.issued r hr, Nat.lt_succ_self _, haccepts, ?_, ?_⟩
    · intro r' hr' hid
      obtain ⟨r₀, hr₀, hrid, -, hhint, -⟩ := hold r' hr'
      rw [← hhint, Rows.eq_of_key hr₀ hr (hrid.trans hid)]
      rfl
    · -- the code would have been revoked
      intro e he hid
      exact absurd hunrevoked ((h.revoked e he).2.2 r hr hid.symm)
  refine h.recoded (Nat.le_succ _) ?_ (fun e he => .inl he) (hfits hlink) ?_ ?_ ?_
  · intro r' hr'
    obtain ⟨r₀, hr₀, hrid, hpurpose, hhint, hrevoked, -⟩ := hold r' hr'
    exact ⟨r₀, hr₀, hrid, hpurpose, hhint, fun hne => hrevoked ▸ hne⟩
  · intro r' hr' hchannel
    obtain ⟨r₀, hr₀, hrid, -, -, -, hsame⟩ := hold r' hr'
    rw [← hrid]
    exact h.attached r₀ hr₀ (hsame ▸ hchannel)
  · intro id
    have heq := hclaims id
    have honce := h.once id
    change claims ⟨(s.store.claimRow r).2, s.tasks.set i p'⟩ id ≤ 1
    by_cases hid : r.id = id
    · rw [if_pos hid] at heq
      subst hid
      omega
    · rw [if_neg hid] at heq
      omega
  · intro r' hr'
    have heq := hclaims r'.id
    change (_ → claims ⟨(s.store.claimRow r).2, s.tasks.set i p'⟩ r'.id = 0) ∧
      (_ → _ → _ → 1 ≤ claims ⟨(s.store.claimRow r).2, s.tasks.set i p'⟩ r'.id)
    rcases hrows r' hr' with ⟨hmem, hne⟩ | rfl
    · rw [if_neg fun heq => hne heq.symm, Nat.add_zero] at heq
      rw [heq]
      exact ⟨h.unspent r' hmem, h.kept r' hmem⟩
    · rw [LinkCode.consume_id, if_pos rfl] at heq
      refine ⟨fun hnone => absurd hnone (Option.some_ne_none _), fun _ _ _ => ?_⟩
      rw [LinkCode.consume_id]
      omega

theorem claimRow_purpose {r' : LinkCode} (hr : r ∈ s.store.codes.rows)
    (hr' : r' ∈ (s.store.claimRow r).2.codes.rows) (hid : r'.id = r.id) :
    r'.purpose = r.purpose := by
  rcases mem_update_rows (LinkCode.consume_id _) hr' with ⟨-, hne⟩ | ⟨r₀, hr₀, hid₀, rfl⟩
  · exact absurd hid (beq_eq_false_iff_ne.mp hne)
  · rw [Rows.eq_of_key hr₀ hr (beq_iff_eq.mp hid₀)]
    rfl

theorem Sound.dropped (h : Sound s) (hp : s.tasks[i]? = some p) (hspends : p.spends = some id)
    (hlost : ∀ r ∈ s.store.codes.rows, r.id = id → r.purpose = .delegate →
      ¬r.expiresAt > s.store.now) :
    Sound ⟨s.store, s.tasks.set i .done⟩ := by
  have hclaims : ∀ id', claims ⟨s.store, s.tasks.set i .done⟩ id' +
      (if id = id' then 1 else 0) = claims s id' := by
    intro id'
    have hset := claims_set s.store .done hp id'
    have hdone : ¬Phase.done.spends = some id' := Option.some_ne_none _ ∘ Eq.symm
    rw [hspends, if_neg hdone] at hset
    simp only [Option.some.injEq] at hset
    omega
  refine ⟨forall_mem_set h.fits trivial, h.states, h.channels, h.issued, h.unpinned, h.attached,
    h.revoked, ?_, ?_, ?_⟩
  · intro id'
    have hc := hclaims id'
    have honce := h.once id'
    omega
  · intro r hr hnone
    have hc := hclaims r.id
    have hzero := h.unspent r hr hnone
    change claims _ r.id = 0
    omega
  · intro r hr hdelegate hfuture hconsumed
    have hc := hclaims r.id
    have hkept := h.kept r hr hdelegate hfuture hconsumed
    have hne : id ≠ r.id := fun heq => hlost r hr heq.symm hdelegate hfuture
    rw [if_neg hne] at hc
    change 1 ≤ claims _ r.id
    omega

theorem Sound.restored (h : Sound s) (hp : s.tasks[i]? = some (.restoring id)) :
    Sound ⟨s.store.restore id, s.tasks.set i .done⟩ := by
  obtain ⟨hone, hnochannel⟩ := h.held hp rfl
  have hclaims : ∀ id', claims ⟨s.store.restore id, s.tasks.set i .done⟩ id' +
      (if id = id' then 1 else 0) = claims s id' := by
    intro id'
    have hset := claims_set (s.store.restore id) .done hp id'
    have hof : channelsOf (s.store.restore id) id' = channelsOf s.store id' := rfl
    simp only [hof, Phase.spends, Option.some.injEq, reduceCtorEq, ↓reduceIte] at hset
    omega
  have hrows : ∀ r' ∈ (s.store.restore id).codes.rows,
      (r' ∈ s.store.codes.rows ∧ r'.id ≠ id) ∨
      ∃ r ∈ s.store.codes.rows, r.id = id ∧ r' = r.restore := by
    intro r' hr'
    rcases mem_update_rows LinkCode.restore_id hr' with ⟨hmem, hne⟩ | ⟨r, hr, hmatch, rfl⟩
    · refine .inl ⟨hmem, ?_⟩
      intro hid
      -- a code with a channel is not held
      rw [Bool.and_eq_false_iff] at hne
      rcases hne with hne | hattached
      · exact beq_eq_false_iff_ne.mp hne hid
      · have hsome : r'.channelId ≠ none := by
          intro hnone
          rw [hnone] at hattached
          cases hattached
        have hpos := h.attached r' hmem hsome
        rw [hid] at hpos
        omega
    · exact .inr ⟨r, hr, beq_iff_eq.mp (Bool.and_eq_true_iff.mp hmatch).1, rfl⟩
  refine h.recoded (Nat.le_refl _) ?_ (fun e he => .inl he) trivial ?_ ?_ ?_
  · intro r' hr'
    rcases hrows r' hr' with ⟨hmem, -⟩ | ⟨r, hr, -, rfl⟩
    · exact ⟨r', hmem, rfl, rfl, rfl, fun hr => hr⟩
    · exact ⟨r, hr, rfl, rfl, rfl, fun hr => hr⟩
  · intro r' hr' hchannel
    rcases hrows r' hr' with ⟨hmem, -⟩ | ⟨r, hr, -, rfl⟩
    · exact h.attached r' hmem hchannel
    · exact h.attached r hr hchannel
  · intro id'
    have hc := hclaims id'
    have honce := h.once id'
    change claims ⟨s.store.restore id, s.tasks.set i .done⟩ id' ≤ 1
    omega
  · intro r' hr'
    have hc := hclaims r'.id
    change (_ → claims ⟨s.store.restore id, s.tasks.set i .done⟩ r'.id = 0) ∧
      (_ → _ → _ → 1 ≤ claims ⟨s.store.restore id, s.tasks.set i .done⟩ r'.id)
    rcases hrows r' hr' with ⟨hmem, hne⟩ | ⟨r, hr, hid, rfl⟩
    · rw [if_neg fun heq => hne heq.symm, Nat.add_zero] at hc
      rw [hc]
      exact ⟨h.unspent r' hmem, h.kept r' hmem⟩
    · rw [LinkCode.restore_id, hid, if_pos rfl] at hc
      refine ⟨fun _ => ?_, fun _ _ hconsumed => absurd rfl hconsumed⟩
      rw [LinkCode.restore_id, hid]
      omega

theorem claims_of_spends (codes : Rows LinkCode.id) (events : Nat) (revokes : List (Uuid × Nat))
    (hp : s.tasks[i]? = some p) (hspends : p'.spends = p.spends) (id : Uuid) :
    claims ⟨{ s.store with codes := codes, events := events, revokes := revokes },
      s.tasks.set i p'⟩ id = claims s id := by
  have hset := claims_set
    { s.store with codes := codes, events := events, revokes := revokes } p' hp id
  rw [hspends] at hset
  exact Nat.add_right_cancel hset

theorem Sound.attachedTo (h : Sound s) {channel : Uuid}
    (hp : s.tasks[i]? = some (.attaching id channel)) :
    Sound ⟨s.store.attachChannel id channel, s.tasks.set i .done⟩ := by
  obtain ⟨-, hmade⟩ := h.fits _ (List.mem_of_getElem? hp)
  have hrows : ∀ r' ∈ (s.store.attachChannel id channel).codes.rows,
      ∃ r ∈ s.store.codes.rows, r.id = r'.id ∧ r.purpose = r'.purpose ∧
        r.kindHint = r'.kindHint ∧ r.revokedAt = r'.revokedAt ∧ r.consumedAt = r'.consumedAt ∧
        r.expiresAt = r'.expiresAt ∧ (r'.id = id ∨ r.channelId = r'.channelId) := by
    intro r' hr'
    rcases mem_update_rows (LinkCode.attach_id _) hr' with ⟨hmem, -⟩ | ⟨r, hr, hid, rfl⟩
    · exact ⟨r', hmem, rfl, rfl, rfl, rfl, rfl, rfl, .inr rfl⟩
    · exact ⟨r, hr, rfl, rfl, rfl, rfl, rfl, rfl, .inl (beq_iff_eq.mp hid)⟩
  have hclaims : ∀ id', claims ⟨s.store.attachChannel id channel, s.tasks.set i .done⟩ id' =
      claims s id' := claims_of_spends _ _ _ hp rfl
  refine h.recoded (Nat.le_refl _) ?_ (fun e he => .inl he) trivial ?_ ?_ ?_
  · intro r' hr'
    obtain ⟨r, hr, hid, hpurpose, hhint, hrevoked, -⟩ := hrows r' hr'
    exact ⟨r, hr, hid, hpurpose, hhint, fun hne => hrevoked ▸ hne⟩
  · intro r' hr' hchannel
    obtain ⟨r, hr, hid, -, -, -, -, -, hnew | hsame⟩ := hrows r' hr'
    · rw [hnew]
      exact hmade
    · rw [← hid]
      exact h.attached r hr (hsame ▸ hchannel)
  · intro id'
    change claims ⟨s.store.attachChannel id channel, s.tasks.set i .done⟩ id' ≤ 1
    rw [hclaims]
    exact h.once id'
  · intro r' hr'
    obtain ⟨r, hr, hid, hpurpose, -, -, hconsumed, hexpires, -⟩ := hrows r' hr'
    change (_ → claims ⟨s.store.attachChannel id channel, s.tasks.set i .done⟩ r'.id = 0) ∧
      (_ → _ → _ → 1 ≤ claims ⟨s.store.attachChannel id channel, s.tasks.set i .done⟩ r'.id)
    rw [hclaims, ← hid, ← hpurpose, ← hconsumed, ← hexpires]
    exact ⟨h.unspent r hr, h.kept r hr⟩

theorem Sound.revokedBy (h : Sound s) (hp : s.tasks[i]? = some (.revoking org id)) :
    Sound ⟨s.store.revoke org id, s.tasks.set i .done⟩ := by
  unfold Store.revoke
  split
  · next hany =>
    obtain ⟨r₀, hr₀, hmatch₀⟩ := List.any_eq_true.mp hany
    have hid₀ : r₀.id = id := by
      simp only [Store.revocable, Bool.and_eq_true, beq_iff_eq] at hmatch₀
      exact hmatch₀.1.1.1.1
    have hrows : ∀ r' ∈ (s.store.codes.update (Store.revocable org id)
        (LinkCode.revoke s.store.now) (LinkCode.revoke_id s.store.now)).rows,
        ∃ r ∈ s.store.codes.rows, r.id = r'.id ∧ r.purpose = r'.purpose ∧
          r.kindHint = r'.kindHint ∧ r.consumedAt = r'.consumedAt ∧ r.expiresAt = r'.expiresAt ∧
          r.channelId = r'.channelId ∧ (r.revokedAt ≠ none → r'.revokedAt ≠ none) ∧
          (r'.id = id → r'.revokedAt ≠ none) := by
      intro r' hr'
      rcases mem_update_rows (LinkCode.revoke_id _) hr' with ⟨hmem, hne⟩ | ⟨r, hr, -, rfl⟩
      · refine ⟨r', hmem, rfl, rfl, rfl, rfl, rfl, rfl, fun hr => hr, ?_⟩
        intro hid
        rw [Rows.eq_of_key hmem hr₀ (hid.trans hid₀.symm), hmatch₀] at hne
        cases hne
      · exact ⟨r, hr, rfl, rfl, rfl, rfl, rfl, rfl, fun _ => Option.some_ne_none _,
          fun _ => Option.some_ne_none _⟩
    have hclaims := claims_of_spends (s.store.codes.update (Store.revocable org id)
        (LinkCode.revoke s.store.now) (LinkCode.revoke_id s.store.now))
      (s.store.events + 1) (s.store.revokes ++ [(id, s.store.events)])
      hp (show Phase.done.spends = _ from rfl)
    refine h.recoded (Nat.le_succ _) ?_ ?_ trivial ?_ ?_ ?_
    · intro r' hr'
      obtain ⟨r, hr, hid, hpurpose, hhint, -, -, -, hrevoked, -⟩ := hrows r' hr'
      exact ⟨r, hr, hid, hpurpose, hhint, hrevoked⟩
    · intro e he
      rcases List.mem_append.mp he with he | he
      · exact .inl he
      · right
        rw [List.mem_singleton.mp he]
        refine ⟨Nat.le_refl _, Nat.lt_succ_self _, hid₀ ▸ h.issued r₀ hr₀, ?_⟩
        intro r' hr' hid
        obtain ⟨r, -, -, -, -, -, -, -, -, hnew⟩ := hrows r' hr'
        exact hnew hid
    · intro r' hr' hchannel
      obtain ⟨r, hr, hid, -, -, -, -, hsame, -⟩ := hrows r' hr'
      rw [← hid]
      exact h.attached r hr (hsame ▸ hchannel)
    · intro id'
      rw [hclaims]
      exact h.once id'
    · intro r' hr'
      obtain ⟨r, hr, hid, hpurpose, -, hconsumed, hexpires, -⟩ := hrows r' hr'
      rw [hclaims, ← hid, ← hpurpose, ← hconsumed, ← hexpires]
      exact ⟨h.unspent r hr, h.kept r hr⟩
  · exact h.idle hp trivial rfl

theorem purge_rows (hr : r ∈ (s.store.purge org).codes.rows) :
    r ∈ s.store.codes.rows := (Rows.mem_delete.1 hr).1

theorem Sound.minted (h : Sound s) {kindHint : Option ChannelKind}
    (hp : s.tasks[i]? = some (.minting org purpose kindHint)) :
    Sound ⟨s.store.mint org purpose hash kindHint, s.tasks.set i .done⟩ := by
  have hhint : purpose ≠ .delegate → kindHint = none := h.fits _ (List.mem_of_getElem? hp)
  unfold Store.mint
  dsimp only
  split
  · have hrows : ∀ r' ∈ ((s.store.purge org).codes.insert ⟨s.store.nextId, org, purpose, hash,
        kindHint, s.store.now + purpose.ttl, none, none, none⟩).rows,
        r' ∈ s.store.codes.rows ∨ (r'.id = s.store.nextId ∧ r'.purpose = purpose ∧
          r'.kindHint = kindHint ∧ r'.consumedAt = none ∧ r'.channelId = none) := by
      intro r' hr'
      rcases Rows.mem_insert hr' with hr' | rfl
      · exact .inl (purge_rows hr')
      · exact .inr ⟨rfl, rfl, rfl, rfl, rfl⟩
    -- no claim names a code that was not yet issued
    have hfresh : claims s s.store.nextId = 0 := by
      refine Nat.add_eq_zero_iff.mpr ⟨?_, ?_⟩
      · refine List.countP_eq_zero.mpr ?_
        intro ch hch heq
        exact Nat.lt_irrefl _ (beq_iff_eq.mp heq ▸ (h.channels ch hch).issued)
      · refine List.countP_eq_zero.mpr ?_
        intro q hq heq
        have hfits := h.fits q hq
        cases q with
        | exchanging link provider =>
          exact Nat.lt_irrefl _ (Option.some.inj (beq_iff_eq.mp heq) ▸ LinkFits.issued hfits)
        | limiting link via kind | creating link via kind =>
          exact Nat.lt_irrefl _ (Option.some.inj (beq_iff_eq.mp heq) ▸ LinkFits.issued hfits.1)
        | restoring id =>
          exact Nat.lt_irrefl _ (Option.some.inj (beq_iff_eq.mp heq) ▸ hfits)
        | _ => cases heq
    have hgrows : Grows s.store { s.store.purge org with
        codes := (s.store.purge org).codes.insert ⟨s.store.nextId, org, purpose, hash, kindHint,
          s.store.now + purpose.ttl, none, none, none⟩
        nextId := s.store.nextId + 1 } := by
      refine ⟨Nat.le_succ _, Nat.le_refl _, ?_, fun e he => .inl he, fun _ => Nat.le_refl _⟩
      intro r' hr'
      rcases hrows r' hr' with hold | ⟨hid, -⟩
      · exact .inr ⟨r', hold, rfl, rfl, rfl⟩
      · exact .inl (Nat.le_of_eq hid.symm)
    have hclaims : ∀ id, claims ⟨{ s.store.purge org with
        codes := (s.store.purge org).codes.insert ⟨s.store.nextId, org, purpose, hash, kindHint,
          s.store.now + purpose.ttl, none, none, none⟩
        nextId := s.store.nextId + 1 }, s.tasks.set i .done⟩ id = claims s id := by
      intro id
      exact Nat.add_right_cancel (claims_set _ .done hp id)
    refine ⟨forall_mem_set (fun q hq => hgrows.fits (h.fits q hq)) trivial, ?_,
      fun ch hch => hgrows.linkFits (h.channels ch hch), ?_, ?_, ?_, ?_, ?_, ?_, ?_⟩
    · intro o ho id hid
      exact hgrows.accepts (h.states o (Rows.mem_delete.1 ho).1 id hid)
    · intro r' hr'
      rcases hrows r' hr' with hold | ⟨hid, -⟩
      · exact Nat.lt_succ_of_lt (h.issued r' hold)
      · exact Nat.lt_succ_of_le (Nat.le_of_eq hid)
    · intro r' hr' hpurpose
      rcases hrows r' hr' with hold | ⟨-, hnew, hkind, -⟩
      · exact h.unpinned r' hold hpurpose
      · rw [hkind]
        exact hhint (hnew ▸ hpurpose)
    · intro r' hr' hchannel
      rcases hrows r' hr' with hold | ⟨-, -, -, -, hnone⟩
      · exact h.attached r' hold hchannel
      · exact absurd hnone hchannel
    · intro e he
      obtain ⟨hid, hevent, hall⟩ := h.revoked e he
      refine ⟨Nat.lt_succ_of_lt hid, hevent, ?_⟩
      intro r' hr' hrid
      rcases hrows r' hr' with hold | ⟨hnew, -⟩
      · exact hall r' hold hrid
      · exact absurd (hnew.symm.trans hrid) (Nat.ne_of_gt hid)
    · intro id
      rw [hclaims]
      exact h.once id
    · intro r' hr' hnone
      rw [hclaims]
      rcases hrows r' hr' with hold | ⟨hid, -⟩
      · exact h.unspent r' hold hnone
      · rw [hid]
        exact hfresh
    · intro r' hr' hdelegate hfuture hconsumed
      rw [hclaims]
      rcases hrows r' hr' with hold | ⟨-, -, -, hnone, -⟩
      · exact h.kept r' hold hdelegate hfuture hconsumed
      · exact absurd hnone hconsumed
  · exact h.idle hp trivial rfl

theorem Sound.created (h : Sound s) (hp : s.tasks[i]? = some (.creating link via kind)) :
    Sound ⟨s.store.createChannel link kind,
      s.tasks.set i (.attaching link.id s.store.nextId)⟩ := by
  obtain ⟨hlink, -⟩ := h.fits _ (List.mem_of_getElem? hp)
  have hof : ∀ id, channelsOf (s.store.createChannel link kind) id =
      channelsOf s.store id + if link.id = id then 1 else 0 := by
    intro id
    unfold channelsOf Store.createChannel
    rw [List.countP_append, List.countP_singleton]
    simp only [beq_iff_eq]
  have hgrows : Grows s.store (s.store.createChannel link kind) := by
    refine ⟨Nat.le_succ _, Nat.le_refl _, fun r' hr' => .inr ⟨r', hr', rfl, rfl, rfl⟩,
      fun e he => .inl he, ?_⟩
    intro id
    rw [hof]
    exact Nat.le_add_right _ _
  have hclaims : ∀ id, claims ⟨s.store.createChannel link kind,
      s.tasks.set i (.attaching link.id s.store.nextId)⟩ id = claims s id := by
    intro id
    have hset := claims_set (s.store.createChannel link kind)
      (.attaching link.id s.store.nextId) hp id
    rw [hof] at hset
    simp only [Phase.spends, Option.some.injEq, reduceCtorEq, ↓reduceIte] at hset
    omega
  refine ⟨?_, fun o ho id hid => hgrows.accepts (h.states o ho id hid), ?_,
    fun r hr => Nat.lt_succ_of_lt (h.issued r hr), h.unpinned, ?_, ?_, ?_, ?_, ?_⟩
  · refine forall_mem_set (fun q hq => hgrows.fits (h.fits q hq)) ?_
    refine ⟨Nat.lt_succ_of_lt hlink.issued, ?_⟩
    rw [hof, if_pos rfl]
    exact Nat.le_add_left 1 _
  · intro ch hch
    rcases List.mem_append.mp hch with hch | hch
    · exact hgrows.linkFits (h.channels ch hch)
    · rw [List.mem_singleton.mp hch]
      exact hgrows.linkFits hlink
  · intro r hr hchannel
    exact Nat.le_trans (h.attached r hr hchannel) (hgrows.channels r.id)
  · intro e he
    obtain ⟨hid, hevent, hall⟩ := h.revoked e he
    exact ⟨Nat.lt_succ_of_lt hid, hevent, hall⟩
  · intro id
    rw [hclaims]
    exact h.once id
  · intro r hr
    rw [hclaims]
    exact h.unspent r hr
  · intro r hr
    rw [hclaims]
    exact h.kept r hr

theorem peek_eq_some (h : s.store.peek purpose hash = some r) :
    r ∈ s.store.codes.rows ∧ r.purpose = purpose ∧ r.live s.store.now = true := by
  unfold Store.peek at h
  have hr := List.find?_some h
  simp only [Bool.and_eq_true, beq_iff_eq] at hr
  exact ⟨List.mem_of_find?_eq_some h, hr.1.2, hr.2⟩

theorem Sound.accepts_of_peek (h : Sound s) (hr : s.store.peek purpose hash = some r)
    (hkind : accepts r.kindHint kind = true) : Accepts s.store r.id kind := by
  obtain ⟨hmem, -, -⟩ := peek_eq_some hr
  refine ⟨h.issued r hmem, ?_⟩
  intro r' hr' hid
  rw [Rows.eq_of_key hr' hmem hid]
  exact hkind

theorem expired_of_not_claimable (h : s.store.claimable id = false) (hr : r ∈ s.store.codes.rows)
    (hid : r.id = id) : ¬r.expiresAt > s.store.now := by
  intro hfuture
  unfold Store.claimable at h
  rw [Rows.get?_eq_some.2 ⟨hr, hid⟩, Option.any_some, decide_eq_true hfuture] at h
  cases h

theorem Sound.failed (h : Sound s) (hp : s.tasks[i]? = some p)
    (hnext : next s.store p .fails = some (st, p')) (hok : sparing s (.go i .fails) = true) :
    Sound ⟨st, s.tasks.set i p'⟩ := by
  have hfits := h.fits p (List.mem_of_getElem? hp)
  cases p with
  | limiting link via kind =>
    cases hnext
    split
    · exact h.idle hp hfits.1.issued rfl
    · next hkeeps =>
      refine h.dropped hp rfl ?_
      intro r hr hid hdelegate
      cases via with
      | form | oauth => exact absurd rfl hkeeps
      | whatsapp => exact absurd hdelegate (hfits.2 rfl r hr hid)
      | telegram delegated =>
        cases delegated with
        | false => exact absurd hdelegate (hfits.2 rfl r hr hid)
        | true =>
          -- the webhook's return without a restore
          refine expired_of_not_claimable ?_ hr hid
          simpa [sparing, hp] using hok
  | creating link via kind =>
    cases hnext
    split
    · exact h.idle hp hfits.1.issued rfl
    · next hkeeps =>
      refine h.dropped hp rfl ?_
      intro r hr hid hdelegate
      exact absurd hdelegate (hfits.2 (Bool.eq_false_iff.mpr hkeeps) r hr hid)
  | exchanging link provider =>
    cases hnext
    exact h.idle hp (LinkFits.issued hfits) rfl
  | restoring id =>
    cases hnext
    refine h.dropped hp rfl ?_
    intro r hr hid _
    refine expired_of_not_claimable ?_ hr hid
    simpa [sparing, hp] using hok
  | done => cases hnext
  | _ =>
    cases hnext
    exact h.idle hp trivial rfl

theorem Sound.consumed (h : Sound s) {otherwise : Phase} (hp : s.tasks[i]? = some p)
    (hnone : p.spends = none) (hother : otherwise.Fits s.store ∧ otherwise.spends = none)
    (hrestores : via.restores = false → purpose ≠ .delegate)
    (haccepts : ∀ r, s.store.peek purpose hash = some r → accepts r.kindHint kind = true)
    (hnext : claimed s.store (s.store.consume purpose hash)
      (fun link => .limiting link via kind) otherwise = (st, p')) :
    Sound ⟨st, s.tasks.set i p'⟩ := by
  unfold claimed Store.consume at hnext
  cases hpeek : s.store.peek purpose hash with
  | none =>
    rw [hpeek] at hnext
    cases hnext
    exact h.idle hp hother.1 (hother.2.trans hnone.symm)
  | some r =>
    rw [hpeek] at hnext
    cases hnext
    obtain ⟨hr, hpurpose, hlive⟩ := peek_eq_some hpeek
    refine h.claimedRow hp hr hlive hnone ?_ (haccepts r hpeek) rfl
    intro hlink
    refine ⟨hlink, ?_⟩
    intro hvia r' hr' hid
    rw [claimRow_purpose hr hr' hid, hpurpose]
    exact hrestores hvia

theorem Sound.consumedById (h : Sound s) {q : ConsumedLink → Phase} (hp : s.tasks[i]? = some p)
    (hnone : p.spends = none) (haccepts : Accepts s.store id kind)
    (hfits : ∀ (st : Store) link, LinkFits st link kind → (q link).Fits st)
    (hspends : ∀ link, (q link).spends = some link.id)
    (hnext : claimed s.store (s.store.consumeById id) q .done = (st, p')) :
    Sound ⟨st, s.tasks.set i p'⟩ := by
  unfold claimed Store.consumeById at hnext
  cases hget : (s.store.codes.get? id).filter (LinkCode.live s.store.now) with
  | none =>
    rw [hget] at hnext
    cases hnext
    exact h.idle hp trivial hnone.symm
  | some r =>
    rw [hget] at hnext
    cases hnext
    obtain ⟨hsome, hlive⟩ := Option.filter_eq_some_iff.mp hget
    obtain ⟨hr, hid⟩ := Rows.get?_eq_some.1 hsome
    exact h.claimedRow hp hr hlive hnone (hfits _ _) (haccepts.2 r hr hid) (hspends _)

theorem Grows.states (st : Store) (states : Rows OAuthState.stateHash) :
    Grows st { st with states } :=
  ⟨Nat.le_refl _, Nat.le_refl _, fun r hr => .inr ⟨r, hr, rfl, rfl, rfl⟩, fun _ => .inl,
    fun _ => Nat.le_refl _⟩

theorem Sound.drew (h : Sound s) {hash : String} (hp : s.tasks[i]? = some p)
    (hnext : next s.store p (.draw hash) = some (st, p')) : Sound ⟨st, s.tasks.set i p'⟩ := by
  have hfits := h.fits p (List.mem_of_getElem? hp)
  cases p with
  | insertingState id provider =>
    simp only [next] at hnext
    split at hnext
    · cases hnext
      refine h.quiet hp (.states _ _) rfl rfl rfl rfl ?_ trivial rfl
      intro o ho id' hid
      rcases Rows.mem_insert ho with ho | rfl
      · exact h.states o ho id' hid
      · obtain rfl := Option.some.inj hid
        exact hfits
    · cases hnext
      exact h.idle hp trivial rfl
  | minting org purpose kindHint =>
    simp only [next] at hnext
    split at hnext
    · cases hnext
    · cases hnext
      exact h.minted hp
  | _ => cases hnext

theorem Sound.stateConsumed (h : Sound s) {stateHash : String} {provider : Provider}
    {cancelled : Bool} (hp : s.tasks[i]? = some (.consumingState stateHash provider cancelled))
    (hnext : next s.store (.consumingState stateHash provider cancelled) .ok = some (st, p')) :
    Sound ⟨st, s.tasks.set i p'⟩ := by
  simp only [next] at hnext
  split at hnext
  · next o ho =>
    obtain ⟨hmem, -⟩ := Rows.get?_eq_some.1 (Option.filter_eq_some_iff.mp ho).1
    have hstates : ∀ o ∈ (s.store.states.delete fun o => o.stateHash == stateHash).rows,
        ∀ id, o.linkCodeId = some id → Accepts s.store id o.provider.kind :=
      fun o ho => h.states o (Rows.mem_delete.1 ho).1
    split at hnext
    · next id hid =>
      cases hnext
      split
      · next hmatch =>
        simp only [Bool.and_eq_true, beq_iff_eq] at hmatch
        refine h.quiet hp (.states _ _) rfl rfl rfl rfl hstates ?_ rfl
        have haccepts := h.states o hmem id hid
        rw [hmatch.1] at haccepts
        exact (Grows.states _ _).accepts haccepts
      · exact h.quiet hp (.states _ _) rfl rfl rfl rfl hstates trivial rfl
    · cases hnext
      exact h.quiet hp (.states _ _) rfl rfl rfl rfl hstates trivial rfl
  · cases hnext
    exact h.idle hp trivial rfl

theorem Sound.went (h : Sound s) {choice : Choice} (hp : s.tasks[i]? = some p)
    (hnext : next s.store p choice = some (st, p')) (hok : sparing s (.go i choice) = true) :
    Sound ⟨st, s.tasks.set i p'⟩ := by
  have hfits := h.fits p (List.mem_of_getElem? hp)
  -- a code that is not a delegate's pins no kind
  have hfree : ∀ {purpose hash r kind}, s.store.peek purpose hash = some r →
      purpose ≠ .delegate → accepts r.kindHint kind = true := by
    intro purpose hash r kind hpeek hpurpose
    obtain ⟨hr, rfl, -⟩ := peek_eq_some hpeek
    rw [h.unpinned r hr hpurpose]
    rfl
  cases choice with
  | fails => exact h.failed hp hnext hok
  | draw hash => exact h.drew hp hnext
  | ok =>
    cases p with
    | peeking hash kind =>
      cases hnext
      cases hpeek : s.store.peek .delegate hash with
      | none => exact h.idle hp trivial rfl
      | some r =>
        dsimp only
        split
        · next hkind => exact h.idle hp (h.accepts_of_peek hpeek (Bool.and_eq_true_iff.mp hkind).1) rfl
        · exact h.idle hp trivial rfl
    | claimingForm id kind =>
      refine h.consumedById hp rfl hfits ?_ ?_ (Option.some.inj hnext)
      · exact fun st link hlink => ⟨hlink, nofun⟩
      · exact fun link => rfl
    | starting hash provider =>
      cases hnext
      cases hpeek : s.store.peek .delegate hash with
      | none => exact h.idle hp trivial rfl
      | some r =>
        dsimp only
        split
        · next hkind => exact h.idle hp (h.accepts_of_peek hpeek hkind) rfl
        · exact h.idle hp trivial rfl
    | insertingState id provider => cases hnext
    | consumingState stateHash provider cancelled => exact h.stateConsumed hp hnext
    | claimingCallback id provider =>
      refine h.consumedById hp rfl hfits ?_ ?_ (Option.some.inj hnext)
      · exact fun st link hlink => hlink
      · exact fun link => rfl
    | exchanging link provider =>
      cases hnext
      exact h.idle hp ⟨hfits, nofun⟩ rfl
    | claimingTelegram hash =>
      refine h.consumed hp rfl ?_ ?_ ?_ (Option.some.inj hnext)
      · exact ⟨trivial, rfl⟩
      · exact fun _ => nofun
      · exact fun r hr => hfree hr nofun
    | claimingDelegate hash =>
      refine h.consumed hp rfl ?_ ?_ ?_ (Option.some.inj hnext)
      · exact ⟨trivial, rfl⟩
      · exact nofun
      · intro r hr
        simpa [sparing, hp, hr] using hok
    | claimingWhatsapp hash =>
      refine h.consumed hp rfl ?_ ?_ ?_ (Option.some.inj hnext)
      · exact ⟨trivial, rfl⟩
      · exact fun _ => nofun
      · exact fun r hr => hfree hr nofun
    | limiting link via kind =>
      cases hnext
      exact h.idle hp hfits rfl
    | creating link via kind =>
      cases hnext
      exact h.created hp
    | attaching id channel =>
      cases hnext
      exact h.attachedTo hp
    | restoring id =>
      cases hnext
      exact h.restored hp
    | revoking org id =>
      cases hnext
      exact h.revokedBy hp
    | minting org purpose kindHint => cases hnext
    | done => cases hnext

theorem Sound.begun (h : Sound s) (request : Request) :
    Sound { s with tasks := s.tasks ++ [request.first] } := by
  have hclaims : ∀ id, claims { s with tasks := s.tasks ++ [request.first] } id = claims s id := by
    intro id
    have hnone : request.first.spends = none := by cases request <;> rfl
    unfold claims
    rw [List.countP_append, List.countP_singleton, hnone]
    rfl
  refine ⟨?_, h.states, h.channels, h.issued, h.unpinned, h.attached, h.revoked, ?_, ?_, ?_⟩
  · intro q hq
    rcases List.mem_append.mp hq with hq | hq
    · exact h.fits q hq
    · rw [List.mem_singleton.mp hq]
      cases request with
      | mint org purpose => exact fun _ => rfl
      | mintDelegate org kind => exact fun hne => absurd rfl hne
      | _ => trivial
  · intro id
    rw [hclaims]
    exact h.once id
  · intro r hr
    rw [hclaims]
    exact h.unspent r hr
  · intro r hr
    rw [hclaims]
    exact h.kept r hr

theorem Sound.step (h : Sound s) {e : Act Request Choice Nat} (hok : sparing s e = true)
    (heq : program.step s e = some s') : Sound s' := by
  cases Program.stepped heq with
  | begin request => exact h.begun request
  | go hp hnext => exact h.went hp hnext hok
  | outer passed =>
    have hgrows : Grows s.store { s.store with now := s.store.now + passed } :=
      ⟨Nat.le_refl _, Nat.le_refl _, fun r hr => .inr ⟨r, hr, rfl, rfl, rfl⟩, fun _ => .inl,
        fun _ => Nat.le_refl _⟩
    refine ⟨fun q hq => hgrows.fits (h.fits q hq), h.states,
      fun ch hch => hgrows.linkFits (h.channels ch hch), h.issued, h.unpinned, h.attached,
      h.revoked, h.once, h.unspent, ?_⟩
    · -- what has not expired later had not expired before
      intro r hr hdelegate hfuture
      exact h.kept r hr hdelegate
        (lt_of_le_of_lt (Int.le_add_of_nonneg_right (Int.natCast_nonneg passed)) hfuture)

/-- No code was minted yet. -/
structure Store.Fresh (st : Store) : Prop where
  codes : st.codes.rows = []
  states : st.states.rows = []
  channels : st.channels = []
  revokes : st.revokes = []

theorem Store.Fresh.sound (h : s.store.Fresh) (hidle : s.tasks = []) : Sound s := by
  have hclaims : ∀ id, claims s id = 0 := by
    intro id
    unfold claims channelsOf
    rw [h.channels, hidle]
    rfl
  constructor
  · simp [hidle]
  · simp [h.states]
  · simp [h.channels]
  · simp [h.codes]
  · simp [h.codes]
  · simp [h.codes]
  · simp [h.revokes]
  · intro id
    rw [hclaims]
    exact Nat.zero_le 1
  · simp [h.codes]
  · simp [h.codes]

/-- **A link makes one channel of its kind, or none and can be tried again**: in every state, a
code has made at most one channel, of the kind it is pinned to, by a claim before each of its
revokes; and a delegate code that has made none, and that no request holds, can be claimed until
it expires or is revoked, as long as the Telegram webhook claims no code of another kind and can
read the plan of one it claimed, and no restore fails while the code lasts. -/
theorem one_channel_per_code {s₀ : Pooled Store Phase} (hfresh : s₀.store.Fresh)
    (hidle : s₀.tasks = []) (hrun : Run program.step (fun s e => sparing s e = true) s₀ s) :
    (∀ id, channelsOf s.store id ≤ 1) ∧
    (∀ ch ∈ s.store.channels, accepts ch.link.kindHint ch.kind = true ∧
      ∀ r ∈ s.store.codes.rows, r.id = ch.link.id → r.kindHint = ch.link.kindHint) ∧
    (∀ ch ∈ s.store.channels, ∀ e ∈ s.store.revokes, e.1 = ch.link.id → ch.link.claim < e.2) ∧
    ∀ r ∈ s.store.codes.rows, r.purpose = .delegate → r.revokedAt = none →
      r.expiresAt > s.store.now → channelsOf s.store r.id = 0 →
      (∀ p ∈ s.tasks, p.spends ≠ some r.id) → (s.store.consumeById r.id).isSome = true := by
  have hsound : Sound s :=
    hrun.invariant (hfresh.sound hidle) fun _ _ _ h hok heq => h.step hok heq
  refine ⟨?_, ?_, ?_, ?_⟩
  · intro id
    have honce := hsound.once id
    unfold claims at honce
    omega
  · intro ch hch
    exact ⟨(hsound.channels ch hch).accepted, (hsound.channels ch hch).hint⟩
  · intro ch hch
    exact (hsound.channels ch hch).revokes
  · intro r hr hdelegate hunrevoked hfuture hnochannel hfree
    have hnone : (s.tasks.countP fun p => p.spends == some r.id) = 0 := by
      refine List.countP_eq_zero.mpr ?_
      intro p hp heq
      exact hfree p hp (beq_iff_eq.mp heq)
    have hunconsumed : r.consumedAt = none := by
      by_contra hconsumed
      have hkept := hsound.kept r hr hdelegate hfuture hconsumed
      unfold claims at hkept
      omega
    have hlive : r.live s.store.now = true := by
      unfold LinkCode.live
      rw [hunconsumed, hunrevoked, decide_eq_true hfuture]
      rfl
    unfold Store.consumeById
    rw [Option.isSome_map, Rows.get?_eq_some.2 ⟨hr, rfl⟩, Option.filter_some, if_pos hlive]
    rfl

end

/-! ## A link pinned to Slack -/

namespace One

def start : Pooled Store Phase :=
  ⟨⟨0, Rows.empty, Rows.empty, [], 3, 0, []⟩, []⟩

def minted : List (Act Request Choice Nat) :=
  [.begin (.mintDelegate 1 (some .slack)), .go 0 (.draw "h")]

/-- The first create fails, and the second does not. -/
def retried : List (Act Request Choice Nat) :=
  minted ++
  ([.begin (.connectForm "h" .slack), .go 1 .ok, .go 1 .ok, .go 1 .ok, .go 1 .fails, .go 1 .ok,
    .begin (.connectForm "h" .slack), .go 2 .ok, .go 2 .ok, .go 2 .ok, .go 2 .ok,
    .go 2 .ok] : List (Act Request Choice Nat))

/-- The webhook takes the code for Telegram. -/
def misused : List (Act Request Choice Nat) :=
  minted ++
  ([.begin (.telegramStart "h"), .go 1 .ok, .go 1 .ok, .go 1 .ok,
    .go 1 .ok] : List (Act Request Choice Nat))

theorem start_fresh : start.store.Fresh := ⟨rfl, rfl, rfl, rfl⟩

end One

theorem one_channel_per_code_retried : ∃ s, s.tasks = [.done, .done, .done] ∧
    Run program.step (fun s e => sparing s e = true) One.start s ∧
    s.store.channels.map LinkedChannel.kind = [.slack] ∧ channelsOf s.store 3 ≤ 1 := by
  obtain ⟨s, hrun, hend⟩ := exists_run_of_steps (show
    (steps (guarded program.step sparing) One.start One.retried).any
      (fun s => s.tasks == [.done, .done, .done] &&
        s.store.channels.map LinkedChannel.kind == [.slack]) = true by decide +kernel)
  simp only [Bool.and_eq_true, beq_iff_eq] at hend
  have hsparing : Run program.step (fun s e => sparing s e = true) One.start s :=
    hrun.unguard fun _ _ h => h
  exact ⟨s, hend.1, hsparing, hend.2, (one_channel_per_code One.start_fresh rfl hsparing).1 3⟩

/-- A delegate link for Slack connects a Telegram chat. -/
theorem pinned_code_misused : ¬ ∀ s₀ s : Pooled Store Phase,
    s₀.store.Fresh → s₀.tasks = [] → Run program.step (fun _ _ => True) s₀ s →
    (∀ id, channelsOf s.store id ≤ 1) ∧
    (∀ ch ∈ s.store.channels, accepts ch.link.kindHint ch.kind = true ∧
      ∀ r ∈ s.store.codes.rows, r.id = ch.link.id → r.kindHint = ch.link.kindHint) ∧
    (∀ ch ∈ s.store.channels, ∀ e ∈ s.store.revokes, e.1 = ch.link.id → ch.link.claim < e.2) ∧
    ∀ r ∈ s.store.codes.rows, r.purpose = .delegate → r.revokedAt = none →
      r.expiresAt > s.store.now → channelsOf s.store r.id = 0 →
      (∀ p ∈ s.tasks, p.spends ≠ some r.id) → (s.store.consumeById r.id).isSome = true := by
  intro h
  obtain ⟨s, hrun, hend⟩ := exists_run_of_steps (show
    (steps program.step One.start One.misused).any
      (fun s => s.store.channels ==
        [⟨4, 1, .telegramApp, ⟨3, 1, some .slack, 0⟩⟩]) = true by decide +kernel)
  have hchannels := beq_iff_eq.mp hend
  obtain ⟨-, hkinds, -⟩ := h One.start s One.start_fresh rfl hrun
  have hkind := (hkinds ⟨4, 1, .telegramApp, ⟨3, 1, some .slack, 0⟩⟩ (by simp [hchannels])).1
  cases hkind

end Uptimepage.Channels
