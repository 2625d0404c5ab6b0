import Uptimepage.Async.Tasks
import Uptimepage.Domain.OnCall
import Uptimepage.Escalation.Rules
import Uptimepage.Sql.Rows

/-!
# Who is paged as a responder

A policy, a schedule and an override name members: each name is checked in the transaction that
writes it.  `remove_member` and `request_deletion` drop the membership and leave the names, and the
contact channels of the user, where they are; a rung is resolved without a look at memberships.  So
somebody who has left is paged (`responder_has_left`).
-/

namespace Uptimepage.Responders

open Async Sql OnCall

/-- A row of `on_call_schedules` with its layers. -/
structure Schedule where
  id : Uuid
  orgId : OrgId
  timezone : String
  deleted : Bool
  layers : List OnCallLayer
deriving DecidableEq

/-- A row of `on_call_overrides`. -/
structure OverrideRow where
  orgId : OrgId
  scheduleId : Uuid
  cover : OnCallOverride
deriving DecidableEq

/-- A row of `user_contact_channels`. -/
structure Contact where
  orgId : OrgId
  userId : UserId
  channelId : Uuid
deriving DecidableEq

/-- An entry of the engine's `on_call_cache`. -/
structure CacheEntry where
  org : OrgId
  scheduleId : Uuid
  users : List UserId
  cachedAt : Time
deriving DecidableEq

structure Departure where
  org : OrgId
  user : UserId
  leftAt : Time
deriving DecidableEq

/-- `departures` is not stored. -/
structure Store where
  now : Time
  members : List (OrgId × UserId)
  contacts : List Contact
  policies : Rows EscalationPolicy.id
  schedules : Rows Schedule.id
  overrides : List OverrideRow
  cache : List CacheEntry
  departures : List Departure

/-- The time zones, and whose the notification channels are. -/
structure Env where
  zone : String → Zone
  ownsChannel : OrgId → Uuid → Bool

def onCallCacheTtl : Int := seconds 15

/-! ## What is read -/

def rungNames (targets : List EscalationTarget) (user : UserId) : Bool :=
  targets.any fun t => t.userId == some user

def ladderNames (steps : List EscalationStep) (user : UserId) : Bool :=
  steps.any fun step => rungNames step.targets user

namespace Store

def isMember (st : Store) (org : OrgId) (user : UserId) : Bool := st.members.contains (org, user)

def contactsForUser (st : Store) (org : OrgId) (user : UserId) : List Uuid :=
  (st.contacts.filter fun c => c.orgId == org && c.userId == user).map Contact.channelId

def policy? (st : Store) (org : OrgId) (id : Uuid) : Option EscalationPolicy :=
  (st.policies.get? id).filter fun p => p.org == org && p.deletedAt.isNone

/-- The steps of a policy whose row was live when it was read. -/
def stepsOf (st : Store) (org : OrgId) (id : Uuid) : List EscalationStep :=
  (((st.policies.get? id).filter fun p => p.org == org).map EscalationPolicy.steps).getD []

def schedule? (st : Store) (org : OrgId) (id : Uuid) : Option Schedule :=
  (st.schedules.get? id).filter fun c => c.orgId == org && !c.deleted

def layersOf (st : Store) (org : OrgId) (id : Uuid) : List OnCallLayer :=
  (((st.schedules.get? id).filter fun c => c.orgId == org).map Schedule.layers).getD []

def overridesOf (st : Store) (org : OrgId) (id : Uuid) : List OnCallOverride :=
  (st.overrides.filter fun o => o.orgId == org && o.scheduleId == id).map OverrideRow.cover

def cachedRoster (st : Store) (org : OrgId) (id : Uuid) : Option CacheEntry :=
  st.cache.find? fun e =>
    e.org == org && e.scheduleId == id && decide (st.now < e.cachedAt + onCallCacheTtl)

def scheduleNames (st : Store) (org : OrgId) (id : Uuid) (user : UserId) : Bool :=
  onSchedule (st.layersOf org id) (st.overridesOf org id) user

/-- A policy or a schedule that is not deleted, or an override of one, has the user's name on
it. -/
def names (st : Store) (org : OrgId) (user : UserId) : Bool :=
  (st.policies.rows.any fun p =>
    p.org == org && p.deletedAt.isNone && ladderNames p.steps user) ||
  (st.schedules.rows.any fun c => c.orgId == org && !c.deleted && inLayers c.layers user) ||
  st.overrides.any fun o => o.orgId == org && o.cover.userId == user &&
    (st.schedules.get? o.scheduleId).all fun c => !c.deleted

/-- The user has left since. -/
def departed (st : Store) (org : OrgId) (user : UserId) (since : Time) : Bool :=
  st.departures.any fun d => d.org == org && d.user == user && decide (since ≤ d.leftAt)

/-! ## What is written -/

def join (st : Store) (org : OrgId) (user : UserId) : Store :=
  if st.isMember org user then st else { st with members := st.members ++ [(org, user)] }

/-- The memberships that meet `p` end. -/
def leave (st : Store) (p : OrgId × UserId → Bool) : Store :=
  { st with
    members := st.members.filter fun m => !p m
    departures := st.departures ++ (st.members.filter p).map fun m => ⟨m.1, m.2, st.now⟩ }

def replaceForUser (st : Store) (org : OrgId) (user : UserId) (channels : List Uuid) : Store :=
  { st with
    contacts := st.contacts.filter (fun c => !(c.orgId == org && c.userId == user)) ++
      channels.dedup.map fun c => ⟨org, user, c⟩ }

def cacheRoster (st : Store) (org : OrgId) (id : Uuid) (users : List UserId) : Store :=
  { st with
    cache := st.cache.filter (fun e => !(e.org == org && e.scheduleId == id)) ++
      [⟨org, id, users, st.now⟩] }

end Store

/-- What an owner edits, of policies, schedules and overrides. -/
inductive Edit
  | createPolicy (policy : EscalationPolicy)
  | replacePolicy (org : OrgId) (id : Uuid) (repeatCount : Int) (steps : List EscalationStep)
  | createSchedule (org : OrgId) (id : Uuid) (timezone : String) (layers : List OnCallLayer)
  | replaceSchedule (org : OrgId) (id : Uuid) (timezone : String) (layers : List OnCallLayer)
  | addOverride (org : OrgId) (scheduleId : Uuid) (cover : OnCallOverride)
deriving DecidableEq

def ladderUsers (steps : List EscalationStep) : List UserId :=
  steps.flatMap fun step => step.targets.filterMap EscalationTarget.userId

def layerUsers (layers : List OnCallLayer) : List UserId :=
  layers.flatMap fun l => l.participants.map OnCallParticipant.userId

namespace Edit

def org : Edit → OrgId
  | createPolicy policy => policy.org
  | replacePolicy org _ _ _ | createSchedule org _ _ _ | replaceSchedule org _ _ _
  | addOverride org _ _ => org

/-- The users whose membership is checked, in order.  A rung's is checked again by the trigger of
the insert. -/
def checks : Edit → List UserId
  | createPolicy policy => (ladderUsers policy.steps).flatMap fun u => [u, u]
  | replacePolicy _ _ _ steps => (ladderUsers steps).flatMap fun u => [u, u]
  | createSchedule _ _ _ layers | replaceSchedule _ _ _ layers => layerUsers layers
  | addOverride _ _ cover => [cover.userId]

/-- The row to be edited is there. -/
def applies (st : Store) : Edit → Bool
  | createPolicy _ | createSchedule _ _ _ _ => true
  | replacePolicy org id _ _ => (st.policy? org id).isSome
  | replaceSchedule org id _ _ | addOverride org id _ => (st.schedule? org id).isSome

def relay (repeatCount : Int) (steps : List EscalationStep) (p : EscalationPolicy) :
    EscalationPolicy :=
  { p with repeatCount := repeatCount, steps := steps }

def restack (timezone : String) (layers : List OnCallLayer) (c : Schedule) : Schedule :=
  { c with timezone := timezone, layers := layers }

theorem restack_id (timezone : String) (layers : List OnCallLayer) (c : Schedule) :
    (restack timezone layers c).id = c.id := rfl

def commit (st : Store) : Edit → Store
  | createPolicy policy => { st with policies := st.policies.insert policy }
  | replacePolicy org id repeatCount steps =>
    { st with
      policies := st.policies.update (fun p => p.id == id && p.org == org && p.deletedAt.isNone)
        (relay repeatCount steps) fun _ => rfl }
  | createSchedule org id timezone layers =>
    { st with schedules := st.schedules.insert ⟨id, org, timezone, false, layers⟩ }
  | replaceSchedule org id timezone layers =>
    { st with
      schedules := st.schedules.update (fun c => c.id == id && c.orgId == org && !c.deleted)
        (restack timezone layers) (restack_id timezone layers) }
  | addOverride org id cover => { st with overrides := st.overrides ++ [⟨org, id, cover⟩] }

end Edit

/-! ## Requests and sweeps -/

inductive Request
  /-- A rung is due. -/
  | rung (org : OrgId) (policyId : Uuid) (level : Int)
  | edit (e : Edit)
  | setMyContacts (org : OrgId) (user : UserId) (channels : List Uuid)
deriving DecidableEq

/-- Where the load of a roster is. -/
inductive Stage
  | schedule
  | layers (timezone : String)
  | participants (timezone : String) (layers : List OnCallLayer)
  | overrides (timezone : String) (layers : List OnCallLayer)
deriving DecidableEq

/-- Where the users that a rung is paging are from. -/
inductive Source
  | current
  | cached (cachedAt hitAt : Time)
deriving DecidableEq

/-- `rest` are the targets of the rung that are yet to be resolved, `out` what they have resolved
to so far. -/
inductive Phase
  | policyRow (org : OrgId) (policyId : Uuid) (level : Int)
  | policySteps (org : OrgId) (policyId : Uuid) (level : Int)
  | targets (org : OrgId) (at_ : Time) (rest : List EscalationTarget) (out : List PageTarget)
  | loading (org : OrgId) (at_ : Time) (scheduleId : Uuid) (stage : Stage)
    (rest : List EscalationTarget) (out : List PageTarget)
  | caching (org : OrgId) (at_ : Time) (scheduleId : Uuid) (users : List UserId)
    (rest : List EscalationTarget) (out : List PageTarget)
  | users (org : OrgId) (at_ : Time) (source : Source) (users : List UserId)
    (rest : List EscalationTarget) (out : List PageTarget)
  | resolved (org : OrgId) (out : List PageTarget)
  | locking (e : Edit)
  /-- `k` of the checks are through. -/
  | naming (e : Edit) (k : Nat)
  | authorizing (org : OrgId) (user : UserId) (channels : List Uuid)
  | replacing (org : OrgId) (user : UserId) (channels : List Uuid)
  | done
deriving DecidableEq

/-- A layer as its own row has it. -/
def bare (l : OnCallLayer) : OnCallLayer := { l with participants := [] }

/-- The participants that were read, in the layers that were read before. -/
def assemble (layers rows : List OnCallLayer) : List OnCallLayer :=
  layers.map fun l =>
    { l with participants := ((rows.find? fun r => r.id == l.id).map (·.participants)).getD [] }

section

variable (env : Env) (st : Store)

/-- One target of a rung, up to what it has to wait for. -/
def resolveTarget (org : OrgId) (at_ : Time) (t : EscalationTarget)
    (rest : List EscalationTarget) (out : List PageTarget) : Phase :=
  match t.targetType with
  | .channel =>
    match t.channelId with
    | some cid => .targets org at_ rest (pushTarget out cid none)
    | none => .targets org at_ rest out
  | .user =>
    match t.userId with
    | some uid => .users org at_ .current [uid] rest out
    | none => .targets org at_ rest out
  | .schedule =>
    match t.scheduleId with
    | some sid =>
      match st.cachedRoster org sid with
      | some e => .users org at_ (.cached e.cachedAt st.now) e.users rest out
      | none => .loading org at_ sid .schedule rest out
    | none => .targets org at_ rest out

/-- One statement of `resolve_now`. -/
def loadRoster (org : OrgId) (at_ : Time) (sid : Uuid) (rest : List EscalationTarget)
    (out : List PageTarget) : Stage → Phase
  | .schedule =>
    match st.schedule? org sid with
    | some c => .loading org at_ sid (.layers c.timezone) rest out
    | none => .users org at_ .current [] rest out
  | .layers timezone =>
    .loading org at_ sid (.participants timezone ((st.layersOf org sid).map bare)) rest out
  | .participants timezone layers =>
    .loading org at_ sid (.overrides timezone (assemble layers (st.layersOf org sid))) rest out
  | .overrides timezone layers =>
    match OnCall.resolveOnCall (env.zone timezone) layers (st.overridesOf org sid) at_ with
    | .error _ => .done
    | .ok users =>
      if users.isEmpty then .users org at_ .current [] rest out
      else .caching org at_ sid users rest out

def pageUser (org : OrgId) (user : UserId) (out : List PageTarget) : List PageTarget :=
  (st.contactsForUser org user).foldl (fun out cid => pushTarget out cid (some user)) out

def run : Phase → Option (Store × Phase)
  | .policyRow org id level =>
    some (st, if (st.policy? org id).isSome then .policySteps org id level else .done)
  | .policySteps org id level =>
    match (st.stepsOf org id).find? fun step => step.level == level with
    | some step => some (st, .targets org st.now step.targets [])
    | none => some (st, .resolved org [])
  | .targets org _ [] out => some (st, .resolved org out)
  | .targets org at_ (t :: rest) out => some (st, resolveTarget st org at_ t rest out)
  | .loading org at_ sid stage rest out => some (st, loadRoster env st org at_ sid rest out stage)
  | .caching org at_ sid users rest out =>
    some (st.cacheRoster org sid users, .users org at_ .current users rest out)
  | .users org at_ _ [] rest out => some (st, .targets org at_ rest out)
  | .users org at_ source (user :: users) rest out =>
    some (st, .users org at_ source users rest (pageUser st org user out))
  | .locking e => some (st, if e.applies st then .naming e 0 else .done)
  | .naming e k =>
    match e.checks[k]? with
    | some user => some (st, if st.isMember e.org user then .naming e (k + 1) else .done)
    | none => some (e.commit st, .done)
  | .authorizing org user channels =>
    some (st, if st.isMember org user then .replacing org user channels else .done)
  | .replacing org user channels =>
    some (if channels.all (env.ownsChannel org) then st.replaceForUser org user channels else st,
      .done)
  | .resolved _ _ | .done => none

end

inductive Outer
  | tick (elapsed : Nat)
  | addMember (org : OrgId) (user : UserId)
  | removeMember (org : OrgId) (user : UserId)
  /-- `keep` are the organisations that the user alone owns: their memberships stay. -/
  | requestDeletion (user : UserId) (keep : List OrgId)
  | deletePolicy (org : OrgId) (id : Uuid)
  | deleteSchedule (org : OrgId) (id : Uuid)
  | deleteOverride (org : OrgId) (scheduleId id : Uuid)
  | evict (org : OrgId) (scheduleId : Uuid)
deriving DecidableEq

/-- The memberships that end. -/
def Outer.ends : Outer → OrgId × UserId → Bool
  | removeMember org user, m => m == (org, user)
  | requestDeletion user keep, m => m.2 == user && !keep.contains m.1
  | _, _ => false

def outer (st : Store) : Outer → Store
  | .tick elapsed => { st with now := st.now + elapsed }
  | .addMember org user => st.join org user
  | .removeMember org user => st.leave (Outer.removeMember org user).ends
  | .requestDeletion user keep => st.leave (Outer.requestDeletion user keep).ends
  | .deletePolicy org id =>
    { st with
      policies := st.policies.update (fun p => p.id == id && p.org == org && p.deletedAt.isNone)
        (fun p => { p with deletedAt := some st.now }) fun _ => rfl }
  | .deleteSchedule org id =>
    { st with
      schedules := st.schedules.update (fun c => c.id == id && c.orgId == org && !c.deleted)
        (fun c => { c with deleted := true }) fun _ => rfl }
  | .deleteOverride org scheduleId id =>
    { st with
      overrides := st.overrides.filter fun o =>
        !(o.orgId == org && o.scheduleId == scheduleId && o.cover.id == id) }
  | .evict org scheduleId =>
    { st with cache := st.cache.filter fun e => !(e.org == org && e.scheduleId == scheduleId) }

/-- A choice says whether a statement succeeds. -/
def program (env : Env) : Program Store Phase Request Bool Outer where
  first
    | .rung org policyId level => .policyRow org policyId level
    | .edit e => .locking e
    | .setMyContacts org user channels => .authorizing org user channels
  next st p succeeds := (run env st p).map fun r => if succeeds then r else (st, .done)
  outer := outer

/-! ## Who is named, and who is reachable -/

/-- The user may yet come out of the load. -/
def Stage.names (st : Store) (org : OrgId) (sid : Uuid) (user : UserId) : Stage → Bool
  | .schedule => false
  | .layers _ | .participants _ _ => st.scheduleNames org sid user
  | .overrides _ covered => onSchedule covered (st.overridesOf org sid) user

/-- The task may yet page the user, or name the user in what it writes.  A cached roster does not
count. -/
def Phase.names (st : Store) (org : OrgId) (user : UserId) : Phase → Bool
  | .policySteps org' id _ => org' == org && ladderNames (st.stepsOf org id) user
  | .targets org' _ rest _ => org' == org && rungNames rest user
  | .loading org' _ sid stage rest _ =>
    org' == org && (stage.names st org sid user || rungNames rest user)
  | .caching org' _ _ roster rest _ => org' == org && (roster.contains user || rungNames rest user)
  | .users org' _ source roster rest _ =>
    org' == org && (source == .current && roster.contains user || rungNames rest user)
  | .naming e k => e.org == org && (e.checks.take k).contains user
  | _ => false

/-- The task may yet set contact channels of the user. -/
def Phase.reaches (org : OrgId) (user : UserId) : Phase → Bool
  | .replacing org' user' _ => org' == org && user' == user
  | _ => false

abbrev State := Pooled Store Phase

def named (s : State) (org : OrgId) (user : UserId) : Bool :=
  s.store.names org user || s.tasks.any (Phase.names s.store org user)

def reachable (s : State) (org : OrgId) (user : UserId) : Bool :=
  !(s.store.contactsForUser org user).isEmpty || s.tasks.any (Phase.reaches org user)

/-- Nobody's membership ends who is both. -/
def cleared (s : State) : Act Request Bool Outer → Bool
  | .outer o => s.store.members.all fun m =>
    !(o.ends m && named s m.1 m.2 && reachable s m.1 m.2)
  | _ => true

/-! ## Names -/

section

variable {env : Env} {st st' : Store} {p p' : Phase} {org : OrgId} {user : UserId} {id sid : Uuid}

theorem names_iff : st.names org user = true ↔
    (∃ p ∈ st.policies.rows, p.org = org ∧ p.deletedAt.isNone = true ∧
      ladderNames p.steps user = true) ∨
    (∃ c ∈ st.schedules.rows, c.orgId = org ∧ c.deleted = false ∧
      inLayers c.layers user = true) ∨
    ∃ o ∈ st.overrides, o.orgId = org ∧ o.cover.userId = user ∧
      (st.schedules.get? o.scheduleId).all (fun c => !c.deleted) = true := by
  unfold Store.names
  simp only [Bool.or_eq_true, List.any_eq_true, Bool.and_eq_true, beq_iff_eq, Bool.not_eq_true',
    or_assoc, and_assoc]

theorem ladderNames_stepsOf : ladderNames (st.stepsOf org id) user = true ↔
    ∃ p ∈ st.policies.rows, p.id = id ∧ p.org = org ∧ ladderNames p.steps user = true := by
  unfold Store.stepsOf
  constructor
  · intro h
    cases hget : (st.policies.get? id).filter fun p => p.org == org with
    | none =>
      rw [hget] at h
      cases h
    | some p =>
      rw [hget] at h
      obtain ⟨hget, horg⟩ := Option.filter_eq_some_iff.mp hget
      obtain ⟨hp, hid⟩ := Rows.get?_eq_some.1 hget
      exact ⟨p, hp, hid, beq_iff_eq.mp horg, h⟩
  · rintro ⟨p, hp, hid, rfl, hnames⟩
    have hget : st.policies.get? id = some p := Rows.get?_eq_some.2 ⟨hp, hid⟩
    rw [hget, Option.filter_some, if_pos (beq_self_eq_true _)]
    exact hnames

theorem inLayers_layersOf : inLayers (st.layersOf org sid) user = true ↔
    ∃ c ∈ st.schedules.rows, c.id = sid ∧ c.orgId = org ∧ inLayers c.layers user = true := by
  unfold Store.layersOf
  constructor
  · intro h
    cases hget : (st.schedules.get? sid).filter fun c => c.orgId == org with
    | none =>
      rw [hget] at h
      cases h
    | some c =>
      rw [hget] at h
      obtain ⟨hget, horg⟩ := Option.filter_eq_some_iff.mp hget
      obtain ⟨hc, hid⟩ := Rows.get?_eq_some.1 hget
      exact ⟨c, hc, hid, beq_iff_eq.mp horg, h⟩
  · rintro ⟨c, hc, hid, rfl, hnames⟩
    have hget : st.schedules.get? sid = some c := Rows.get?_eq_some.2 ⟨hc, hid⟩
    rw [hget, Option.filter_some, if_pos (beq_self_eq_true _)]
    exact hnames

theorem any_overridesOf : ((st.overridesOf org sid).any fun o => o.userId == user) = true ↔
    ∃ o ∈ st.overrides, o.scheduleId = sid ∧ o.orgId = org ∧ o.cover.userId = user := by
  unfold Store.overridesOf
  rw [List.any_map, List.any_filter]
  simp only [List.any_eq_true, Bool.and_eq_true, beq_iff_eq, Function.comp_apply]
  constructor
  · rintro ⟨o, ho, ⟨horg, hsid⟩, huser⟩
    exact ⟨o, ho, hsid, horg, huser⟩
  · rintro ⟨o, ho, hsid, horg, huser⟩
    exact ⟨o, ho, ⟨horg, hsid⟩, huser⟩

variable {layers : List OnCallLayer}

theorem onSchedule_iff {overrides : List OnCallOverride} :
    onSchedule layers overrides user = true ↔
      inLayers layers user = true ∨ (overrides.any fun o => o.userId == user) = true := by
  unfold onSchedule
  rw [Bool.or_eq_true]

theorem names_of_policy? (hlive : (st.policy? org id).isSome = true)
    (h : ladderNames (st.stepsOf org id) user = true) : st.names org user = true := by
  obtain ⟨p, hp, hid, horg, hnames⟩ := ladderNames_stepsOf.1 h
  refine names_iff.2 (.inl ⟨p, hp, horg, ?_, hnames⟩)
  obtain ⟨p', hget⟩ := Option.isSome_iff_exists.mp hlive
  obtain ⟨hget, hrow⟩ := Option.filter_eq_some_iff.mp hget
  obtain ⟨hp', hid'⟩ := Rows.get?_eq_some.1 hget
  rw [Rows.eq_of_key hp hp' (hid.trans hid'.symm)]
  exact (Bool.and_eq_true_iff.mp hrow).2

theorem names_of_schedule? (hlive : (st.schedule? org sid).isSome = true)
    (h : st.scheduleNames org sid user = true) : st.names org user = true := by
  obtain ⟨c', hget⟩ := Option.isSome_iff_exists.mp hlive
  obtain ⟨hget, hrow⟩ := Option.filter_eq_some_iff.mp hget
  have hdeleted := (Bool.and_eq_true_iff.mp hrow).2
  rcases onSchedule_iff.1 h with h | h
  · obtain ⟨c, hc, hid, horg, hnames⟩ := inLayers_layersOf.1 h
    refine names_iff.2 (.inr (.inl ⟨c, hc, horg, ?_, hnames⟩))
    obtain ⟨hc', hid'⟩ := Rows.get?_eq_some.1 hget
    rw [Rows.eq_of_key hc hc' (hid.trans hid'.symm)]
    exact Bool.not_eq_true' _ |>.mp hdeleted
  · obtain ⟨o, ho, hsid, horg, huser⟩ := any_overridesOf.1 h
    refine names_iff.2 (.inr (.inr ⟨o, ho, horg, huser, ?_⟩))
    rw [hsid, hget]
    exact hdeleted

/-- Whom `st'` names that `st` does not, `new` is true of. -/
structure NamesFrom (st st' : Store) (new : OrgId → UserId → Prop) : Prop where
  policies : ∀ p' ∈ st'.policies.rows, ∀ user, ladderNames p'.steps user = true →
    new p'.org user ∨ ∃ p ∈ st.policies.rows, p.id = p'.id ∧ p.org = p'.org ∧
      (p'.deletedAt.isNone = true → p.deletedAt.isNone = true) ∧ ladderNames p.steps user = true
  schedules : ∀ c' ∈ st'.schedules.rows, ∀ user, inLayers c'.layers user = true →
    new c'.orgId user ∨ ∃ c ∈ st.schedules.rows, c.id = c'.id ∧ c.orgId = c'.orgId ∧
      (c'.deleted = false → c.deleted = false) ∧ inLayers c.layers user = true
  overrides : ∀ o' ∈ st'.overrides, new o'.orgId o'.cover.userId ∨ o' ∈ st.overrides
  undeleted : ∀ sid, (st'.schedules.get? sid).all (fun c => !c.deleted) = true →
    (st.schedules.get? sid).all (fun c => !c.deleted) = true

variable {new : OrgId → UserId → Prop}

theorem NamesFrom.of_eq (hpolicies : st'.policies = st.policies)
    (hschedules : st'.schedules = st.schedules)
    (hoverrides : ∀ o ∈ st'.overrides, o ∈ st.overrides) : NamesFrom st st' new where
  policies := by
    intro p' hp' user hnames
    exact .inr ⟨p', hpolicies ▸ hp', rfl, rfl, id, hnames⟩
  schedules := by
    intro c' hc' user hnames
    exact .inr ⟨c', hschedules ▸ hc', rfl, rfl, id, hnames⟩
  overrides := fun o' ho' => .inr (hoverrides o' ho')
  undeleted := fun sid h => hschedules ▸ h

theorem NamesFrom.store (h : NamesFrom st st' new) (hnames : st'.names org user = true) :
    new org user ∨ st.names org user = true := by
  rcases names_iff.1 hnames with ⟨p', hp', rfl, hlive, hsteps⟩ | ⟨c', hc', rfl, hlive, hlayers⟩ |
    ⟨o', ho', rfl, rfl, hlive⟩
  · rcases h.policies p' hp' user hsteps with hnew | ⟨p, hp, -, horg, hkept, hsteps⟩
    · exact .inl hnew
    · exact .inr (names_iff.2 (.inl ⟨p, hp, horg, hkept hlive, hsteps⟩))
  · rcases h.schedules c' hc' user hlayers with hnew | ⟨c, hc, -, horg, hkept, hlayers⟩
    · exact .inl hnew
    · exact .inr (names_iff.2 (.inr (.inl ⟨c, hc, horg, hkept hlive, hlayers⟩)))
  · rcases h.overrides o' ho' with hnew | ho
    · exact .inl hnew
    · exact .inr (names_iff.2 (.inr (.inr ⟨o', ho, rfl, rfl, h.undeleted _ hlive⟩)))

theorem NamesFrom.steps (h : NamesFrom st st' new)
    (hnames : ladderNames (st'.stepsOf org id) user = true) :
    new org user ∨ ladderNames (st.stepsOf org id) user = true := by
  obtain ⟨p', hp', rfl, rfl, hsteps⟩ := ladderNames_stepsOf.1 hnames
  rcases h.policies p' hp' user hsteps with hnew | ⟨p, hp, hid, horg, -, hsteps⟩
  · exact .inl hnew
  · exact .inr (ladderNames_stepsOf.2 ⟨p, hp, hid, horg, hsteps⟩)

theorem NamesFrom.covers (h : NamesFrom st st' new)
    (hnames : onSchedule layers (st'.overridesOf org sid) user = true) :
    new org user ∨ onSchedule layers (st.overridesOf org sid) user = true := by
  rcases onSchedule_iff.1 hnames with hlayers | hcover
  · exact .inr (onSchedule_iff.2 (.inl hlayers))
  · obtain ⟨o, ho, hsid, rfl, rfl⟩ := any_overridesOf.1 hcover
    rcases h.overrides o ho with hnew | ho
    · exact .inl hnew
    · exact .inr (onSchedule_iff.2 (.inr (any_overridesOf.2 ⟨o, ho, hsid, rfl, rfl⟩)))

theorem NamesFrom.schedule (h : NamesFrom st st' new)
    (hnames : st'.scheduleNames org sid user = true) :
    new org user ∨ st.scheduleNames org sid user = true := by
  rcases h.covers hnames with hnew | hnames
  · exact .inl hnew
  · rcases onSchedule_iff.1 hnames with hlayers | hcover
    · obtain ⟨c', hc', rfl, rfl, hrow'⟩ := inLayers_layersOf.1 hlayers
      rcases h.schedules c' hc' user hrow' with hnew | ⟨c, hc, hid, horg, -, hrow⟩
      · exact .inl hnew
      · exact .inr (onSchedule_iff.2 (.inl (inLayers_layersOf.2 ⟨c, hc, hid, horg, hrow⟩)))
    · exact .inr (onSchedule_iff.2 (.inr hcover))

theorem NamesFrom.phase (h : NamesFrom st st' new) (hnames : p.names st' org user = true) :
    new org user ∨ p.names st org user = true := by
  cases p with
  | policySteps org' id level =>
    obtain ⟨horg, hnames⟩ := Bool.and_eq_true_iff.mp hnames
    rcases h.steps hnames with hnew | hnames
    · exact .inl hnew
    · exact .inr (Bool.and_eq_true_iff.mpr ⟨horg, hnames⟩)
  | loading org' at_ sid stage rest out =>
    obtain ⟨horg, hnames⟩ := Bool.and_eq_true_iff.mp hnames
    have hstage : stage.names st' org sid user = true →
        new org user ∨ stage.names st org sid user = true := by
      intro hnames
      cases stage with
      | schedule => cases hnames
      | layers timezone => exact h.schedule hnames
      | participants timezone layers => exact h.schedule hnames
      | overrides timezone layers => exact h.covers hnames
    rcases Bool.or_eq_true_iff.mp hnames with hnames | hrest
    · rcases hstage hnames with hnew | hnames
      · exact .inl hnew
      · exact .inr (Bool.and_eq_true_iff.mpr ⟨horg, Bool.or_eq_true_iff.mpr (.inl hnames)⟩)
    · exact .inr (Bool.and_eq_true_iff.mpr ⟨horg, Bool.or_eq_true_iff.mpr (.inr hrest)⟩)
  | _ => exact .inr hnames

/-! ## What is written names whom it checked -/

theorem mem_ladderUsers {steps : List EscalationStep} (h : ladderNames steps user = true) :
    user ∈ ladderUsers steps := by
  obtain ⟨step, hstep, h⟩ := List.any_eq_true.mp h
  obtain ⟨t, ht, h⟩ := List.any_eq_true.mp h
  exact List.mem_flatMap.mpr ⟨step, hstep, List.mem_filterMap.mpr ⟨t, ht, beq_iff_eq.mp h⟩⟩

theorem mem_layerUsers (h : inLayers layers user = true) : user ∈ layerUsers layers := by
  obtain ⟨l, hl, h⟩ := List.any_eq_true.mp h
  obtain ⟨q, hq, h⟩ := List.any_eq_true.mp h
  exact List.mem_flatMap.mpr ⟨l, hl, List.mem_map.mpr ⟨q, hq, beq_iff_eq.mp h⟩⟩

theorem mem_twice {users : List UserId} (h : user ∈ users) :
    user ∈ users.flatMap fun u => [u, u] :=
  List.mem_flatMap.mpr ⟨user, h, List.mem_cons_self⟩

theorem namesFrom_commit (st : Store) (e : Edit) :
    NamesFrom st (e.commit st) fun org user => org = e.org ∧ user ∈ e.checks := by
  cases e with
  | createPolicy policy =>
    refine ⟨?_, ?_, fun o' ho' => .inr ho', fun _ h => h⟩
    · intro p' hp' user hnames
      rcases Rows.mem_insert hp' with hold | rfl
      · exact .inr ⟨p', hold, rfl, rfl, id, hnames⟩
      · exact .inl ⟨rfl, mem_twice (mem_ladderUsers hnames)⟩
    · exact fun c' hc' user hnames => .inr ⟨c', hc', rfl, rfl, id, hnames⟩
  | replacePolicy org id repeatCount steps =>
    refine ⟨?_, ?_, fun o' ho' => .inr ho', fun _ h => h⟩
    · intro p' hp' user hnames
      rcases Table.mem_update hp' with hold | ⟨p, hp, hrow, rfl⟩
      · exact .inr ⟨p', hold, rfl, rfl, fun h => h, hnames⟩
      · left
        obtain ⟨hrow, -⟩ := Bool.and_eq_true_iff.mp hrow
        have horg : p.org = org := beq_iff_eq.mp (Bool.and_eq_true_iff.mp hrow).2
        exact ⟨horg, mem_twice (mem_ladderUsers hnames)⟩
    · exact fun c' hc' user hnames => .inr ⟨c', hc', rfl, rfl, fun h => h, hnames⟩
  | createSchedule org id timezone layers =>
    refine ⟨?_, ?_, fun o' ho' => .inr ho', ?_⟩
    · exact fun p' hp' user hnames => .inr ⟨p', hp', rfl, rfl, fun h => h, hnames⟩
    · intro c' hc' user hnames
      rcases Rows.mem_insert hc' with hold | rfl
      · exact .inr ⟨c', hold, rfl, rfl, fun h => h, hnames⟩
      · exact .inl ⟨rfl, mem_layerUsers hnames⟩
    · intro sid hall
      cases hget : st.schedules.get? sid with
      | none => rfl
      | some c =>
        obtain ⟨hc, hid⟩ := Rows.get?_eq_some.1 hget
        have hget' : (st.schedules.insert ⟨id, org, timezone, false, layers⟩).get? sid = some c :=
          Rows.get?_eq_some.2 ⟨Rows.mem_insert_of_mem hc, hid⟩
        have hall' : ((st.schedules.insert ⟨id, org, timezone, false, layers⟩).get? sid).all
            (fun c => !c.deleted) = true := hall
        rw [hget'] at hall'
        exact hall'
  | replaceSchedule org id timezone layers =>
    refine ⟨?_, ?_, fun o' ho' => .inr ho', ?_⟩
    · exact fun p' hp' user hnames => .inr ⟨p', hp', rfl, rfl, fun h => h, hnames⟩
    · intro c' hc' user hnames
      rcases Table.mem_update hc' with hold | ⟨c, hc, hrow, rfl⟩
      · exact .inr ⟨c', hold, rfl, rfl, fun h => h, hnames⟩
      · left
        obtain ⟨hrow, -⟩ := Bool.and_eq_true_iff.mp hrow
        have horg : c.orgId = org := beq_iff_eq.mp (Bool.and_eq_true_iff.mp hrow).2
        exact ⟨horg, mem_layerUsers hnames⟩
    · intro sid hall
      have hget : ((Edit.replaceSchedule org id timezone layers).commit st).schedules.get? sid =
          (st.schedules.get? sid).map fun c =>
            if c.id == id && c.orgId == org && !c.deleted then Edit.restack timezone layers c
            else c := Rows.get?_update (Edit.restack_id timezone layers)
      rw [hget] at hall
      cases hold : st.schedules.get? sid with
      | none => rfl
      | some c =>
        rw [hold, Option.map_some, Option.all_some] at hall
        split at hall <;> exact hall
  | addOverride org id cover =>
    refine ⟨?_, ?_, ?_, fun _ h => h⟩
    · exact fun p' hp' user hnames => .inr ⟨p', hp', rfl, rfl, fun h => h, hnames⟩
    · exact fun c' hc' user hnames => .inr ⟨c', hc', rfl, rfl, fun h => h, hnames⟩
    · intro o' ho'
      rcases List.mem_append.mp ho' with hold | hnew
      · exact .inr hold
      · rw [List.mem_singleton.mp hnew]
        exact .inl ⟨rfl, List.mem_singleton.mpr rfl⟩

theorem namesFrom_run (h : run env st p = some (st', p')) :
    NamesFrom st st' fun org user => p.names st org user = true := by
  have hquiet : ∀ {st' : Store}, st'.policies = st.policies → st'.schedules = st.schedules →
      st'.overrides = st.overrides →
      NamesFrom st st' fun org user => p.names st org user = true := by
    intro st' hpolicies hschedules hoverrides
    exact .of_eq hpolicies hschedules fun o ho => hoverrides ▸ ho
  cases p with
  | policyRow | locking | authorizing =>
    cases h
    exact hquiet rfl rfl rfl
  | policySteps org id level =>
    simp only [run] at h
    split at h <;> cases h <;> exact hquiet rfl rfl rfl
  | targets org at_ rest out => cases rest <;> cases h <;> exact hquiet rfl rfl rfl
  | loading | caching =>
    cases h
    exact hquiet rfl rfl rfl
  | users org at_ source users rest out => cases users <;> cases h <;> exact hquiet rfl rfl rfl
  | replacing org user channels =>
    cases h
    split <;> exact hquiet rfl rfl rfl
  | naming e k =>
    simp only [run] at h
    split at h
    · cases h
      exact hquiet rfl rfl rfl
    · next hnone =>
      cases h
      have hfrom := namesFrom_commit st e
      have hall : e.checks.take k = e.checks :=
        List.take_of_length_le (List.getElem?_eq_none_iff.mp hnone)
      have hnew : ∀ {org : OrgId} {user : UserId}, org = e.org ∧ user ∈ e.checks →
          Phase.names st org user (.naming e k) = true := by
        rintro org user ⟨rfl, hmem⟩
        show (e.org == e.org && (e.checks.take k).contains user) = true
        rw [hall, beq_self_eq_true, Bool.true_and]
        exact List.contains_iff_mem.mpr hmem
      refine ⟨?_, ?_, ?_, hfrom.undeleted⟩
      · intro p' hp' user hnames
        exact (hfrom.policies p' hp' user hnames).imp_left hnew
      · intro c' hc' user hnames
        exact (hfrom.schedules c' hc' user hnames).imp_left hnew
      · intro o' ho'
        exact (hfrom.overrides o' ho').imp_left hnew
  | resolved | done => cases h

theorem inLayers_assemble {rows : List OnCallLayer}
    (h : inLayers (assemble layers rows) user = true) : inLayers rows user = true := by
  obtain ⟨l', hl', h⟩ := List.any_eq_true.mp h
  obtain ⟨l, -, rfl⟩ := List.mem_map.mp hl'
  cases hfind : rows.find? fun r => r.id == l.id with
  | none =>
    rw [hfind] at h
    cases h
  | some r =>
    rw [hfind] at h
    exact List.any_eq_true.mpr ⟨r, List.mem_of_find?_eq_some hfind, h⟩

variable {at_ cachedAt hitAt : Time} {t : EscalationTarget} {rest : List EscalationTarget}
  {out : List PageTarget} {org' : OrgId} {stage : Stage}

theorem names_resolveTarget (h : (resolveTarget st org' at_ t rest out).names st org user = true) :
    org' = org ∧ rungNames (t :: rest) user = true := by
  have hrest : ∀ {b : Bool}, (org' == org && (b || rungNames rest user)) = true → b = false →
      org' = org ∧ rungNames (t :: rest) user = true := by
    intro b h hb
    rw [hb, Bool.false_or, Bool.and_eq_true, beq_iff_eq] at h
    exact ⟨h.1, Bool.or_eq_true_iff.mpr (.inr h.2)⟩
  unfold resolveTarget at h
  split at h
  · split at h <;> exact hrest (b := false) h rfl
  · split at h
    · next uid huid =>
      obtain ⟨horg, h⟩ := Bool.and_eq_true_iff.mp h
      refine ⟨beq_iff_eq.mp horg, Bool.or_eq_true_iff.mpr ?_⟩
      rcases Bool.or_eq_true_iff.mp h with h | h
      · have hmem := List.contains_iff_mem.mp (Bool.and_eq_true_iff.mp h).2
        left
        show (t.userId == some user) = true
        rw [huid, List.mem_singleton.mp hmem]
        exact beq_self_eq_true _
      · exact .inr h
    · exact hrest (b := false) h rfl
  · split at h
    · split at h
      · exact hrest (b := false) h rfl
      · exact hrest (b := false) h rfl
    · exact hrest (b := false) h rfl

theorem org_of_names_loadRoster
    (h : (loadRoster env st org' at_ sid rest out stage).names st org user = true) :
    org' = org := by
  cases stage with
  | schedule =>
    simp only [loadRoster] at h
    split at h <;> exact beq_iff_eq.mp (Bool.and_eq_true_iff.mp h).1
  | layers timezone | participants timezone layers =>
    exact beq_iff_eq.mp (Bool.and_eq_true_iff.mp h).1
  | overrides timezone layers =>
    simp only [loadRoster] at h
    split at h
    · cases h
    · split at h <;> exact beq_iff_eq.mp (Bool.and_eq_true_iff.mp h).1

theorem names_loadRoster
    (h : (loadRoster env st org at_ sid rest out stage).names st org user = true) :
    stage.names st org sid user = true ∨ rungNames rest user = true ∨
      st.names org user = true := by
  cases stage with
  | schedule =>
    simp only [loadRoster] at h
    split at h
    · next c hc =>
      rcases Bool.or_eq_true_iff.mp (Bool.and_eq_true_iff.mp h).2 with h | h
      · have hlive : (st.schedule? org sid).isSome = true := by
          rw [hc]
          rfl
        exact .inr (.inr (names_of_schedule? hlive h))
      · exact .inr (.inl h)
    · exact .inr (.inl (Bool.or_eq_true_iff.mp (Bool.and_eq_true_iff.mp h).2 |>.resolve_left nofun))
  | layers timezone =>
    rcases Bool.or_eq_true_iff.mp (Bool.and_eq_true_iff.mp h).2 with h | h
    · exact .inl h
    · exact .inr (.inl h)
  | participants timezone layers =>
    rcases Bool.or_eq_true_iff.mp (Bool.and_eq_true_iff.mp h).2 with h | h
    · left
      rcases onSchedule_iff.1 h with h | h
      · exact onSchedule_iff.2 (.inl (inLayers_assemble h))
      · exact onSchedule_iff.2 (.inr h)
    · exact .inr (.inl h)
  | overrides timezone layers =>
    simp only [loadRoster] at h
    split at h
    · cases h
    next users husers =>
    split at h
    · exact .inr (.inl (Bool.or_eq_true_iff.mp (Bool.and_eq_true_iff.mp h).2 |>.resolve_left nofun))
    · rcases Bool.or_eq_true_iff.mp (Bool.and_eq_true_iff.mp h).2 with h | h
      · exact .inl (onSchedule_of_mem_resolveOnCall husers (List.contains_iff_mem.mp h))
      · exact .inr (.inl h)

theorem names_of_run (h : run env st p = some (st', p')) (hnames : p'.names st' org user = true) :
    p.names st org user = true ∨ st.names org user = true ∨ st.isMember org user = true := by
  cases p with
  | policyRow org' id level =>
    cases h
    split at hnames
    · next hlive =>
      obtain ⟨horg, hnames⟩ := Bool.and_eq_true_iff.mp hnames
      rw [beq_iff_eq.mp horg] at hlive
      exact .inr (.inl (names_of_policy? hlive hnames))
    · cases hnames
  | policySteps org' id level =>
    simp only [run] at h
    split at h
    · next step hstep =>
      cases h
      obtain ⟨horg, hnames⟩ := Bool.and_eq_true_iff.mp hnames
      left
      refine Bool.and_eq_true_iff.mpr ⟨horg, List.any_eq_true.mpr ⟨step, ?_, hnames⟩⟩
      rw [← beq_iff_eq.mp horg]
      exact List.mem_of_find?_eq_some hstep
    · cases h
      cases hnames
  | targets org' at_ rest out =>
    cases rest with
    | nil =>
      cases h
      cases hnames
    | cons t rest =>
      cases h
      obtain ⟨rfl, hrung⟩ := names_resolveTarget hnames
      exact .inl (Bool.and_eq_true_iff.mpr ⟨beq_self_eq_true _, hrung⟩)
  | loading org' at_ sid stage rest out =>
    cases h
    obtain rfl := org_of_names_loadRoster hnames
    rcases names_loadRoster hnames with hfrom | hfrom | hfrom
    · left
      exact Bool.and_eq_true_iff.mpr ⟨beq_self_eq_true _, Bool.or_eq_true_iff.mpr (.inl hfrom)⟩
    · left
      exact Bool.and_eq_true_iff.mpr ⟨beq_self_eq_true _, Bool.or_eq_true_iff.mpr (.inr hfrom)⟩
    · exact .inr (.inl hfrom)
  | caching org' at_ sid users rest out =>
    cases h
    exact .inl hnames
  | users org' at_ source users rest out =>
    cases users with
    | nil =>
      cases h
      obtain ⟨horg, hnames⟩ := Bool.and_eq_true_iff.mp hnames
      exact .inl (Bool.and_eq_true_iff.mpr ⟨horg, Bool.or_eq_true_iff.mpr (.inr hnames)⟩)
    | cons u users =>
      cases h
      obtain ⟨horg, hnames⟩ := Bool.and_eq_true_iff.mp hnames
      refine .inl (Bool.and_eq_true_iff.mpr ⟨horg, Bool.or_eq_true_iff.mpr ?_⟩)
      rcases Bool.or_eq_true_iff.mp hnames with hnames | hnames
      · obtain ⟨hsource, hmem⟩ := Bool.and_eq_true_iff.mp hnames
        have hmem' := List.mem_cons_of_mem u (List.contains_iff_mem.mp hmem)
        exact .inl (Bool.and_eq_true_iff.mpr ⟨hsource, List.contains_iff_mem.mpr hmem'⟩)
      · exact .inr hnames
  | locking e =>
    cases h
    split at hnames
    · obtain ⟨-, hnames⟩ := Bool.and_eq_true_iff.mp hnames
      cases hnames
    · cases hnames
  | naming e k =>
    simp only [run] at h
    split at h
    · next u hu =>
      cases h
      split at hnames
      · next hmember =>
        obtain ⟨horg, hnames⟩ := Bool.and_eq_true_iff.mp hnames
        have hmem := List.contains_iff_mem.mp hnames
        rw [List.take_add_one, hu, List.mem_append] at hmem
        rcases hmem with hmem | hmem
        · exact .inl (Bool.and_eq_true_iff.mpr ⟨horg, List.contains_iff_mem.mpr hmem⟩)
        · right
          right
          obtain rfl : user = u := List.mem_singleton.mp hmem
          rw [← beq_iff_eq.mp horg]
          exact hmember
      · cases hnames
    · cases h
      cases hnames
  | authorizing org' user' channels =>
    cases h
    split at hnames <;> cases hnames
  | replacing org' user' channels =>
    cases h
    cases hnames
  | resolved | done => cases h

/-! ## Contact channels -/

theorem contactsForUser_eq_nil : st.contactsForUser org user = [] ↔
    ∀ c ∈ st.contacts, ¬(c.orgId = org ∧ c.userId = user) := by
  unfold Store.contactsForUser
  rw [List.map_eq_nil_iff, List.filter_eq_nil_iff]
  simp only [Bool.and_eq_true, beq_iff_eq]

theorem reaches_of_run (h : run env st p = some (st', p')) :
    (st.contactsForUser org user = [] → p.reaches org user = false →
      st'.contactsForUser org user = []) ∧
    (p'.reaches org user = true → st.isMember org user = true) := by
  cases p with
  | authorizing org' user' channels =>
    cases h
    refine ⟨fun hnil _ => hnil, ?_⟩
    intro hreaches
    split at hreaches
    · next hmember =>
      obtain ⟨horg, huser⟩ := Bool.and_eq_true_iff.mp hreaches
      rw [← beq_iff_eq.mp horg, ← beq_iff_eq.mp huser]
      exact hmember
    · cases hreaches
  | replacing org' user' channels =>
    cases h
    refine ⟨?_, nofun⟩
    intro hnil hreaches
    have hother : ¬(org' = org ∧ user' = user) := by
      rintro ⟨rfl, rfl⟩
      simp [Phase.reaches] at hreaches
    split
    · rw [contactsForUser_eq_nil] at hnil ⊢
      intro c hc
      rcases List.mem_append.mp hc with hc | hc
      · exact hnil c (List.mem_of_mem_filter hc)
      · obtain ⟨channel, -, rfl⟩ := List.mem_map.mp hc
        exact hother
    · exact hnil
  | policyRow | locking =>
    cases h
    refine ⟨fun hnil _ => hnil, ?_⟩
    intro hreaches
    split at hreaches <;> cases hreaches
  | policySteps org' id level =>
    simp only [run] at h
    split at h <;> cases h <;> exact ⟨fun hnil _ => hnil, nofun⟩
  | targets org' at_ rest out =>
    cases rest with
    | nil =>
      cases h
      exact ⟨fun hnil _ => hnil, nofun⟩
    | cons t rest =>
      cases h
      refine ⟨fun hnil _ => hnil, ?_⟩
      intro hreaches
      unfold resolveTarget at hreaches
      split at hreaches <;> split at hreaches <;> try split at hreaches
      all_goals cases hreaches
  | loading org' at_ sid stage rest out =>
    cases h
    refine ⟨fun hnil _ => hnil, ?_⟩
    intro hreaches
    cases stage with
    | schedule =>
      simp only [loadRoster] at hreaches
      split at hreaches <;> cases hreaches
    | overrides =>
      simp only [loadRoster] at hreaches
      split at hreaches
      · cases hreaches
      · split at hreaches <;> cases hreaches
    | layers | participants => cases hreaches
  | caching =>
    cases h
    exact ⟨fun hnil _ => hnil, nofun⟩
  | users org' at_ source users rest out =>
    cases users <;> cases h <;> exact ⟨fun hnil _ => hnil, nofun⟩
  | naming e k =>
    simp only [run] at h
    split at h
    · cases h
      refine ⟨fun hnil _ => hnil, ?_⟩
      intro hreaches
      split at hreaches <;> cases hreaches
    · cases h
      refine ⟨?_, nofun⟩
      intro hnil _
      cases e <;> exact hnil
  | resolved | done => cases h

/-! ## What a step of a task does -/

/-- The task is to page the user next, or after others that `source` has. -/
def Phase.due (org : OrgId) (source : Source) (user : UserId) : Phase → Bool
  | .users org' _ source' roster _ _ => org' == org && source' == source && roster.contains user
  | _ => false

structure Went (st : Store) (p : Phase) (st' : Store) (p' : Phase) : Prop where
  members : st'.members = st.members
  departures : st'.departures = st.departures
  now : st'.now = st.now
  writes : NamesFrom st st' fun org user => p.names st org user = true
  reads : ∀ org user, p'.names st' org user = true →
    p.names st org user = true ∨ st.names org user = true ∨ st.isMember org user = true
  contacts : ∀ org user, st.contactsForUser org user = [] → p.reaches org user = false →
    st'.contactsForUser org user = []
  reaches : ∀ org user, p'.reaches org user = true → st.isMember org user = true
  cached : ∀ e ∈ st'.cache, e ∈ st.cache ∨
    e.cachedAt = st.now ∧ ∀ user ∈ e.users, p.names st e.org user = true
  due : ∀ org cachedAt hitAt user, p'.due org (.cached cachedAt hitAt) user = true →
    p.due org (.cached cachedAt hitAt) user = true ∨
    ∃ e ∈ st.cache, e.org = org ∧ e.cachedAt = cachedAt ∧ user ∈ e.users ∧ hitAt = st.now ∧
      st.now < cachedAt + onCallCacheTtl

theorem members_of_run (h : run env st p = some (st', p')) :
    st'.members = st.members ∧ st'.departures = st.departures ∧ st'.now = st.now := by
  cases p with
  | policyRow | loading | caching | locking | authorizing =>
    cases h
    exact ⟨rfl, rfl, rfl⟩
  | policySteps org' id level =>
    simp only [run] at h
    split at h <;> cases h <;> exact ⟨rfl, rfl, rfl⟩
  | targets org' at_ rest out => cases rest <;> cases h <;> exact ⟨rfl, rfl, rfl⟩
  | users org' at_ source users rest out => cases users <;> cases h <;> exact ⟨rfl, rfl, rfl⟩
  | naming e k =>
    simp only [run] at h
    split at h
    · cases h
      exact ⟨rfl, rfl, rfl⟩
    · cases h
      cases e <;> exact ⟨rfl, rfl, rfl⟩
  | replacing org' user' channels =>
    cases h
    split <;> exact ⟨rfl, rfl, rfl⟩
  | resolved | done => cases h

theorem cache_of_run (h : run env st p = some (st', p')) : st'.cache = st.cache ∨
    ∃ org at_ sid users rest out, p = .caching org at_ sid users rest out ∧
      st' = st.cacheRoster org sid users := by
  cases p with
  | caching org at_ sid users rest out =>
    cases h
    exact .inr ⟨org, at_, sid, users, rest, out, rfl, rfl⟩
  | policyRow | loading | locking | authorizing =>
    cases h
    exact .inl rfl
  | policySteps org' id level =>
    simp only [run] at h
    split at h <;> cases h <;> exact .inl rfl
  | targets org' at_ rest out => cases rest <;> cases h <;> exact .inl rfl
  | users org' at_ source users rest out => cases users <;> cases h <;> exact .inl rfl
  | naming e k =>
    simp only [run] at h
    split at h
    · cases h
      exact .inl rfl
    · cases h
      left
      cases e <;> rfl
  | replacing org' user' channels =>
    cases h
    left
    split <;> rfl
  | resolved | done => cases h

theorem due_of_resolveTarget
    (h : (resolveTarget st org' at_ t rest out).due org (.cached cachedAt hitAt) user = true) :
    ∃ e ∈ st.cache, e.org = org ∧ e.cachedAt = cachedAt ∧ user ∈ e.users ∧ hitAt = st.now ∧
      st.now < cachedAt + onCallCacheTtl := by
  unfold resolveTarget at h
  split at h
  · split at h <;> cases h
  · split at h
    · obtain ⟨h, -⟩ := Bool.and_eq_true_iff.mp h
      cases beq_iff_eq.mp (Bool.and_eq_true_iff.mp h).2
    · cases h
  · split at h
    · split at h
      · next e hroster =>
        obtain ⟨h, hmem⟩ := Bool.and_eq_true_iff.mp h
        obtain ⟨horg, hsource⟩ := Bool.and_eq_true_iff.mp h
        obtain ⟨rfl, rfl⟩ := Source.cached.inj (beq_iff_eq.mp hsource)
        have hrow := List.find?_some hroster
        obtain ⟨hkey, hfresh⟩ := Bool.and_eq_true_iff.mp hrow
        have heorg := beq_iff_eq.mp (Bool.and_eq_true_iff.mp hkey).1
        exact ⟨e, List.mem_of_find?_eq_some hroster, heorg.trans (beq_iff_eq.mp horg), rfl,
          List.contains_iff_mem.mp hmem, rfl, of_decide_eq_true hfresh⟩
      · cases h
    · cases h

theorem due_of_run (h : run env st p = some (st', p'))
    (hdue : p'.due org (.cached cachedAt hitAt) user = true) :
    p.due org (.cached cachedAt hitAt) user = true ∨
    ∃ e ∈ st.cache, e.org = org ∧ e.cachedAt = cachedAt ∧ user ∈ e.users ∧ hitAt = st.now ∧
      st.now < cachedAt + onCallCacheTtl := by
  cases p with
  | targets org' at_ rest out =>
    cases rest with
    | nil =>
      cases h
      cases hdue
    | cons t rest =>
      cases h
      exact .inr (due_of_resolveTarget hdue)
  | users org' at_ source users rest out =>
    cases users with
    | nil =>
      cases h
      cases hdue
    | cons u users =>
      cases h
      obtain ⟨hsource, hmem⟩ := Bool.and_eq_true_iff.mp hdue
      have hmem' := List.mem_cons_of_mem u (List.contains_iff_mem.mp hmem)
      exact .inl (Bool.and_eq_true_iff.mpr ⟨hsource, List.contains_iff_mem.mpr hmem'⟩)
  | caching org' at_ sid users rest out =>
    cases h
    obtain ⟨hdue, -⟩ := Bool.and_eq_true_iff.mp hdue
    cases beq_iff_eq.mp (Bool.and_eq_true_iff.mp hdue).2
  | loading org' at_ sid stage rest out =>
    cases h
    have hempty : ∀ {rest out}, ¬Phase.due org (.cached cachedAt hitAt) user
        (.users org' at_ .current [] rest out) = true := by
      intro rest out hdue
      cases (Bool.and_eq_true_iff.mp hdue).2
    cases stage with
    | schedule =>
      simp only [loadRoster] at hdue
      split at hdue
      · cases hdue
      · exact absurd hdue hempty
    | layers | participants => cases hdue
    | overrides =>
      simp only [loadRoster] at hdue
      split at hdue
      · cases hdue
      · split at hdue
        · exact absurd hdue hempty
        · cases hdue
  | policyRow | locking | authorizing =>
    cases h
    split at hdue <;> cases hdue
  | policySteps org' id level =>
    simp only [run] at h
    split at h <;> cases h <;> cases hdue
  | naming e k =>
    simp only [run] at h
    split at h
    · cases h
      split at hdue <;> cases hdue
    · cases h
      cases hdue
  | replacing =>
    cases h
    cases hdue
  | resolved | done => cases h

theorem Went.of_run (h : run env st p = some (st', p')) : Went st p st' p' where
  members := (members_of_run h).1
  departures := (members_of_run h).2.1
  now := (members_of_run h).2.2
  writes := namesFrom_run h
  reads := fun _ _ => names_of_run h
  contacts := fun _ _ => (reaches_of_run h).1
  reaches := fun _ _ => (reaches_of_run h).2
  cached := by
    intro e he
    rcases cache_of_run h with hcache | ⟨org, at_, sid, users, rest, out, rfl, rfl⟩
    · exact .inl (hcache ▸ he)
    · rcases List.mem_append.mp he with he | he
      · exact .inl (List.mem_of_mem_filter he)
      · right
        rw [List.mem_singleton.mp he]
        refine ⟨rfl, ?_⟩
        intro user huser
        show (org == org && (users.contains user || rungNames rest user)) = true
        rw [beq_self_eq_true, Bool.true_and, List.contains_iff_mem.mpr huser, Bool.true_or]
  due := fun _ _ _ _ => due_of_run h

theorem Went.of_fail : Went st p st .done where
  members := rfl
  departures := rfl
  now := rfl
  writes := .of_eq rfl rfl fun _ h => h
  reads := nofun
  contacts := fun _ _ h _ => h
  reaches := nofun
  cached := fun _ => .inl
  due := nofun

theorem Went.of_next {succeeds : Bool}
    (h : (program env).next st p succeeds = some (st', p')) : Went st p st' p' := by
  obtain ⟨⟨st₁, p₁⟩, hrun, hgo⟩ := Option.map_eq_some_iff.mp h
  split at hgo
  · cases hgo
    exact .of_run hrun
  · cases hgo
    exact .of_fail

end

/-! ## What a step does to one user -/

section

variable {env : Env} {s s' : State}

/-- Names and contact channels are given to members, and a membership ends for good reason or with
nobody to page. -/
structure Moved (s s' : State) : Prop where
  now : s.store.now ≤ s'.store.now
  members : ∀ org user, s.store.isMember org user = true →
    s'.store.isMember org user = true ∨ s'.store.departed org user s.store.now = true ∧
      (named s org user = false ∨ reachable s org user = false)
  departures : ∀ d ∈ s.store.departures, d ∈ s'.store.departures
  names : ∀ org user, named s' org user = true →
    named s org user = true ∨ s'.store.isMember org user = true
  contacts : ∀ org user, reachable s' org user = true →
    reachable s org user = true ∨ s'.store.isMember org user = true

variable {user : UserId} {st : Store} {since : Time} {e : Act Request Bool Outer}

theorem named_iff {org : OrgId} : named s org user = true ↔
    s.store.names org user = true ∨ ∃ p ∈ s.tasks, p.names s.store org user = true := by
  unfold named
  rw [Bool.or_eq_true, List.any_eq_true]

theorem reachable_iff {org : OrgId} : reachable s org user = true ↔
    s.store.contactsForUser org user ≠ [] ∨ ∃ p ∈ s.tasks, p.reaches org user = true := by
  unfold reachable
  rw [Bool.or_eq_true, List.any_eq_true, Bool.not_eq_true', List.isEmpty_eq_false_iff]

theorem Moved.begin (request : Request) :
    Moved s { s with tasks := s.tasks ++ [(program env).first request] } where
  now := Int.le_refl _
  members := fun _ _ => .inl
  departures := fun _ h => h
  names := by
    intro org user h
    left
    rcases named_iff.1 h with hstore | ⟨p, hp, hnames⟩
    · exact named_iff.2 (.inl hstore)
    · rcases List.mem_append.mp hp with hp | hp
      · exact named_iff.2 (.inr ⟨p, hp, hnames⟩)
      · rw [List.mem_singleton.mp hp] at hnames
        cases request <;> cases hnames
  contacts := by
    intro org user h
    left
    rcases reachable_iff.1 h with hstore | ⟨p, hp, hreaches⟩
    · exact reachable_iff.2 (.inl hstore)
    · rcases List.mem_append.mp hp with hp | hp
      · exact reachable_iff.2 (.inr ⟨p, hp, hreaches⟩)
      · rw [List.mem_singleton.mp hp] at hreaches
        cases request <;> cases hreaches

theorem Moved.go {i : Nat} {p p' : Phase} (hp : s.tasks[i]? = some p) (h : Went s.store p st p') :
    Moved s ⟨st, s.tasks.set i p'⟩ := by
  have hmem : p ∈ s.tasks := List.mem_of_getElem? hp
  have hmember : ∀ org user, st.isMember org user = s.store.isMember org user := by
    intro org user
    unfold Store.isMember
    rw [h.members]
  have hnames : ∀ org user, p.names s.store org user = true → named s org user = true :=
    fun org user hnames => named_iff.2 (.inr ⟨p, hmem, hnames⟩)
  constructor
  · exact Int.le_of_eq h.now.symm
  · intro org user hold
    exact .inl ((hmember org user).trans hold)
  · exact fun d hd => h.departures ▸ hd
  · intro org user hnamed
    rcases named_iff.1 hnamed with hstore | ⟨q, hq, hq'⟩
    · rcases h.writes.store hstore with hnew | hold
      · exact .inl (hnames org user hnew)
      · exact .inl (named_iff.2 (.inl hold))
    · rcases List.mem_or_eq_of_mem_set hq with hq | rfl
      · rcases h.writes.phase hq' with hnew | hold
        · exact .inl (hnames org user hnew)
        · exact .inl (named_iff.2 (.inr ⟨q, hq, hold⟩))
      · rcases h.reads org user hq' with hread | hread | hread
        · exact .inl (hnames org user hread)
        · exact .inl (named_iff.2 (.inl hread))
        · exact .inr ((hmember org user).trans hread)
  · intro org user hreachable
    rcases reachable_iff.1 hreachable with hstore | ⟨q, hq, hq'⟩
    · left
      refine reachable_iff.2 ?_
      by_cases hnil : s.store.contactsForUser org user = []
      · right
        refine ⟨p, hmem, ?_⟩
        cases hreaches : p.reaches org user with
        | true => rfl
        | false => exact absurd (h.contacts org user hnil hreaches) hstore
      · exact .inl hnil
    · rcases List.mem_or_eq_of_mem_set hq with hq | rfl
      · exact .inl (reachable_iff.2 (.inr ⟨q, hq, hq'⟩))
      · exact .inr ((hmember org user).trans (h.reaches org user hq'))

theorem namesFrom_outer (st : Store) (o : Outer) :
    NamesFrom st (outer st o) fun _ _ => False := by
  cases o with
  | addMember org user =>
    show NamesFrom st (st.join org user) _
    unfold Store.join
    split <;> exact .of_eq rfl rfl fun _ h => h
  | deletePolicy org id =>
    refine ⟨?_, ?_, fun o' ho' => .inr ho', fun _ h => h⟩
    · intro p' hp' user hnames
      right
      rcases Table.mem_update hp' with hold | ⟨p, hp, hrow, rfl⟩
      · exact ⟨p', hold, rfl, rfl, fun h => h, hnames⟩
      · exact ⟨p, hp, rfl, rfl, nofun, hnames⟩
    · exact fun c' hc' user hnames => .inr ⟨c', hc', rfl, rfl, fun h => h, hnames⟩
  | deleteSchedule org id =>
    refine ⟨?_, ?_, fun o' ho' => .inr ho', ?_⟩
    · exact fun p' hp' user hnames => .inr ⟨p', hp', rfl, rfl, fun h => h, hnames⟩
    · intro c' hc' user hnames
      right
      rcases Table.mem_update hc' with hold | ⟨c, hc, hrow, rfl⟩
      · exact ⟨c', hold, rfl, rfl, fun h => h, hnames⟩
      · exact ⟨c, hc, rfl, rfl, nofun, hnames⟩
    · intro sid hall
      have hget : (outer st (.deleteSchedule org id)).schedules.get? sid =
          (st.schedules.get? sid).map fun c =>
            if c.id == id && c.orgId == org && !c.deleted then { c with deleted := true }
            else c :=
        Rows.get?_update (f := fun c : Schedule => { c with deleted := true }) fun _ => rfl
      rw [hget] at hall
      cases hold : st.schedules.get? sid with
      | none => rfl
      | some c =>
        rw [hold, Option.map_some, Option.all_some] at hall
        split at hall
        · cases hall
        · exact hall
  | deleteOverride org scheduleId id =>
    exact .of_eq rfl rfl fun _ ho => List.mem_of_mem_filter ho
  | tick | removeMember | requestDeletion | evict => exact .of_eq rfl rfl fun _ h => h

theorem contacts_outer (st : Store) (o : Outer) : (outer st o).contacts = st.contacts := by
  cases o with
  | addMember org user =>
    show (st.join org user).contacts = st.contacts
    unfold Store.join
    split <;> rfl
  | _ => rfl

theorem outer_eq_leave (st : Store) (o : Outer) : outer st o = st.leave o.ends ∨
    st.now ≤ (outer st o).now ∧ (outer st o).departures = st.departures ∧
      ∀ m ∈ st.members, m ∈ (outer st o).members := by
  cases o with
  | removeMember | requestDeletion => exact .inl rfl
  | tick elapsed =>
    exact .inr ⟨Int.le_add_of_nonneg_right (Int.natCast_nonneg elapsed), rfl, fun _ h => h⟩
  | addMember org user =>
    right
    show _ ≤ (st.join org user).now ∧ (st.join org user).departures = _ ∧
      ∀ m ∈ st.members, m ∈ (st.join org user).members
    unfold Store.join
    split
    · exact ⟨Int.le_refl _, rfl, fun _ h => h⟩
    · exact ⟨Int.le_refl _, rfl, fun _ h => List.mem_append_left _ h⟩
  | deletePolicy | deleteSchedule | deleteOverride | evict =>
    exact .inr ⟨Int.le_refl _, rfl, fun _ h => h⟩

theorem isMember_iff {org : OrgId} :
    st.isMember org user = true ↔ (org, user) ∈ st.members :=
  List.contains_iff_mem

theorem departed_iff {org : OrgId} :
    st.departed org user since = true ↔
      ∃ d ∈ st.departures, d.org = org ∧ d.user = user ∧ since ≤ d.leftAt := by
  unfold Store.departed
  simp only [List.any_eq_true, Bool.and_eq_true, beq_iff_eq, decide_eq_true_eq, and_assoc]

theorem Moved.of_outer {o : Outer} (hcleared : cleared s (.outer o) = true) :
    Moved s { s with store := outer s.store o } := by
  have hnamed : ∀ org user, named { s with store := outer s.store o } org user = true →
      named s org user = true := by
    intro org user h
    rcases named_iff.1 h with hstore | ⟨p, hp, hnames⟩
    · exact named_iff.2 (.inl ((namesFrom_outer s.store o).store hstore |>.resolve_left id))
    · have hold := (namesFrom_outer s.store o).phase hnames |>.resolve_left id
      exact named_iff.2 (.inr ⟨p, hp, hold⟩)
  have hreachable : ∀ org user,
      reachable { s with store := outer s.store o } org user = true →
      reachable s org user = true := by
    intro org user h
    unfold reachable Store.contactsForUser at h ⊢
    rwa [contacts_outer] at h
  constructor
  · rcases outer_eq_leave s.store o with hleave | ⟨hnow, -, -⟩
    · show s.store.now ≤ (outer s.store o).now
      rw [hleave]
      exact Int.le_refl _
    · exact hnow
  · intro org user hmember
    rcases outer_eq_leave s.store o with hleave | ⟨-, -, hkept⟩
    · by_cases hends : o.ends (org, user) = true
      · right
        constructor
        · show (outer s.store o).departed org user s.store.now = true
          rw [hleave]
          refine departed_iff.2 ⟨⟨org, user, s.store.now⟩, ?_, rfl, rfl, Int.le_refl _⟩
          refine List.mem_append_right _ (List.mem_map.mpr ⟨(org, user), ?_, rfl⟩)
          exact List.mem_filter.mpr ⟨isMember_iff.1 hmember, hends⟩
        · have hrow := List.all_eq_true.mp hcleared (org, user) (isMember_iff.1 hmember)
          rw [hends, Bool.true_and, Bool.not_eq_true', Bool.and_eq_false_iff] at hrow
          exact hrow
      · left
        show (outer s.store o).isMember org user = true
        rw [hleave]
        refine isMember_iff.2 (List.mem_filter.mpr ⟨isMember_iff.1 hmember, ?_⟩)
        rw [Bool.not_eq_true _ |>.mp hends]
        rfl
    · exact .inl (isMember_iff.2 (hkept _ (isMember_iff.1 hmember)))
  · intro d hd
    rcases outer_eq_leave s.store o with hleave | ⟨-, hdepartures, -⟩
    · show d ∈ (outer s.store o).departures
      rw [hleave]
      exact List.mem_append_left _ hd
    · exact hdepartures ▸ hd
  · exact fun org user h => .inl (hnamed org user h)
  · exact fun org user h => .inl (hreachable org user h)

theorem Moved.of_step (hcleared : cleared s e = true) (h : (program env).step s e = some s') :
    Moved s s' := by
  cases Program.stepped h with
  | begin request => exact .begin request
  | go hp hnext => exact .go hp (.of_next hnext)
  | outer o => exact .of_outer hcleared

/-! ## Over a run -/

/-- Somebody on a roster from `since` is a member, or cannot be paged, or left after it. -/
def Covered (s : State) (org : OrgId) (user : UserId) (since : Time) : Prop :=
  s.store.isMember org user = true ∨ reachable s org user = false ∨
    s.store.departed org user since = true

structure Safe (s : State) : Prop where
  apart : ∀ org user, s.store.isMember org user = true ∨ reachable s org user = false ∨
    named s org user = false
  cache : ∀ e ∈ s.store.cache, e.cachedAt ≤ s.store.now ∧
    ∀ user ∈ e.users, Covered s e.org user e.cachedAt
  hits : ∀ p ∈ s.tasks, ∀ org cachedAt hitAt user,
    p.due org (.cached cachedAt hitAt) user = true →
    cachedAt ≤ s.store.now ∧ hitAt < cachedAt + onCallCacheTtl ∧ Covered s org user cachedAt

theorem Moved.unreachable (h : Moved s s') {org : OrgId} (hold : reachable s org user = false) :
    s'.store.isMember org user = true ∨ reachable s' org user = false := by
  cases hnew : reachable s' org user with
  | false => exact .inr rfl
  | true =>
    rcases h.contacts org user hnew with hreachable | hmember
    · rw [hold] at hreachable
      cases hreachable
    · exact .inl hmember

theorem Moved.nameless (h : Moved s s') {org : OrgId} (hold : named s org user = false) :
    s'.store.isMember org user = true ∨ named s' org user = false := by
  cases hnew : named s' org user with
  | false => exact .inr rfl
  | true =>
    rcases h.names org user hnew with hnamed | hmember
    · rw [hold] at hnamed
      cases hnamed
    · exact .inl hmember

theorem Moved.covered (h : Moved s s') {org : OrgId} (hsince : since ≤ s.store.now)
    (hold : Covered s org user since) : Covered s' org user since := by
  rcases hold with hmember | hreachable | hdeparted
  · rcases h.members org user hmember with hmember | ⟨hdeparted, -⟩
    · exact .inl hmember
    · obtain ⟨d, hd, horg, huser, hat⟩ := departed_iff.1 hdeparted
      exact .inr (.inr (departed_iff.2 ⟨d, hd, horg, huser, Int.le_trans hsince hat⟩))
  · rcases h.unreachable hreachable with hmember | hreachable
    · exact .inl hmember
    · exact .inr (.inl hreachable)
  · obtain ⟨d, hd, hrow⟩ := departed_iff.1 hdeparted
    exact .inr (.inr (departed_iff.2 ⟨d, h.departures d hd, hrow⟩))

theorem Safe.apart_step (hs : Safe s) (h : Moved s s') (org : OrgId) (user : UserId) :
    s'.store.isMember org user = true ∨ reachable s' org user = false ∨
      named s' org user = false := by
  have hunreachable : reachable s org user = false → s'.store.isMember org user = true ∨
      reachable s' org user = false ∨ named s' org user = false :=
    fun hold => (h.unreachable hold).imp_right .inl
  have hnameless : named s org user = false → s'.store.isMember org user = true ∨
      reachable s' org user = false ∨ named s' org user = false :=
    fun hold => (h.nameless hold).imp_right .inr
  rcases hs.apart org user with hmember | hold | hold
  · rcases h.members org user hmember with hmember | ⟨-, hold | hold⟩
    · exact .inl hmember
    · exact hnameless hold
    · exact hunreachable hold
  · exact hunreachable hold
  · exact hnameless hold

theorem Safe.covered_of_named (hs : Safe s) {org : OrgId} (h : named s org user = true) :
    Covered s org user since := by
  rcases hs.apart org user with hmember | hold | hold
  · exact .inl hmember
  · exact .inr (.inl hold)
  · rw [h] at hold
    cases hold

theorem Safe.step (hs : Safe s) (hcleared : cleared s e = true)
    (h : (program env).step s e = some s') : Safe s' := by
  have hmoved := Moved.of_step hcleared h
  have hkept : ∀ {org cachedAt user}, cachedAt ≤ s.store.now → Covered s org user cachedAt →
      cachedAt ≤ s'.store.now ∧ Covered s' org user cachedAt :=
    fun hat hold => ⟨Int.le_trans hat hmoved.now, hmoved.covered hat hold⟩
  refine ⟨hs.apart_step hmoved, ?_, ?_⟩
  · have hcache : ∀ e ∈ s'.store.cache, e ∈ s.store.cache ∨
        e.cachedAt = s.store.now ∧ ∀ user ∈ e.users, named s e.org user = true := by
      cases Program.stepped h with
      | begin => exact fun e he => .inl he
      | go hp hnext =>
        intro e he
        rcases (Went.of_next hnext).cached e he with hold | ⟨hat, hnames⟩
        · exact .inl hold
        · right
          refine ⟨hat, fun user huser => ?_⟩
          exact named_iff.2 (.inr ⟨_, List.mem_of_getElem? hp, hnames user huser⟩)
      | outer o =>
        intro e he
        left
        cases o with
        | evict => exact List.mem_of_mem_filter he
        | addMember org user =>
          simp only [program, outer, Store.join] at he
          split at he <;> exact he
        | _ => exact he
    intro e he
    rcases hcache e he with hold | ⟨hat, hnames⟩
    · obtain ⟨hat, hcovered⟩ := hs.cache e hold
      exact ⟨(Int.le_trans hat hmoved.now), fun user huser => (hkept hat (hcovered user huser)).2⟩
    · refine ⟨Int.le_trans (Int.le_of_eq hat) hmoved.now, fun user huser => ?_⟩
      exact hmoved.covered (Int.le_of_eq hat) (hs.covered_of_named (hnames user huser))
  · have hhits : ∀ p' ∈ s'.tasks, ∀ org cachedAt hitAt user,
        p'.due org (.cached cachedAt hitAt) user = true →
        cachedAt ≤ s.store.now ∧ hitAt < cachedAt + onCallCacheTtl ∧
          Covered s org user cachedAt := by
      cases Program.stepped h with
      | begin request =>
        intro p' hp' org cachedAt hitAt user hdue
        rcases List.mem_append.mp hp' with hold | hnew
        · exact hs.hits p' hold org cachedAt hitAt user hdue
        · rw [List.mem_singleton.mp hnew] at hdue
          cases request <;> cases hdue
      | go hp hnext =>
        intro p' hp' org cachedAt hitAt user hdue
        rcases List.mem_or_eq_of_mem_set hp' with hold | rfl
        · exact hs.hits p' hold org cachedAt hitAt user hdue
        · rcases (Went.of_next hnext).due org cachedAt hitAt user hdue with hold |
            ⟨e, he, rfl, rfl, huser, rfl, hfresh⟩
          · exact hs.hits _ (List.mem_of_getElem? hp) org cachedAt hitAt user hold
          · exact ⟨(hs.cache e he).1, hfresh, (hs.cache e he).2 user huser⟩
      | outer o => exact hs.hits
    intro p' hp' org cachedAt hitAt user hdue
    obtain ⟨hat, hfresh, hcovered⟩ := hhits p' hp' org cachedAt hitAt user hdue
    obtain ⟨hat', hcovered'⟩ := hkept hat hcovered
    exact ⟨hat', hfresh, hcovered'⟩

/-- Every name is a member's, and nothing is under way. -/
structure Start (s : State) : Prop where
  members : ∀ org user, s.store.names org user = true → s.store.isMember org user = true
  tasks : s.tasks = []
  cache : s.store.cache = []
  departures : s.store.departures = []

theorem Start.safe (h : Start s) : Safe s := by
  refine ⟨?_, ?_, ?_⟩
  · intro org user
    cases hnamed : named s org user with
    | false => exact .inr (.inr rfl)
    | true =>
      rcases named_iff.1 hnamed with hstore | ⟨p, hp, -⟩
      · exact .inl (h.members org user hstore)
      · rw [h.tasks] at hp
        cases hp
  · rw [h.cache]
    exact nofun
  · rw [h.tasks]
    exact nofun

/-- **Only members are paged**: whoever a rung is to page, and has contact channels to be paged on,
is a member, or was on a roster that was cached less than its TTL ago and has left since, as long
as nobody's membership ends who is both named and reachable. -/
theorem only_members_are_paged {s₀ : State} (hstart : Start s₀)
    (hrun : Run (program env).step (fun s e => cleared s e = true) s₀ s) {org : OrgId} {at_ : Time}
    {source : Source} {users : List UserId} {rest : List EscalationTarget} {out : List PageTarget}
    (hp : Phase.users org at_ source users rest out ∈ s.tasks) {user : UserId}
    (huser : user ∈ users) (hcontacts : s.store.contactsForUser org user ≠ []) :
    s.store.isMember org user = true ∨ ∃ cachedAt hitAt, source = .cached cachedAt hitAt ∧
      hitAt < cachedAt + onCallCacheTtl ∧ s.store.departed org user cachedAt = true := by
  have hsafe : Safe s := hrun.invariant hstart.safe fun _ _ _ h hok heq => h.step hok heq
  have hreachable : reachable s org user = true := reachable_iff.2 (.inl hcontacts)
  cases source with
  | current =>
    have hnamed : named s org user = true := by
      refine named_iff.2 (.inr ⟨_, hp, ?_⟩)
      show (org == org && (Source.current == .current && users.contains user ||
        rungNames rest user)) = true
      rw [beq_self_eq_true, Bool.true_and, beq_self_eq_true, Bool.true_and,
        List.contains_iff_mem.mpr huser, Bool.true_or]
    rcases hsafe.apart org user with hmember | hnone | hnone
    · exact .inl hmember
    · rw [hreachable] at hnone
      cases hnone
    · rw [hnamed] at hnone
      cases hnone
  | cached cachedAt hitAt =>
    have hdue : Phase.due org (.cached cachedAt hitAt) user
        (.users org at_ (.cached cachedAt hitAt) users rest out) = true := by
      show (org == org && Source.cached cachedAt hitAt == .cached cachedAt hitAt &&
        users.contains user) = true
      rw [beq_self_eq_true, Bool.true_and, beq_self_eq_true, Bool.true_and]
      exact List.contains_iff_mem.mpr huser
    obtain ⟨-, hfresh, hmember | hnone | hdeparted⟩ := hsafe.hits _ hp org cachedAt hitAt user hdue
    · exact .inl hmember
    · rw [hreachable] at hnone
      cases hnone
    · exact .inr ⟨cachedAt, hitAt, rfl, hfresh, hdeparted⟩

end

/-! ## One rung -/

namespace One

def env : Env := ⟨fun _ => ⟨id, .single, fun _ => 0⟩, fun _ _ => true⟩

def start : State := ⟨⟨0, [(1, 7), (1, 8)], [], Rows.empty, Rows.empty, [], [], []⟩, []⟩

def goes (i n : Nat) : List (Act Request Bool Outer) := List.replicate n (.go i true)

def policy (target : EscalationTarget) : EscalationPolicy := ⟨1, 100, 0, [⟨1, 0, [target]⟩], none⟩

def layer (user : UserId) : OnCallLayer := ⟨300, .daily, 86400, 0, 0, 0, [⟨user, 0⟩]⟩

/-- The rung pages a member, whose contact channels are set. -/
def byName : List (Act Request Bool Outer) :=
  ([.begin (.edit (.createPolicy (policy ⟨.user, some 7, none, none⟩)))] :
    List (Act Request Bool Outer)) ++ goes 0 4 ++
  ([.begin (.setMyContacts 1 7 [50])] : List (Act Request Bool Outer)) ++ goes 1 2

/-- Who leaves before the rung is due. -/
def left : List (Act Request Bool Outer) :=
  byName ++
  ([.outer (.removeMember 1 7), .begin (.rung 1 100 1)] : List (Act Request Bool Outer)) ++ goes 2 3

/-- The rung pages who is on call. -/
def onCall : List (Act Request Bool Outer) :=
  ([.begin (.edit (.createSchedule 1 200 "UTC" [layer 7]))] : List (Act Request Bool Outer)) ++
  goes 0 3 ++
  ([.begin (.edit (.createPolicy (policy ⟨.schedule, none, some 200, none⟩)))] :
    List (Act Request Bool Outer)) ++ goes 1 2 ++
  ([.begin (.setMyContacts 1 7 [50])] : List (Act Request Bool Outer)) ++ goes 2 2

/-- A rung loads the roster; somebody else takes the shift over and the member leaves; the rung
comes round within the TTL. -/
def handedOver : List (Act Request Bool Outer) :=
  onCall ++ ([.begin (.rung 1 100 1)] : List (Act Request Bool Outer)) ++ goes 3 11 ++
  ([.begin (.edit (.replaceSchedule 1 200 "UTC" [layer 8]))] : List (Act Request Bool Outer)) ++
  goes 4 3 ++
  ([.outer (.removeMember 1 7), .outer (.tick 5000000),
    .begin (.rung 1 100 1)] : List (Act Request Bool Outer)) ++ goes 5 3

theorem starts : Start start := by
  refine ⟨?_, rfl, rfl, rfl⟩
  intro org user h
  cases h

end One

theorem only_members_are_paged_cached : ∃ s,
    Run (program One.env).step (fun s e => cleared s e = true) One.start s ∧
    Phase.users 1 5000000 (.cached 0 5000000) [7] [] [] ∈ s.tasks ∧
    s.store.contactsForUser 1 7 ≠ [] ∧ s.store.isMember 1 7 = false ∧
    s.store.departed 1 7 0 = true := by
  obtain ⟨s, hrun, hend⟩ := exists_run_of_steps (show
    (steps (guarded (program One.env).step cleared) One.start One.handedOver).any
      (fun s => s.tasks.contains (.users 1 5000000 (.cached 0 5000000) [7] [] []) &&
        s.store.contactsForUser 1 7 == [50] && !s.store.isMember 1 7) = true by decide +kernel)
  simp only [Bool.and_eq_true, beq_iff_eq, Bool.not_eq_true'] at hend
  obtain ⟨⟨hp, hcontacts⟩, hleft⟩ := hend
  have hp := List.contains_iff_mem.mp hp
  have hcontacts : s.store.contactsForUser 1 7 ≠ [] := by
    rw [hcontacts]
    exact nofun
  have hcleared : Run (program One.env).step (fun s e => cleared s e = true) One.start s :=
    hrun.unguard fun _ _ h => h
  rcases only_members_are_paged One.starts hcleared hp List.mem_cons_self hcontacts with
    hmember | ⟨cachedAt, hitAt, hsource, -, hdeparted⟩
  · rw [hleft] at hmember
    cases hmember
  · obtain ⟨rfl, -⟩ := Source.cached.inj hsource
    exact ⟨s, hcleared, hp, hcontacts, hleft, hdeparted⟩

/-- Somebody is paged who has left, and no cached roster says so. -/
theorem responder_has_left : ¬ ∀ (env : Env) (s₀ s : State), Start s₀ →
    Run (program env).step (fun _ _ => True) s₀ s →
    ∀ org at_ source users rest out, Phase.users org at_ source users rest out ∈ s.tasks →
    ∀ user ∈ users, s.store.contactsForUser org user ≠ [] →
      s.store.isMember org user = true ∨ ∃ cachedAt hitAt, source = .cached cachedAt hitAt ∧
        hitAt < cachedAt + onCallCacheTtl ∧ s.store.departed org user cachedAt = true := by
  intro h
  obtain ⟨s, hrun, hend⟩ := exists_run_of_steps (show
    (steps (program One.env).step One.start One.left).any
      (fun s => s.tasks.contains (.users 1 0 .current [7] [] []) &&
        s.store.contactsForUser 1 7 == [50] && !s.store.isMember 1 7) = true by decide +kernel)
  simp only [Bool.and_eq_true, beq_iff_eq, Bool.not_eq_true'] at hend
  obtain ⟨⟨hp, hcontacts⟩, hleft⟩ := hend
  have hcontacts : s.store.contactsForUser 1 7 ≠ [] := by
    rw [hcontacts]
    exact nofun
  rcases h One.env One.start s One.starts hrun 1 0 .current [7] [] [] (List.contains_iff_mem.mp hp)
    7 List.mem_cons_self hcontacts with hmember | ⟨_, _, hsource, -⟩
  · rw [hleft] at hmember
    cases hmember
  · cases hsource

end Uptimepage.Responders
