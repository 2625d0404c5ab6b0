import Uptimepage.Domain.Incident
import Uptimepage.Domain.Text
import Uptimepage.Sql.ReadCommitted
import Uptimepage.Sql.Rows

/-!
# Organisations, their members and their accounts

The tables that membership, deletion and restore read and write, with the ClickHouse rows of
an organisation and the queue of those to be purged.  `Write` is one row written: a statement
that writes several rows is several of them, and a foreign key's cascade is part of the delete.
-/

namespace Uptimepage.Orgs

open Sql

abbrev AccountId := Uuid

inductive Role
  | owner
  | member
deriving DecidableEq

structure User where
  id : UserId
  deletedAt : Option Time
deriving DecidableEq

structure Account where
  id : AccountId
  ownerUserId : Option UserId
deriving DecidableEq

structure Organization where
  id : OrgId
  slug : String
  name : String
  accountId : AccountId
  deletedAt : Option Time
  updatedAt : Time
deriving DecidableEq

namespace Organization

def live (r : Organization) : Bool := r.deletedAt.isNone

def stamp (deletedAt : Option Time) (updatedAt : Time) (r : Organization) : Organization :=
  { r with deletedAt := deletedAt, updatedAt := updatedAt }

@[simp] theorem stamp_id (deletedAt : Option Time) (updatedAt : Time) (r : Organization) :
    (r.stamp deletedAt updatedAt).id = r.id := rfl

def withFields (slug name : String) (updatedAt : Time) (r : Organization) : Organization :=
  { r with slug := slug, name := name, updatedAt := updatedAt }

@[simp] theorem withFields_id (slug name : String) (updatedAt : Time) (r : Organization) :
    (r.withFields slug name updatedAt).id = r.id := rfl

/-- The column is `CITEXT`: two spellings of a slug are one slug. -/
def hasSlug (slug : String) (r : Organization) : Bool :=
  toAsciiLowercase r.slug == toAsciiLowercase slug

end Organization

structure Membership where
  userId : UserId
  orgId : OrgId
  role : Role
  createdAt : Time
deriving DecidableEq

namespace Membership

def key (m : Membership) : UserId × OrgId := (m.userId, m.orgId)

def withRole (role : Role) (m : Membership) : Membership := { m with role := role }

/-- `ORDER BY created_at ASC, org_id ASC`. -/
def before (m m' : Membership) : Bool :=
  decide (m.createdAt < m'.createdAt) || (m.createdAt == m'.createdAt && decide (m.orgId ≤ m'.orgId))

@[simp] theorem withRole_key (role : Role) (m : Membership) : (m.withRole role).key = m.key := rfl

end Membership

/-- A row of `sessions`. -/
structure WebSession where
  idHash : String
  userId : UserId
  activeOrgId : Option OrgId
  expiresAt : Time
deriving DecidableEq

/-- A row of `targets`, as far as the pool counts it. -/
structure Monitor where
  id : Uuid
  orgId : OrgId
  flow : Bool
deriving DecidableEq

structure HeartbeatMonitor where
  targetId : Uuid
  orgId : OrgId
  armedAt : Time
  lastPingAt : Option Time
deriving DecidableEq

/-- The `success_at` of `ping_state_of`: what an evaluation measures the silence from. -/
def HeartbeatMonitor.successAt (h : HeartbeatMonitor) : Time :=
  match h.lastPingAt with
  | some ping => max ping h.armedAt
  | none => h.armedAt

/-- What else an account's pool counts. -/
inductive ResourceKind
  | statusPage
  | publicComponent
  | notificationChannel
  | escalationPolicy
  | onCallSchedule
  | maintenanceWindow
deriving DecidableEq

/-- One of them that is not deleted.  A component's `subject` is its monitor. -/
structure Resource where
  kind : ResourceKind
  subject : Uuid
  orgId : OrgId
deriving DecidableEq

inductive AuditAction
  | orgCreated
  | orgDeleted
  | orgRestored
  | orgSlugChanged
  | orgRenamed
  | memberAdded
  | memberRemoved
  | memberRoleChanged
  | userDeletionRequested
  | userDeletionRecovered
deriving DecidableEq

/-- A row of `org_audit_log`. -/
structure AuditEntry where
  orgId : OrgId
  actorId : Option UserId
  action : AuditAction
  occurredAt : Time
deriving DecidableEq

/-- A row of `clickhouse_purge_queue`. -/
structure QueueRow where
  orgId : OrgId
  completed : Bool
deriving DecidableEq

/-- A row of one of the `CH_TENANT_TABLES`. -/
structure Measurement where
  orgId : OrgId
  recordedAt : Time
deriving DecidableEq

structure Db where
  now : Time
  users : Rows User.id
  accounts : Rows Account.id
  orgs : Rows Organization.id
  memberships : Rows Membership.key
  sessions : Rows WebSession.idHash
  targets : Rows Monitor.id
  heartbeats : Rows HeartbeatMonitor.targetId
  resources : List Resource
  audit : List AuditEntry
  purgeQueue : Rows QueueRow.orgId
  measurements : List Measurement

/-! ## What is read -/

namespace Db

def org? (db : Db) (org : OrgId) : Option Organization := db.orgs.get? org

def membership? (db : Db) (user : UserId) (org : OrgId) : Option Membership :=
  db.memberships.get? (user, org)

def isLive (db : Db) (org : OrgId) : Bool := (db.org? org).any Organization.live

def isOwner (db : Db) (user : UserId) (org : OrgId) : Bool :=
  (db.membership? user org).any fun m => m.role == .owner

def accountForOrg (db : Db) (org : OrgId) : Option AccountId :=
  (db.org? org).map Organization.accountId

def accountForUser (db : Db) (user : UserId) : Option AccountId :=
  (db.accounts.rows.find? fun a => a.ownerUserId == some user).map Account.id

/-- A live organisation has the slug, other than the one in `but`: `idx_organizations_active`. -/
def slugLive (db : Db) (slug : String) (but : Option OrgId) : Bool :=
  db.orgs.rows.any fun r => r.hasSlug slug && r.live && some r.id != but

/-- Any organisation has it, tombstones included. -/
def slugHeld (db : Db) (slug : String) (but : Option OrgId) : Bool :=
  db.orgs.rows.any fun r => r.hasSlug slug && some r.id != but

def oldestMembershipForUser (db : Db) (user : UserId) : Option OrgId :=
  let active := db.memberships.rows.filter fun m => m.userId == user && db.isLive m.orgId
  let oldest := active.foldl (fun best m =>
    match best with
    | some b => if b.before m then some b else some m
    | none => some m) none
  oldest.map Membership.orgId

/-- The actor of the latest `org.deleted` entry. -/
def lastDeleter (db : Db) (org : OrgId) : Option UserId :=
  let deletions := db.audit.filter fun e => e.orgId == org && e.action == .orgDeleted
  let latest := deletions.foldl (fun best e =>
    match best with
    | some b => if b.occurredAt ≤ e.occurredAt then some e else some b
    | none => some e) none
  latest.bind AuditEntry.actorId

end Db

/-! ## What is written -/

inductive Write
  | insertAccount (row : Account)
  | insertOrg (row : Organization)
  | insertMembership (row : Membership)
  | insertTarget (row : Monitor)
  | insertAudit (row : AuditEntry)
  | setUserDeleted (user : UserId) (deletedAt : Option Time)
  | setOrgDeleted (org : OrgId) (deletedAt : Option Time) (updatedAt : Time)
  | setOrgFields (org : OrgId) (slug name : String) (updatedAt : Time)
  | setRole (user : UserId) (org : OrgId) (role : Role)
  | setActiveOrg (idHash : String) (org : Option OrgId)
  | setArmed (target : Uuid) (armedAt : Time)
  | deleteSession (idHash : String)
  | deleteMembership (user : UserId) (org : OrgId)
  | deleteOrg (org : OrgId)
  | deleteUser (user : UserId)
  | deleteAccount (account : AccountId)
  | enqueue (org : OrgId)
  /-- The ClickHouse rows of an organisation are gone, and its queue row is settled. -/
  | erase (org : OrgId)
deriving DecidableEq

namespace Db

def apply (db : Db) : Write → Db
  | .insertAccount row => { db with accounts := db.accounts.insert row }
  | .insertOrg row => { db with orgs := db.orgs.insert row }
  | .insertMembership row => { db with memberships := db.memberships.insert row }
  | .insertTarget row => { db with targets := db.targets.insert row }
  | .insertAudit row => { db with audit := db.audit ++ [row] }
  | .setUserDeleted user deletedAt =>
    { db with
      users := db.users.update (fun r => r.id == user) (fun r => { r with deletedAt := deletedAt })
        fun _ => rfl }
  | .setOrgDeleted org deletedAt updatedAt =>
    { db with
      orgs := db.orgs.update (fun r => r.id == org) (Organization.stamp deletedAt updatedAt)
        (Organization.stamp_id deletedAt updatedAt) }
  | .setOrgFields org slug name updatedAt =>
    { db with
      orgs := db.orgs.update (fun r => r.id == org) (Organization.withFields slug name updatedAt)
        (Organization.withFields_id slug name updatedAt) }
  | .setActiveOrg idHash org =>
    { db with
      sessions := db.sessions.update (fun w => w.idHash == idHash)
        (fun w => { w with activeOrgId := org }) fun _ => rfl }
  | .setRole user org role =>
    { db with
      memberships := db.memberships.update (fun m => m.key == (user, org))
        (Membership.withRole role) (Membership.withRole_key role) }
  | .setArmed target armedAt =>
    { db with
      heartbeats := db.heartbeats.update (fun h => h.targetId == target)
        (fun h => { h with armedAt := armedAt }) fun _ => rfl }
  | .deleteSession idHash => { db with sessions := db.sessions.delete fun w => w.idHash == idHash }
  | .deleteMembership user org =>
    { db with memberships := db.memberships.delete fun m => m.key == (user, org) }
  | .deleteOrg org =>
    { db with
      orgs := db.orgs.delete fun r => r.id == org
      memberships := db.memberships.delete fun m => m.orgId == org
      sessions := db.sessions.update (fun w => w.activeOrgId == some org)
        (fun w => { w with activeOrgId := none }) fun _ => rfl
      targets := db.targets.delete fun t => t.orgId == org
      heartbeats := db.heartbeats.delete fun h => h.orgId == org
      resources := db.resources.filter fun r => r.orgId != org
      audit := db.audit.filter fun e => e.orgId != org }
  | .deleteUser user =>
    { db with
      users := db.users.delete fun r => r.id == user
      memberships := db.memberships.delete fun m => m.userId == user
      sessions := db.sessions.delete fun w => w.userId == user
      accounts := db.accounts.update (fun a => a.ownerUserId == some user)
        (fun a => { a with ownerUserId := none }) fun _ => rfl
      audit := db.audit.map fun e =>
        if e.actorId == some user then { e with actorId := none } else e }
  | .deleteAccount account => { db with accounts := db.accounts.delete fun a => a.id == account }
  | .enqueue org => { db with purgeQueue := db.purgeQueue.insert ⟨org, false⟩ }
  | .erase org =>
    { db with
      measurements := db.measurements.filter fun m => m.orgId != org
      purgeQueue := db.purgeQueue.update (fun q => q.orgId == org)
        (fun q => { q with completed := true }) fun _ => rfl }

end Db

/-! ## What is locked -/

inductive Key
  /-- `account_lock_key`. -/
  | account (account : AccountId)
  /-- `user_lock_key`. -/
  | user (user : UserId)
  /-- `user_delete_lock_key`. -/
  | userDelete (user : UserId)
  /-- The account a user owns. -/
  | accountRow (owner : UserId)
  | userRow (user : UserId)
  | orgRow (org : OrgId)
  /-- The entry of a slug in `idx_organizations_active`. -/
  | slugRow (slug : String)
  | membershipRow (user : UserId) (org : OrgId)
  | sessionRow (idHash : String)
  | targetRow (target : Uuid)
  | heartbeatRow (target : Uuid)
  | queueRow (org : OrgId)
deriving DecidableEq

/-- The key is that of a row the write changes, or of a slug that it gives a row. -/
def Write.touches : Write → Key → Prop
  | .insertAccount row, k => ∃ user, row.ownerUserId = some user ∧ k = .accountRow user
  | .insertOrg row, k => k = .orgRow row.id ∨ k = .slugRow (toAsciiLowercase row.slug)
  | .insertMembership row, k => k = .membershipRow row.userId row.orgId
  | .insertTarget row, k => k = .targetRow row.id
  | .insertAudit _, _ => False
  | .setUserDeleted user _, k => k = .userRow user
  | .setOrgDeleted org _ _, k => k = .orgRow org
  | .setOrgFields org slug _ _, k => k = .orgRow org ∨ k = .slugRow (toAsciiLowercase slug)
  | .setActiveOrg idHash _, k => k = .sessionRow idHash
  | .setRole user org _, k => k = .membershipRow user org
  | .setArmed target _, k => k = .heartbeatRow target
  | .deleteSession idHash, k => k = .sessionRow idHash
  | .deleteMembership user org, k => k = .membershipRow user org
  | .deleteOrg org, k => k = .orgRow org ∨ ∃ user, k = .membershipRow user org
  | .deleteUser user, k => k = .userRow user ∨ ∃ org, k = .membershipRow user org
  | .deleteAccount _, _ => False
  | .enqueue org, k => k = .queueRow org
  | .erase org, k => k = .queueRow org

def Write.onOrgs : Write → Bool
  | .insertOrg _ | .setOrgDeleted _ _ _ | .setOrgFields _ _ _ _ | .deleteOrg _ => true
  | _ => false

/-- What a request does next. -/
abbrev Action (Phase : Type) : Type := Option (Move Key Write Phase)

/-! ## Rows that a write does not touch -/

namespace Db

variable {db : Db} {w : Write}

theorem org?_apply {org : OrgId} (h : ¬w.touches (.orgRow org)) :
    (db.apply w).org? org = db.org? org := by
  cases w with
  | insertOrg row => exact Rows.get?_insert_ne fun hid => h (.inl (congrArg Key.orgRow hid.symm))
  | setOrgDeleted org' deletedAt updatedAt =>
    refine Rows.get?_update_of (Organization.stamp_id deletedAt updatedAt) ?_
    intro r hr
    rw [beq_eq_false_iff_ne]
    intro hid
    exact h (congrArg Key.orgRow (hr.symm.trans hid))
  | setOrgFields org' slug name updatedAt =>
    refine Rows.get?_update_of (Organization.withFields_id slug name updatedAt) ?_
    intro r hr
    rw [beq_eq_false_iff_ne]
    intro hid
    exact h (.inl (congrArg Key.orgRow (hr.symm.trans hid)))
  | deleteOrg org' =>
    refine Rows.get?_delete_of ?_
    intro r _ hr
    rw [beq_eq_false_iff_ne]
    intro hid
    exact h (.inl (congrArg Key.orgRow (hr.symm.trans hid)))
  | _ => rfl

theorem org?_setOrgDeleted (org org' : OrgId) (deletedAt : Option Time) (updatedAt : Time) :
    (db.apply (.setOrgDeleted org' deletedAt updatedAt)).org? org =
      (db.org? org).map fun r => if r.id == org' then r.stamp deletedAt updatedAt else r :=
  Rows.get?_update (Organization.stamp_id deletedAt updatedAt)

theorem orgs_apply (h : w.onOrgs = false) : (db.apply w).orgs = db.orgs := by
  cases w with
  | insertOrg | setOrgDeleted | setOrgFields | deleteOrg => cases h
  | _ => rfl

end Db

end Uptimepage.Orgs
