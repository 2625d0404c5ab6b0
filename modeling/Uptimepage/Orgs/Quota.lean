import Mathlib.Data.List.Dedup
import Uptimepage.Orgs.Db

/-!
# Pooled caps

The counts of `quotas::service::count_sql`, each over the live organisations of an account,
and the caps of its plan.
-/

namespace Uptimepage.Orgs

structure Plan where
  maxOrgs : Int
  maxTargets : Int
  maxFlowChecks : Int
  maxStatusPages : Int
  maxPublicComponents : Int
  maxNotificationChannels : Int
  maxEscalationPolicies : Int
  maxOnCallSchedules : Int
  maxMaintenanceWindows : Int
  maxMembers : Int

/-- What the requests find configured: the effective plan of each account and the grace. -/
structure Env where
  plan : AccountId → Plan
  graceDays : Nat

/-- `grace_days` as an interval. -/
def Env.grace (env : Env) : Int := seconds (86400 * env.graceDays)

/-- The `usage_keys` of the pooled caps. -/
inductive Quota
  | targets
  | flowChecks
  | statusPages
  | publicComponents
  | notificationChannels
  | escalationPolicies
  | onCallSchedules
  | maintenanceWindows
  | members
deriving DecidableEq

namespace Db

def liveOrgs (db : Db) (account : AccountId) : List OrgId :=
  (db.orgs.rows.filter fun r => r.accountId == account && r.live).map Organization.id

def liveOrgCount (db : Db) (account : AccountId) : Nat := (db.liveOrgs account).length

def pooledTargets (db : Db) (account : AccountId) : List Monitor :=
  db.targets.rows.filter fun t => (db.liveOrgs account).contains t.orgId

def countTargets (db : Db) (account : AccountId) : Nat := (db.pooledTargets account).length

def countFlow (db : Db) (account : AccountId) : Nat :=
  ((db.pooledTargets account).filter Monitor.flow).length

/-- The people in the pool: seats, not memberships. -/
def pooledMembers (db : Db) (account : AccountId) : List UserId :=
  ((db.memberships.rows.filter fun m => (db.liveOrgs account).contains m.orgId).map
    Membership.userId).dedup

def countMembers (db : Db) (account : AccountId) : Nat := (db.pooledMembers account).length

def pooledResources (db : Db) (account : AccountId) (kind : ResourceKind) : List Resource :=
  db.resources.filter fun r => r.kind == kind && (db.liveOrgs account).contains r.orgId

def countResources (db : Db) (account : AccountId) (kind : ResourceKind) : Nat :=
  (db.pooledResources account kind).length

/-- A monitor counts once, no matter how many pages it sits on. -/
def countPublicComponents (db : Db) (account : AccountId) : Nat :=
  ((db.pooledResources account .publicComponent).map Resource.subject).dedup.length

end Db

structure PooledCounts where
  targets : Nat
  flow : Nat
  statusPages : Nat
  publicComponents : Nat
  notificationChannels : Nat
  escalationPolicies : Nat
  onCallSchedules : Nat
  maintenanceWindows : Nat
  members : Nat
deriving DecidableEq

def Db.pooledCounts (db : Db) (account : AccountId) : PooledCounts where
  targets := db.countTargets account
  flow := db.countFlow account
  statusPages := db.countResources account .statusPage
  publicComponents := db.countPublicComponents account
  notificationChannels := db.countResources account .notificationChannel
  escalationPolicies := db.countResources account .escalationPolicy
  onCallSchedules := db.countResources account .onCallSchedule
  maintenanceWindows := db.countResources account .maintenanceWindow
  members := db.countMembers account

def PooledCounts.firstBreach (counts : PooledCounts) (plan : Plan) : Option (Quota × Int × Int) :=
  [ (.targets, (counts.targets : Int), plan.maxTargets),
    (.flowChecks, counts.flow, plan.maxFlowChecks),
    (.statusPages, counts.statusPages, plan.maxStatusPages),
    (.publicComponents, counts.publicComponents, plan.maxPublicComponents),
    (.notificationChannels, counts.notificationChannels, plan.maxNotificationChannels),
    (.escalationPolicies, counts.escalationPolicies, plan.maxEscalationPolicies),
    (.onCallSchedules, counts.onCallSchedules, plan.maxOnCallSchedules),
    (.maintenanceWindows, counts.maintenanceWindows, plan.maxMaintenanceWindows),
    (.members, counts.members, plan.maxMembers) ].find?
    fun (_, current, limit) => decide (limit < current)

/-- `max_members` as the accept path of an invitation passes it on: a `u32`. -/
def Plan.memberLimit (plan : Plan) : Int := if plan.maxMembers < 0 then 4294967295 else plan.maxMembers

end Uptimepage.Orgs
