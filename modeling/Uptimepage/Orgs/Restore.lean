import Uptimepage.Orgs.Quota

/-!
# An organisation is restored

`restore_org` of `storage/orgs.rs`, statement by statement.
-/

namespace Uptimepage.Orgs

open Sql

structure RestoreOrg where
  org : OrgId
  actor : UserId
deriving DecidableEq

namespace RestoreOrg

inductive Outcome
  | restored
  | notFound
  | notDeleted
  | windowExpired
  | slugTaken
  | ownerLimit
  | quotaExceeded (quota : Quota) (current limit : Int)
deriving DecidableEq

/-- A transaction that has found the account. -/
structure Tx where
  r : RestoreOrg
  now : Time
  account : AccountId
deriving DecidableEq

inductive Phase
  | start (r : RestoreOrg)
  | lockAccount (t : Tx)
  | allowance (t : Tx)
  | lockRow (t : Tx)
  | update (t : Tx) (prev : Organization)
  | counts (t : Tx) (prev : Organization)
  | rearm (t : Tx) (prev : Organization)
  | adopt (t : Tx) (prev : Organization) (armed : List Uuid)
  | commit (t : Tx) (prev : Organization) (armed : List Uuid) (adopted : List String)
  | diagnose (t : Tx)
  | returned (r : RestoreOrg) (outcome : Outcome)
  | failed
deriving DecidableEq

namespace Tx

def lift (t : Tx) : Write := .setOrgDeleted t.r.org none t.now

def entry (t : Tx) : Write := .insertAudit ⟨t.r.org, some t.r.actor, .orgRestored, t.now⟩

def rearms (t : Tx) (armed : List Uuid) : List Write := armed.map fun h => .setArmed h t.now

def adopts (t : Tx) (adopted : List String) : List Write :=
  adopted.map fun w => .setActiveOrg w (some t.r.org)

def rowKeys (t : Tx) (prev : Organization) : List Key :=
  [.orgRow t.r.org, .slugRow (toAsciiLowercase prev.slug), .account t.account]

end Tx

def written : Phase → List Write
  | .counts t _ => [t.lift]
  | .rearm t _ => [t.lift, t.entry]
  | .adopt t _ armed => [t.lift, t.entry] ++ t.rearms armed
  | .commit t _ armed adopted => [t.lift, t.entry] ++ t.rearms armed ++ t.adopts adopted
  | _ => []

def heartbeatRows (armed : List Uuid) : List Key := armed.map .heartbeatRow

def sessionRows (adopted : List String) : List Key := adopted.map .sessionRow

def locks : Phase → List Key
  | .allowance t | .lockRow t | .diagnose t => [.account t.account]
  | .update t prev | .counts t prev | .rearm t prev => t.rowKeys prev
  | .adopt t prev armed => heartbeatRows armed ++ t.rowKeys prev
  | .commit t prev armed adopted => sessionRows adopted ++ heartbeatRows armed ++ t.rowKeys prev
  | _ => []

end RestoreOrg

namespace Db

/-- The tombstone that an `UPDATE` of the restore finds: within the window, and the actor's own. -/
def restorable (db : Db) (r : RestoreOrg) (now grace : Int) : Option Organization :=
  (db.org? r.org).filter fun o =>
    o.deletedAt.any (fun deletedAt => decide (now - grace < deletedAt)) &&
      db.lastDeleter r.org == some r.actor

def heartbeatsOf (db : Db) (org : OrgId) : List Uuid :=
  (db.heartbeats.rows.filter fun h => h.orgId == org).map HeartbeatMonitor.targetId

/-- The sessions of members that are pinned to no organisation. -/
def orphaned (db : Db) (org : OrgId) (now : Time) : List String :=
  (db.sessions.rows.filter fun w =>
    w.activeOrgId.isNone && decide (now < w.expiresAt) &&
      (db.membership? w.userId org).isSome).map WebSession.idHash

def diagnose (db : Db) (r : RestoreOrg) (graceDays : Nat) : RestoreOrg.Outcome :=
  match db.org? r.org with
  | none => .notFound
  | some o =>
    match o.deletedAt with
    | none => .notDeleted
    | some deletedAt =>
      if (graceDays : Int) ≤ (db.now - deletedAt).tdiv (seconds 86400) then .windowExpired
      else .notFound

end Db

/-- A tombstone frees an organisation's slot and its rows from the pool: a restore earns them
again, under the lock of the create paths. -/
def restoreOrg (env : Env) (db : Db) : RestoreOrg.Phase → Action RestoreOrg.Phase
  | .start r =>
    match db.accountForOrg r.org with
    | some account => some (.run [] [] (.lockAccount ⟨r, db.now, account⟩))
    | none => some (.rollback (.returned r .notFound))
  | .lockAccount t => some (.run [.account t.account] [] (.allowance t))
  | .allowance t =>
    if (env.plan t.account).maxOrgs ≤ db.liveOrgCount t.account then
      some (.rollback (.returned t.r .ownerLimit))
    else some (.run [] [] (.lockRow t))
  | .lockRow t =>
    match db.restorable t.r t.now env.grace with
    | some prev =>
      some (.run [.orgRow t.r.org, .slugRow (toAsciiLowercase prev.slug)] [] (.update t prev))
    | none => some (.run [] [] (.diagnose t))
  | .update t prev =>
    if db.slugLive prev.slug (some t.r.org) then some (.rollback (.returned t.r .slugTaken))
    else some (.run [] [t.lift] (.counts t prev))
  | .counts t prev =>
    match (db.pooledCounts t.account).firstBreach (env.plan t.account) with
    | some (quota, current, limit) =>
      some (.rollback (.returned t.r (.quotaExceeded quota current limit)))
    | none => some (.run [] [t.entry] (.rearm t prev))
  | .rearm t prev =>
    let armed := db.heartbeatsOf t.r.org
    some (.run (RestoreOrg.heartbeatRows armed) (t.rearms armed) (.adopt t prev armed))
  | .adopt t prev armed =>
    let adopted := db.orphaned t.r.org t.now
    some (.run (RestoreOrg.sessionRows adopted) (t.adopts adopted) (.commit t prev armed adopted))
  | .commit t _ _ _ => some (.commit (.returned t.r .restored))
  | .diagnose t => some (.rollback (.returned t.r (db.diagnose t.r env.graceDays)))
  | .returned _ _ | .failed => none

namespace RestoreOrg

variable {t : Tx} {prev : Organization} {w : Write} {k : Key}

theorem touches_lift (hw : w ∈ [t.lift, t.entry]) (hk : w.touches k) : k ∈ t.rowKeys prev := by
  rcases List.mem_cons.mp hw with rfl | hw
  · exact List.mem_cons.mpr (.inl hk)
  · rw [List.mem_singleton.mp hw] at hk
    exact hk.elim

theorem touches_rearms {armed : List Uuid} (hw : w ∈ [t.lift, t.entry] ++ t.rearms armed)
    (hk : w.touches k) : k ∈ heartbeatRows armed ++ t.rowKeys prev := by
  rcases List.mem_append.mp hw with hw | hw
  · exact List.mem_append_right _ (touches_lift hw hk)
  · obtain ⟨h, hh, rfl⟩ := List.mem_map.mp hw
    exact List.mem_append_left _ (List.mem_map.mpr ⟨h, hh, hk.symm⟩)

theorem touches_written {p : Phase} (hw : w ∈ written p) (hk : w.touches k) : k ∈ locks p := by
  cases p with
  | counts t prev => exact touches_lift (List.mem_cons.mpr (.inl (List.mem_singleton.mp hw))) hk
  | rearm t prev => exact touches_lift hw hk
  | adopt t prev armed => exact touches_rearms hw hk
  | commit t prev armed adopted =>
    have hlocks : locks (.commit t prev armed adopted) =
        sessionRows adopted ++ (heartbeatRows armed ++ t.rowKeys prev) := List.append_assoc ..
    rw [hlocks]
    rcases List.mem_append.mp hw with hw | hw
    · exact List.mem_append_right _ (touches_rearms hw hk)
    · obtain ⟨v, hv, rfl⟩ := List.mem_map.mp hw
      exact List.mem_append_left _ (List.mem_map.mpr ⟨v, hv, hk.symm⟩)
  | start | lockAccount | allowance | lockRow | update | diagnose | returned | failed => cases hw

end RestoreOrg

theorem restoreOrg_annotated (env : Env) :
    Annotated (restoreOrg env) RestoreOrg.written RestoreOrg.locks Write.touches where
  follows := by
    intro db p m h
    cases p <;> simp only [restoreOrg] at h <;> try split at h
    all_goals cases h
    all_goals simp +contextual [Move.Follows, RestoreOrg.written, RestoreOrg.locks,
      RestoreOrg.Tx.rowKeys]
  covered := fun _ _ hw _ hk => RestoreOrg.touches_written hw hk

end Uptimepage.Orgs
