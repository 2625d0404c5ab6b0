import Uptimepage.Domain.CheckResult
import Uptimepage.Store.IncidentOps

/-!
# The incident writer's store

`public_status/incident_writer/pg.rs`: the statements that read a monitor's open incident,
open one and close it on recovery.  Each is one statement; `close` writes no timeline entry.
The writer inserts every row with a NULL `region` and nobody else writes that column.
-/

namespace Uptimepage

structure NewOpenIncident where
  targetId : Uuid
  startedAt : Time
  statusAtStart : CheckStatus
  checkCount : Nat
  errorSample : Option String
  regionsDown : List String
  regionsUp : List String
deriving DecidableEq

structure OpenIncident where
  id : Uuid
  targetId : Uuid
  startedAt : Time
  /-- `none` is a whole-target incident. -/
  region : Option String
deriving DecidableEq

namespace Db

variable (db : Db)

/-- `open_for_pairs`, for one pair. -/
def openForPairs (org : OrgId) (targetId : Uuid) : List OpenIncident :=
  (db.incidents.filter fun i => i.org == org && i.targetId == some targetId &&
    i.endedAt.isNone && i.origin == .monitor).map fun i => ⟨i.id, targetId, i.startedAt, none⟩

/-- The monitor is a component of an enabled status page the plan still covers. -/
def onLivePage (org : OrgId) (targetId : Uuid) : Bool :=
  db.settings.components.any fun c =>
    c.targetId == targetId && c.org == org && c.pageEnabled && c.pagePlanHoldAt.isNone

/-- The row the writer inserts; the columns it does not name take their defaults. -/
def openedRow (now : Time) (org : OrgId) (new : NewOpenIncident) : IncidentRow where
  id := db.nextId
  targetId := some new.targetId
  title := none
  state := .triggered
  severity := .major
  urgency := .high
  origin := .monitor
  visibility := if db.onLivePage org new.targetId then .onStatusPage else .internal
  pagingEnabled := true
  countsAsDowntime := true
  startedAt := new.startedAt
  endedAt := none
  acknowledgedAt := none
  acknowledgedBy := none
  assignedTo := none
  resolvedBy := none
  escalationPolicyId := none
  escalationLevel := 0
  escalationRound := 0
  nextEscalationAt := none
  checkCount := new.checkCount
  errorSample := new.errorSample
  regionsDown := new.regionsDown
  regionsUp := new.regionsUp
  createdAt := now
  updatedAt := now
  org := org
  durationSecs := none
  renotifyCount := 0

/-- `none` when the monitor already has an open incident. -/
def insertOpen (now : Time) (org : OrgId) (new : NewOpenIncident) :
    Except StoreError (Option Uuid) × Db :=
  if new.statusAtStart = .up then (.error .openFromUp, db)
  else if db.openConflict org db.nextId (some new.targetId) .monitor then (.ok none, db)
  else
    let row := db.openedRow now org new
    (.ok (some row.id), { db with nextId := db.nextId + 1, incidents := db.incidents ++ [row] })

def closedRow (endedAt : Time) (now : Time) (i : IncidentRow) : IncidentRow :=
  { i with
    endedAt := some endedAt
    durationSecs := some (Uptimepage.durationSecs i.startedAt endedAt)
    state := .resolved
    resolvedBy := none
    nextEscalationAt := none
    updatedAt := now }

/-- Recovery.  `true` for the call that closed it. -/
def close (now : Time) (org : OrgId) (id : Uuid) (endedAt : Time) : Bool × Db :=
  match db.incident org id with
  | none => (false, db)
  | some cur =>
    if cur.endedAt.isSome then (false, db)
    else
      let db₁ := db.updateIncident org id fun _ => closedRow endedAt now cur
      (true, if cur.visibility == .onStatusPage then
          db₁.insertUpdate now org id .resolved autoResolvedMessage "system"
        else db₁)

end Db

structure MemIncident where
  id : Uuid
  targetId : Uuid
  startedAt : Time
  endedAt : Option Time
  statusAtStart : CheckStatus
  checkCount : Nat
  errorSample : Option String
  regionsDown : List String
  regionsUp : List String
deriving DecidableEq

structure InMemoryIncidentStore where
  nextId : Uuid
  rows : List MemIncident
  inserts : Nat
  closes : Nat
deriving DecidableEq

namespace InMemoryIncidentStore

def empty : InMemoryIncidentStore := ⟨0, [], 0, 0⟩

variable (m : InMemoryIncidentStore)

def openForPairs (targetId : Uuid) : List OpenIncident :=
  (m.rows.filter fun i => i.targetId == targetId && i.endedAt.isNone).map fun i =>
    ⟨i.id, i.targetId, i.startedAt, none⟩

def insertOpen (new : NewOpenIncident) : Option Uuid × InMemoryIncidentStore :=
  if m.rows.any fun i => i.targetId == new.targetId && i.endedAt.isNone then (none, m)
  else
    let row : MemIncident := {
      id := m.nextId
      targetId := new.targetId
      startedAt := new.startedAt
      endedAt := none
      statusAtStart := new.statusAtStart
      checkCount := new.checkCount
      errorSample := new.errorSample
      regionsDown := new.regionsDown
      regionsUp := new.regionsUp }
    (some row.id,
      { m with nextId := m.nextId + 1, rows := m.rows ++ [row], inserts := m.inserts + 1 })

def close (id : Uuid) (endedAt : Time) : Bool × InMemoryIncidentStore :=
  let hit (i : MemIncident) : Bool := i.id == id && i.endedAt.isNone
  if m.rows.any hit then
    (true, { m with
      rows := Table.update hit (fun i => { i with endedAt := some endedAt }) m.rows
      closes := m.closes + 1 })
  else (false, m)

end InMemoryIncidentStore

end Uptimepage
