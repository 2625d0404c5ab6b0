import Uptimepage.Store.IncidentOps

/-!
# The in-memory incident-ops store

`storage/incident_ops/memory.rs`, the single-tenant double the tests run on: the
lifecycle and escalation operations, which match on the id alone and keep the same state
machine as the Postgres store.
-/

namespace Uptimepage

structure MemStore where
  nextId : Uuid
  incidents : List OpsIncident
  events : List IncidentEvent

namespace MemStore

def empty : MemStore := ⟨0, [], []⟩

/-- Rewrites the first row `p` selects. -/
def rewriteFirst (p : OpsIncident → Bool) (f : OpsIncident → OpsIncident) :
    List OpsIncident → List OpsIncident
  | [] => []
  | i :: rest => if p i then f i :: rest else i :: rewriteFirst p f rest

variable (m : MemStore)

/-- Episode number off the timeline. -/
def reopenCount (now : Time) (id : Uuid) : Nat :=
  m.events.countP fun e => e.incidentId == id && e.kind == .reopened && decide (e.occurredAt ≤ now)

def pushEvent (now : Time) (id : Uuid) (kind : IncidentEventKind) (actor : Actor)
    (message : Option String) : MemStore :=
  { m with
    nextId := m.nextId + 1
    events := m.events ++ [⟨m.nextId, id, now, kind, actor.actorType, actor.userId, message⟩] }

def get (id : Uuid) : Option OpsIncident := m.incidents.find? fun i => i.id == id

def apply (now : Time) (id : Uuid) (transition : IncidentTransition) (kind : IncidentEventKind)
    (actor : Actor) (note : Option String) (expectGeneration : Option Nat)
    (mutate : OpsIncident → OpsIncident) : LifecycleOutcome × MemStore :=
  match m.get id with
  | none => (.notFound, m)
  | some cur =>
    if expectGeneration.any fun g => m.reopenCount now id != g then (.stale, m)
    else
      match nextState cur.state transition with
      | .error err => (.illegalTransition err, m)
      | .ok next =>
        let moved (i : OpsIncident) : OpsIncident :=
          if i.state = next then i else { mutate i with updatedAt := now }
        let rows := rewriteFirst (fun i => i.id == id) moved m.incidents
        (.updated (moved cur), { m with incidents := rows }.pushEvent now id kind actor note)

def declare (now : Time) (new : NewManualIncident) (actor : Actor) : OpsIncident × MemStore :=
  let inc : OpsIncident := {
    id := m.nextId
    targetId := new.targetId
    title := new.title
    state := .triggered
    severity := new.severity
    urgency := new.urgency
    origin := .manual
    visibility := .internal
    pagingEnabled := new.notify
    countsAsDowntime := new.countsAsDowntime
    startedAt := now
    endedAt := none
    acknowledgedAt := none
    acknowledgedBy := none
    assignedTo := none
    resolvedBy := none
    escalationPolicyId := none
    escalationLevel := 0
    escalationRound := 0
    nextEscalationAt := none
    checkCount := 0
    errorSample := none
    regionsDown := []
    regionsUp := []
    createdAt := now
    updatedAt := now }
  (inc, ({ m with nextId := m.nextId + 1, incidents := m.incidents ++ [inc] } : MemStore).pushEvent
    now inc.id .triggered actor none)

def acknowledge (now : Time) (id : Uuid) (actor : Actor) (note : Option String)
    (expectGeneration : Option Nat) : LifecycleOutcome × MemStore :=
  m.apply now id .acknowledge .acknowledged actor note expectGeneration fun i => { i with
    state := .acknowledged
    acknowledgedAt := i.acknowledgedAt.or (some now)
    acknowledgedBy := i.acknowledgedBy.or actor.userId
    nextEscalationAt := none }

def resolve (now : Time) (id : Uuid) (actor : Actor) (note : Option String) :
    LifecycleOutcome × MemStore :=
  m.apply now id .resolve .resolved actor note none fun i => { i with
    state := .resolved
    endedAt := i.endedAt.or (some now)
    resolvedBy := actor.userId
    nextEscalationAt := none }

def autoResolve (now : Time) (id : Uuid) : LifecycleOutcome × MemStore :=
  m.apply now id .autoResolve .resolved .system none none fun i => { i with
    state := .resolved
    endedAt := i.endedAt.or (some now)
    resolvedBy := none
    nextEscalationAt := none }

def reopen (now : Time) (id : Uuid) (actor : Actor) (note : Option String) :
    LifecycleOutcome × MemStore :=
  m.apply now id .reopen .reopened actor note none fun i => { i with
    state := .triggered
    endedAt := none
    resolvedBy := none
    acknowledgedAt := none
    acknowledgedBy := none
    escalationLevel := 0
    escalationRound := 0 }

def triggeredWithId (id : Uuid) (i : OpsIncident) : Bool := i.id == id && i.state == .triggered

def beginEscalation (id policyId : Uuid) (level : Int) (nextAt : Option Time) :
    Bool × MemStore :=
  (m.incidents.any (triggeredWithId id),
    { m with incidents := rewriteFirst (triggeredWithId id) (fun i => { i with
        escalationPolicyId := some policyId
        escalationLevel := level
        escalationRound := 0
        nextEscalationAt := nextAt }) m.incidents })

def recordEscalation (id : Uuid) (level round : Int) (nextAt : Option Time) : Bool × MemStore :=
  (m.incidents.any (triggeredWithId id),
    { m with incidents := rewriteFirst (triggeredWithId id) (fun i => { i with
        escalationLevel := level
        escalationRound := round
        nextEscalationAt := nextAt }) m.incidents })

def escalationDue (now : Time) (i : OpsIncident) : Bool :=
  i.state == .triggered && i.nextEscalationAt.any fun t => decide (t ≤ now)

/-- Claims due rows in order until `room` is used up, pushing their timer to `leaseTo`.
Every row of this single-tenant double belongs to the nil organisation. -/
def claim (now leaseTo : Time) : Nat → List OpsIncident → List DueIncident × List OpsIncident
  | _, [] => ([], [])
  | room, i :: rest =>
    if escalationDue now i then
      match room with
      | 0 => ([], i :: rest)
      | room + 1 =>
        let r := claim now leaseTo room rest
        (⟨i.id, 0, i.targetId, i.escalationPolicyId, i.escalationLevel, i.escalationRound⟩ :: r.1,
          { i with nextEscalationAt := some leaseTo } :: r.2)
    else
      let r := claim now leaseTo room rest
      (r.1, i :: r.2)

def dueForEscalation (now : Time) (limit : Nat) (leaseSecs : Int) :
    List DueIncident × MemStore :=
  let r := claim now (now + seconds (max leaseSecs 1)) limit m.incidents
  (r.1, { m with incidents := r.2 })

end MemStore

/-- The lifecycle and escalation calls of the double. -/
inductive MemOp
  | declare (new : NewManualIncident) (actor : Actor)
  | acknowledge (id : Uuid) (actor : Actor) (note : Option String) (expectGeneration : Option Nat)
  | resolve (id : Uuid) (actor : Actor) (note : Option String)
  | autoResolve (id : Uuid)
  | reopen (id : Uuid) (actor : Actor) (note : Option String)
  | beginEscalation (id policyId : Uuid) (level : Int) (nextAt : Option Time)
  | recordEscalation (id : Uuid) (level round : Int) (nextAt : Option Time)
  | dueForEscalation (now : Time) (limit : Nat) (leaseSecs : Int)

def MemStore.exec (now : Time) : MemOp → MemStore → MemStore
  | .declare new actor, m => (m.declare now new actor).2
  | .acknowledge id actor note g, m => (m.acknowledge now id actor note g).2
  | .resolve id actor note, m => (m.resolve now id actor note).2
  | .autoResolve id, m => (m.autoResolve now id).2
  | .reopen id actor note, m => (m.reopen now id actor note).2
  | .beginEscalation id policyId level nextAt, m => (m.beginEscalation id policyId level nextAt).2
  | .recordEscalation id level round nextAt, m => (m.recordEscalation id level round nextAt).2
  | .dueForEscalation at_ limit leaseSecs, m => (m.dueForEscalation at_ limit leaseSecs).2

def MemStore.run (m : MemStore) (ops : List (Time × MemOp)) : MemStore :=
  ops.foldl (fun m o => m.exec o.1 o.2) m

end Uptimepage
