import Uptimepage.Domain.Incident
import Uptimepage.Sql.ReadCommitted
import Uptimepage.Sql.Rows

/-!
# The statements of the escalation policy store

`storage/escalation_policies.rs`: `create`, `delete`, `set_target_policy` and
`set_org_default`, statement by statement, with the check that the handlers of the two setters
make first (`validate_binding`).  A policy is retired by its `deleted_at`, so the foreign keys
that point at it are not enforced; `delete` clears them itself, and each of its two clearing
statements looks for its rows once, as of the moment it starts.
-/

namespace Uptimepage.Policies

open Sql

structure Policy where
  id : Uuid
  orgId : OrgId
  name : String
  deletedAt : Option Time
deriving DecidableEq

structure Monitor where
  id : Uuid
  orgId : OrgId
  escalationPolicyId : Option Uuid
deriving DecidableEq

structure Organization where
  id : OrgId
  accountId : Uuid
  deletedAt : Option Time
  defaultEscalationPolicyId : Option Uuid
deriving DecidableEq

structure Db where
  now : Time
  policies : Rows Policy.id
  targets : Rows Monitor.id
  organizations : Rows Organization.id

namespace Db

variable (db : Db)

def livePolicy (org : OrgId) (id : Uuid) : Bool :=
  (db.policies.get? id).any fun p => p.orgId == org && p.deletedAt.isNone

def accountForOrg (org : OrgId) : Option Uuid := (db.organizations.get? org).map (·.accountId)

/-- The live policies of the account's live organisations. -/
def policyCount (account : Uuid) : Nat :=
  db.policies.rows.countP fun p => p.deletedAt.isNone &&
    (db.organizations.get? p.orgId).any fun o => o.accountId == account && o.deletedAt.isNone

/-- `idx_escalation_policies_name`. -/
def nameTaken (org : OrgId) (name : String) : Bool :=
  db.policies.rows.any fun p => p.orgId == org && p.name == name && p.deletedAt.isNone

/-- The target is the organisation's, and bound to the policy. -/
def bound (org : OrgId) (id : Uuid) (target : Uuid) : Bool :=
  (db.targets.get? target).any fun t => t.orgId == org && t.escalationPolicyId == some id

def boundTargets (org : OrgId) (id : Uuid) : List Uuid :=
  (db.targets.rows.filter fun t => t.orgId == org && t.escalationPolicyId == some id).map
    Monitor.id

def isDefault (org : OrgId) (id : Uuid) : Bool :=
  (db.organizations.get? org).any fun o => o.defaultEscalationPolicyId == some id

/-- `p.id` of the join, where `COALESCE` picks the policy and a retired one is not joined. -/
def resolveForTarget (org : OrgId) (target : Uuid) : Option Uuid :=
  ((db.targets.get? target).filter fun t => t.orgId == org).bind fun t =>
    (db.organizations.get? t.orgId).bind fun o =>
      (t.escalationPolicyId.or o.defaultEscalationPolicyId).bind fun id =>
        ((db.policies.get? id).filter fun p => p.deletedAt.isNone).map Policy.id

end Db

/-! ## Writes -/

inductive Write
  | insertPolicy (p : Policy)
  | retire (id : Uuid) (at_ : Time)
  | bindTarget (target : Uuid) (policyId : Option Uuid)
  | bindDefault (org : OrgId) (policyId : Option Uuid)

def Db.apply (db : Db) : Write → Db
  | .insertPolicy p => { db with policies := db.policies.insert p }
  | .retire id at_ => { db with
      policies := db.policies.update (fun p => p.id == id)
        (fun p => { p with deletedAt := some at_ }) fun _ => rfl }
  | .bindTarget target policyId => { db with
      targets := db.targets.update (fun t => t.id == target)
        (fun t => { t with escalationPolicyId := policyId }) fun _ => rfl }
  | .bindDefault org policyId => { db with
      organizations := db.organizations.update (fun o => o.id == org)
        (fun o => { o with defaultEscalationPolicyId := policyId }) fun _ => rfl }

inductive Key
  | account (id : Uuid)
  | policyRow (id : Uuid)
  | policyName (org : OrgId) (name : String)
  | targetRow (id : Uuid)
  | orgRow (id : OrgId)
deriving DecidableEq

/-! ## Requests -/

/-- `id` is the one `gen_random_uuid` draws. -/
structure NewPolicy where
  org : OrgId
  id : Uuid
  name : String
  maxPolicies : Nat

/-- Where a policy can be bound. -/
inductive Slot
  | target (id : Uuid)
  | orgDefault

structure Binding where
  org : OrgId
  slot : Slot
  policyId : Option Uuid

def Binding.write (b : Binding) : Write :=
  match b.slot with
  | .target id => .bindTarget id b.policyId
  | .orgDefault => .bindDefault b.org b.policyId

structure Delete where
  org : OrgId
  id : Uuid

inductive Request
  | create (n : NewPolicy)
  | delete (d : Delete)
  /-- `set_target_policy` or `set_org_default`. -/
  | bind (b : Binding)

inductive Outcome
  | created
  | quotaExceeded
  | nameTaken
  | deleted (found : Bool)
  | bound (found : Bool)
  | notFound
deriving DecidableEq

/-- `cleared` are the targets that `delete` has cleared, `rest` those it has found and not got
to; `found` says whether it has found the policy to be the default. -/
inductive Phase
  | create (n : NewPolicy)
  | createLock (n : NewPolicy) (account : Uuid)
  | createInsert (n : NewPolicy) (account : Uuid)
  | createCommit (n : NewPolicy)
  | delete (d : Delete)
  | findTargets (d : Delete) (at_ : Time)
  | clearTargets (d : Delete) (at_ : Time) (cleared rest : List Uuid)
  | findDefault (d : Delete) (at_ : Time) (cleared : List Uuid)
  | clearDefault (d : Delete) (at_ : Time) (cleared : List Uuid) (found : Bool)
  | deleteCommit (d : Delete) (at_ : Time) (cleared : List Uuid) (found : Bool)
  | validate (b : Binding)
  | check (b : Binding)
  | write (b : Binding)
  | bindCommit (b : Binding)
  | returned (outcome : Outcome)
  | failed

def Request.first : Request → Phase
  | .create n => .create n
  | .delete d => .delete d
  | .bind b => .validate b

abbrev Action := Option (Move Key Write Phase)

/-- One statement, or the end, of each request. -/
def next (db : Db) : Phase → Action
  -- `create`
  | .create n =>
    match db.accountForOrg n.org with
    | some account => some (.run [] [] (.createLock n account))
    | none => some (.rollback .failed)
  | .createLock n account => some (.run [.account account] [] (.createInsert n account))
  | .createInsert n account =>
    if n.maxPolicies ≤ db.policyCount account then some (.rollback (.returned .quotaExceeded))
    else if db.nameTaken n.org n.name then some (.rollback (.returned .nameTaken))
    else if (db.policies.get? n.id).isSome then some (.rollback .failed)
    else
      some (.run [.policyRow n.id, .policyName n.org n.name]
        [.insertPolicy ⟨n.id, n.org, n.name, none⟩] (.createCommit n))
  | .createCommit _ => some (.commit (.returned .created))
  -- `delete`
  | .delete d =>
    if db.livePolicy d.org d.id then
      some (.run [.policyRow d.id] [.retire d.id db.now] (.findTargets d db.now))
    else some (.rollback (.returned (.deleted false)))
  | .findTargets d at_ => some (.run [] [] (.clearTargets d at_ [] (db.boundTargets d.org d.id)))
  | .clearTargets d at_ cleared (t :: rest) =>
    -- The row may have been bound to something else while it was waited for.
    if db.bound d.org d.id t then
      some (.run [.targetRow t] [.bindTarget t none] (.clearTargets d at_ (cleared ++ [t]) rest))
    else some (.run [.targetRow t] [] (.clearTargets d at_ cleared rest))
  | .clearTargets d at_ cleared [] => some (.run [] [] (.findDefault d at_ cleared))
  | .findDefault d at_ cleared =>
    some (.run [] [] (.clearDefault d at_ cleared (db.isDefault d.org d.id)))
  | .clearDefault d at_ cleared false => some (.run [] [] (.deleteCommit d at_ cleared false))
  | .clearDefault d at_ cleared true =>
    if db.isDefault d.org d.id then
      some (.run [.orgRow d.org] [.bindDefault d.org none] (.deleteCommit d at_ cleared true))
    else some (.run [.orgRow d.org] [] (.deleteCommit d at_ cleared false))
  | .deleteCommit _ _ _ _ => some (.commit (.returned (.deleted true)))
  -- The setters
  | .validate b =>
    if b.policyId.all (db.livePolicy b.org) then
      some (.run [] [] (match b.slot with
        | .target _ => .check b
        | .orgDefault => .write b))
    else some (.rollback (.returned .notFound))
  | .check b =>
    if b.policyId.all (db.livePolicy b.org) then some (.run [] [] (.write b))
    else some (.rollback (.returned (.bound false)))
  | .write b =>
    match b.slot with
    | .target t =>
      if (db.targets.get? t).any fun r => r.orgId == b.org then
        some (.run [.targetRow t] [b.write] (.bindCommit b))
      else some (.rollback (.returned (.bound false)))
    | .orgDefault =>
      -- The foreign key asks that there is a policy, not that it is live.
      if b.policyId.all fun id => (db.policies.get? id).isSome then
        some (.run [.orgRow b.org] [b.write] (.bindCommit b))
      else some (.rollback .failed)
  | .bindCommit _ => some (.commit (.returned (.bound true)))
  | .returned _ | .failed => none

/-- Time passes by itself. -/
def code : Code Db Key Write Phase Request Nat where
  apply := Db.apply
  next := next
  first := Request.first
  failed := .failed
  outer := fun db elapsed => { db with now := db.now + elapsed }

abbrev State := Sql.State Db Key Write Phase

abbrev Event := Sql.Event Request Nat

/-! ## What a transaction has written -/

def Delete.clears (d : Delete) (at_ : Time) (cleared : List Uuid) : List Write :=
  .retire d.id at_ :: cleared.map fun t => .bindTarget t none

def Delete.writes (d : Delete) (at_ : Time) (cleared : List Uuid) (found : Bool) : List Write :=
  d.clears at_ cleared ++ if found then [.bindDefault d.org none] else []

def written : Phase → List Write
  | .createCommit n => [.insertPolicy ⟨n.id, n.org, n.name, none⟩]
  | .findTargets d at_ => d.clears at_ []
  | .clearTargets d at_ cleared _ | .findDefault d at_ cleared | .clearDefault d at_ cleared _ =>
    d.clears at_ cleared
  | .deleteCommit d at_ cleared found => d.writes at_ cleared found
  | .bindCommit b => [b.write]
  | _ => []

theorem clears_append (d : Delete) (at_ : Time) (cleared : List Uuid) (t : Uuid) :
    d.clears at_ (cleared ++ [t]) = d.clears at_ cleared ++ [.bindTarget t none] := by
  simp [Delete.clears]

theorem annotated : Annotated next written (fun _ => []) fun (_ : Write) (_ : Key) => False where
  follows := by
    intro db p m hm
    have hrun : ∀ {p : Phase} {keys : List Key} {writes : List Write} {q : Phase},
        written q = written p ++ writes →
        (Move.run keys writes q).Follows written (fun _ => []) p :=
      fun h => ⟨h, fun _ hk => absurd hk List.not_mem_nil⟩
    cases p with
    | clearTargets d at_ cleared rest =>
      cases rest with
      | nil =>
        cases hm
        exact hrun (List.append_nil _).symm
      | cons t rest =>
        simp only [next] at hm
        split at hm <;> cases hm
        · exact hrun (clears_append d at_ cleared t)
        · exact hrun (List.append_nil _).symm
    | clearDefault d at_ cleared found =>
      cases found with
      | false =>
        cases hm
        exact hrun rfl
      | true =>
        simp only [next] at hm
        split at hm <;> cases hm
        · exact hrun rfl
        · exact hrun rfl
    | write b =>
      simp only [next] at hm
      split at hm <;> split at hm <;> cases hm
      · exact hrun rfl
      · exact ⟨rfl, rfl⟩
      · exact hrun rfl
      · exact ⟨rfl, rfl⟩
    | validate b =>
      simp only [next] at hm
      split at hm <;> cases hm
      · refine hrun ?_
        split <;> rfl
      · exact ⟨rfl, rfl⟩
    | check b =>
      simp only [next] at hm
      split at hm <;> cases hm
      · exact hrun rfl
      · exact ⟨rfl, rfl⟩
    | create n =>
      simp only [next] at hm
      split at hm <;> cases hm
      · exact hrun rfl
      · exact ⟨rfl, rfl⟩
    | createInsert n account =>
      simp only [next] at hm
      split at hm
      · cases hm
        exact ⟨rfl, rfl⟩
      · split at hm
        · cases hm
          exact ⟨rfl, rfl⟩
        · split at hm <;> cases hm
          · exact ⟨rfl, rfl⟩
          · exact hrun rfl
    | delete d =>
      simp only [next] at hm
      split at hm <;> cases hm
      · exact hrun rfl
      · exact ⟨rfl, rfl⟩
    | findTargets | findDefault =>
      cases hm
      exact hrun (List.append_nil _).symm
    | createLock =>
      cases hm
      exact hrun rfl
    | createCommit | deleteCommit | bindCommit =>
      cases hm
      exact ⟨rfl, rfl⟩
    | returned | failed => cases hm
  covered := fun _ _ _ _ h => h.elim

theorem starts : code.Starts written fun _ => ([] : List Key) where
  first := fun request => by cases request <;> exact ⟨rfl, rfl⟩
  failed := ⟨rfl, rfl⟩

end Uptimepage.Policies
