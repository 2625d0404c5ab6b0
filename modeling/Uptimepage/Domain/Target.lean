import Uptimepage.Domain.Channel

/-!
# Monitors

The part of `domain/target.rs` that paging reads: whether the monitor is watched, what
it is bound to, and what it opted out of; and the policy by which its regions vote.
-/

namespace Uptimepage

/-- The channels a monitor is bound to.  `validate_alerts` refuses a list that names a
channel twice, on create and on PATCH. -/
structure TargetAlerts where
  channelIds : List Uuid
  nodup : channelIds.Nodup
deriving DecidableEq

structure Target where
  org : OrgId
  id : Uuid
  name : String
  enabled : Bool
  planHoldAt : Option Time
  notifyRecovery : Bool
  renotifyIntervalSecs : Nat
  alerts : TargetAlerts
  tags : List String
  escalationPolicyId : Option Uuid
deriving DecidableEq

namespace Target

/-- Neither paused nor held by the plan. -/
def watched (t : Target) : Bool := t.enabled && t.planHoldAt.isNone

end Target

inductive RegionIncidentPolicy
  | any
  | majority
  | all
  | count (n : Nat)
deriving DecidableEq

/-- The number of down regions needed, never more than there are in play. -/
def RegionIncidentPolicy.required (policy : RegionIncidentPolicy) (regionCount : Nat) : Nat :=
  let n :=
    match policy with
    | .any => 1
    | .majority => regionCount / 2 + 1
    | .all => regionCount
    | .count c => c
  min (max n 1) (max regionCount 1)

/-- A window during which a monitor's alerts are held.  `targets` are the
`maintenance_window_components`. -/
structure MaintenanceWindow where
  org : OrgId
  targets : List Uuid
  suppressAlerts : Bool
  startsAt : Time
  endsAt : Time
deriving DecidableEq

end Uptimepage
