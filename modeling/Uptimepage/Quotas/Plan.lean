import Uptimepage.Domain.Incident
import Uptimepage.Sql.Rows

/-!
# The effective plan of an account

What an account may have: the row of `plans`, an override that replaces caps, add-ons that are put
on top (`quotas/service.rs`).  Caps are 32-bit integers.
-/

namespace Uptimepage.Holds

open Sql

abbrev AccountId := Uuid

/-! ## Caps -/

abbrev I32 := { n : Int // -2147483648 ≤ n ∧ n ≤ 2147483647 }

namespace I32

def max : I32 := ⟨2147483647, by decide⟩

def one : I32 := ⟨1, by decide⟩

def tryFrom (n : Int) : Option I32 :=
  if h : -2147483648 ≤ n ∧ n ≤ 2147483647 then some ⟨n, h⟩ else none

theorem le_max (n : I32) : (n : Int) ≤ max := n.2.2

end I32

/-- The caps an override may set, in the order of the fields of `PlanOverrides`. -/
inductive Cap
  | maxTargets
  | minCheckIntervalSecs
  | retentionDays
  | maxMembers
  | maxPendingInvitations
  | maxApiTokensPerUser
  | maxPublicComponents
  | maxStatusPages
  | maxShareLinksPerMonitor
  | maxSharedMonitors
  | maxMaintenanceWindows
  | maxNotificationChannels
  | maxEscalationPolicies
  | maxOnCallSchedules
  | maxRegions
  | maxLogoSizeBytes
  | maxOrgs
deriving DecidableEq

namespace Cap

def all : List Cap :=
  [maxTargets, minCheckIntervalSecs, retentionDays, maxMembers, maxPendingInvitations,
    maxApiTokensPerUser, maxPublicComponents, maxStatusPages, maxShareLinksPerMonitor,
    maxSharedMonitors, maxMaintenanceWindows, maxNotificationChannels, maxEscalationPolicies,
    maxOnCallSchedules, maxRegions, maxLogoSizeBytes, maxOrgs]

theorem mem_all (cap : Cap) : cap ∈ all := by
  cases cap <;> decide

def field : Cap → String
  | maxTargets => "max_targets"
  | minCheckIntervalSecs => "min_check_interval_secs"
  | retentionDays => "retention_days"
  | maxMembers => "max_members"
  | maxPendingInvitations => "max_pending_invitations"
  | maxApiTokensPerUser => "max_api_tokens_per_user"
  | maxPublicComponents => "max_public_components"
  | maxStatusPages => "max_status_pages"
  | maxShareLinksPerMonitor => "max_share_links_per_monitor"
  | maxSharedMonitors => "max_shared_monitors"
  | maxMaintenanceWindows => "max_maintenance_windows"
  | maxNotificationChannels => "max_notification_channels"
  | maxEscalationPolicies => "max_escalation_policies"
  | maxOnCallSchedules => "max_on_call_schedules"
  | maxRegions => "max_regions"
  | maxLogoSizeBytes => "max_logo_size_bytes"
  | maxOrgs => "max_orgs"

end Cap

/-- A row of `plans`, and the plan that is made of it. -/
structure Plan where
  id : String
  caps : Cap → I32
  /-- No override sets it. -/
  maxFlowChecks : I32

/-! ## Overrides -/

/-- A `jsonb` value; the keys of an object are distinct. -/
inductive Jsonb
  | null
  | bool (b : Bool)
  /-- The digits, and how many of them stand after the point. -/
  | number (digits : Int) (scale : Nat)
  | string (s : String)
  | array (items : List Jsonb)
  | object (fields : List (String × Jsonb))

namespace Jsonb

/-- `json -> key`. -/
def get? : Jsonb → String → Option Jsonb
  | object fields, key => (fields.find? fun f => f.1 == key).map Prod.snd
  | _, _ => none

/-- A value read as an `Option<u32>`; `none` is an error. -/
def optU32 : Jsonb → Option (Option Nat)
  | null => some none
  | number digits 0 => if 0 ≤ digits ∧ digits ≤ 4294967295 then some (some digits.toNat) else none
  | _ => none

end Jsonb

abbrev PlanOverrides := Cap → Option Nat

namespace PlanOverrides

/-- A field that is not there is the default, one that cannot be read fails the struct. -/
def readField : Option Jsonb → Option (Option Nat)
  | none => some none
  | some v => v.optU32

def ofFields (value : Cap → Option Jsonb) : Option PlanOverrides :=
  if Cap.all.all fun cap => (readField (value cap)).isSome then
    some fun cap => (readField (value cap)).join
  else none

/-- `serde_json::from_value`: a struct is read from an object by name, and from an array by the
position of its fields. -/
def fromValue : Jsonb → Option PlanOverrides
  | .object fields => ofFields fun cap => (Jsonb.object fields).get? cap.field
  | .array items =>
    if items.length ≤ Cap.all.length then ofFields fun cap => items[Cap.all.idxOf cap]? else none
  | _ => none

theorem readField_of_fields {value : Cap → Option Jsonb} {ov : PlanOverrides}
    (h : ofFields value = some ov) (cap : Cap) : readField (value cap) = some (ov cap) := by
  unfold ofFields at h
  split at h
  · next hread =>
    have hsome := List.all_eq_true.mp hread cap cap.mem_all
    obtain ⟨n, hn⟩ := Option.isSome_iff_exists.mp hsome
    obtain rfl := Option.some.inj h
    show _ = some (readField (value cap)).join
    rw [hn]
    rfl
  · cases h

theorem number_of_fields {value : Cap → Option Jsonb} {ov : PlanOverrides} {cap : Cap} {n : Nat}
    (h : ofFields value = some ov) (hn : ov cap = some n) : value cap = some (.number n 0) := by
  have hread := readField_of_fields h cap
  rw [hn] at hread
  unfold readField at hread
  split at hread
  · cases hread
  · next v hv =>
    rw [hv]
    unfold Jsonb.optU32 at hread
    split at hread
    · cases hread
    · next digits =>
      split at hread
      · next hrange =>
        have hdigits : digits.toNat = n := Option.some.inj (Option.some.inj hread)
        rw [← hdigits, Int.toNat_of_nonneg hrange.1]
      · cases hread
    · cases hread

end PlanOverrides

def take (v : Option Nat) (cur : I32) : I32 :=
  (v.map fun x => (I32.tryFrom x).getD I32.max).getD cur

def applyOverrides (base : Plan) (ov : PlanOverrides) : Plan :=
  { base with caps := fun cap => take (ov cap) (base.caps cap) }

theorem lowered_of_take {v : Option Nat} {cur : I32} {n : Int} (h : (take v cur : Int) < n)
    (hn : n ≤ cur) : ∃ x, v = some x ∧ (x : Int) < cur ∧ 0 ≤ (take v cur : Int) := by
  cases v with
  | none => exact absurd (h.trans_le hn) (lt_irrefl _)
  | some x =>
    refine ⟨x, rfl, ?_⟩
    have htake : take (some x) cur = (I32.tryFrom x).getD I32.max := rfl
    rw [htake] at h ⊢
    unfold I32.tryFrom at h ⊢
    split at h
    · next hrange =>
      rw [dif_pos hrange]
      exact ⟨h.trans_le hn, Int.natCast_nonneg x⟩
    · have hmax := (h.trans_le hn).trans_le cur.le_max
      exact absurd hmax (lt_irrefl _)

/-! ## Add-ons -/

structure Addons where
  extraTargets : Int
  extraStatusPages : Int
  extraMembers : Int
  extraSharedMonitors : Int
  extraNotificationChannels : Int
deriving DecidableEq

/-- Never below what it was. -/
def add (cur : I32) (extra : Int) : I32 := (I32.tryFrom (cur + Max.max extra 0)).getD I32.max

def applyAddons (base : Plan) (a : Addons) : Plan :=
  { base with
    caps := fun
      | .maxTargets => add (base.caps .maxTargets) a.extraTargets
      | .maxStatusPages => add (base.caps .maxStatusPages) a.extraStatusPages
      | .maxMembers => add (base.caps .maxMembers) a.extraMembers
      | .maxSharedMonitors => add (base.caps .maxSharedMonitors) a.extraSharedMonitors
      | .maxNotificationChannels =>
        add (base.caps .maxNotificationChannels) a.extraNotificationChannels
      | cap => base.caps cap }

theorem le_add (cur : I32) (extra : Int) : (cur : Int) ≤ add cur extra := by
  unfold add I32.tryFrom
  split
  · show (cur : Int) ≤ cur + Max.max extra 0
    omega
  · exact cur.le_max

theorem le_applyAddons (base : Plan) (a : Addons) (cap : Cap) :
    (base.caps cap : Int) ≤ (applyAddons base a).caps cap := by
  cases cap with
  | maxTargets => exact le_add _ _
  | maxStatusPages => exact le_add _ _
  | maxMembers => exact le_add _ _
  | maxSharedMonitors => exact le_add _ _
  | maxNotificationChannels => exact le_add _ _
  | _ => exact le_rfl

/-! ## Tables -/

structure AccountRow where
  id : AccountId
  planId : String
deriving DecidableEq

structure OrgRow where
  id : OrgId
  accountId : AccountId
  deletedAt : Option Time
deriving DecidableEq

structure OverrideRow where
  accountId : AccountId
  overrideJson : Jsonb
  expiresAt : Option Time

structure AddonRow where
  accountId : AccountId
  addonType : String
  quantity : I32
deriving DecidableEq

def AddonRow.key (r : AddonRow) : AccountId × String := (r.accountId, r.addonType)

/-- What the effective plan is read from. -/
structure Accounts where
  plans : Rows Plan.id
  accounts : Rows AccountRow.id
  organizations : Rows OrgRow.id
  planOverrides : Rows OverrideRow.accountId
  accountAddons : Rows AddonRow.key

namespace Accounts
variable (db : Accounts) (decodes : Jsonb → Bool) (now : Time) (account : AccountId)

/-- The override of the account that has not expired. -/
def overrideInForce : Option Jsonb :=
  ((db.planOverrides.get? account).filter fun po => po.expiresAt.all fun t => decide (now < t)).map
    OverrideRow.overrideJson

/-- `none` if the driver cannot decode the value, which is a failed query. -/
def planOverride : Option (Option PlanOverrides) :=
  match db.overrideInForce now account with
  | none => some none
  | some json => if decodes json then some (PlanOverrides.fromValue json) else none

def addAddon (a : Addons) (r : AddonRow) : Addons :=
  if r.addonType = "extra_targets" then { a with extraTargets := r.quantity }
  else if r.addonType = "extra_status_pages" then { a with extraStatusPages := r.quantity }
  else if r.addonType = "extra_members" then { a with extraMembers := r.quantity }
  else if r.addonType = "extra_shared_monitors" then { a with extraSharedMonitors := r.quantity }
  else if r.addonType = "extra_notification_channels" then
    { a with extraNotificationChannels := r.quantity }
  else a

def addonsOf : Addons :=
  (db.accountAddons.rows.filter fun r => r.accountId == account).foldl addAddon ⟨0, 0, 0, 0, 0⟩

def basePlan : Option Plan :=
  (db.accounts.get? account).bind fun a => db.plans.get? a.planId

/-- `max_regions` and `max_orgs` are at least one. -/
def atLeastOne (plan : Plan) : Plan :=
  { plan with
    caps := fun
      | .maxRegions => Max.max (plan.caps .maxRegions) I32.one
      | .maxOrgs => Max.max (plan.caps .maxOrgs) I32.one
      | cap => plan.caps cap }

def effectivePlan : Option Plan :=
  (db.basePlan account).bind fun base =>
    (db.planOverride decodes now account).map fun ov =>
      atLeastOne (applyAddons (match ov with
        | some ov => applyOverrides base ov
        | none => base) (db.addonsOf account))

def resolve (org : OrgId) : Option (AccountId × Plan) :=
  (db.organizations.get? org).bind fun o =>
    (db.effectivePlan decodes now o.accountId).map fun plan => (o.accountId, plan)

end Accounts

section
variable {db : Accounts} {decodes : Jsonb → Bool} {now : Time} {account : AccountId} {plan : Plan}

theorem le_atLeastOne (plan : Plan) (cap : Cap) :
    (plan.caps cap : Int) ≤ (Accounts.atLeastOne plan).caps cap := by
  cases cap with
  | maxRegions => exact le_max_left (plan.caps .maxRegions) I32.one
  | maxOrgs => exact le_max_left (plan.caps .maxOrgs) I32.one
  | _ => exact le_rfl

theorem caps_of_effectivePlan (h : db.effectivePlan decodes now account = some plan) :
    ∃ base, db.basePlan account = some base ∧ plan.maxFlowChecks = base.maxFlowChecks ∧
      ∀ (cap : Cap) (n : Int), (plan.caps cap : Int) < n → n ≤ base.caps cap →
        ∃ json ov x, db.overrideInForce now account = some json ∧
          PlanOverrides.fromValue json = some ov ∧ ov cap = some x ∧ (x : Int) < base.caps cap ∧
          0 ≤ (plan.caps cap : Int) := by
  obtain ⟨base, hbase, h⟩ := Option.bind_eq_some_iff.mp h
  obtain ⟨ov, hov, rfl⟩ := Option.map_eq_some_iff.mp h
  cases ov with
  | none =>
    refine ⟨base, hbase, rfl, ?_⟩
    intro cap n hlt hle
    have hge := (le_applyAddons base (db.addonsOf account) cap).trans (le_atLeastOne _ cap)
    exact absurd ((hge.trans_lt hlt).trans_le hle) (lt_irrefl _)
  | some ov =>
    refine ⟨base, hbase, rfl, ?_⟩
    intro cap n hlt hle
    have hge := (le_applyAddons (applyOverrides base ov) (db.addonsOf account) cap).trans
      (le_atLeastOne _ cap)
    obtain ⟨x, hx, hlow, hnonneg⟩ := lowered_of_take (hge.trans_lt hlt) hle
    unfold Accounts.planOverride at hov
    split at hov
    · cases hov
    · next json hjson =>
      split at hov
      · exact ⟨json, ov, x, hjson, Option.some.inj hov, hx, hlow, hnonneg.trans hge⟩
      · cases hov

end

end Uptimepage.Holds
