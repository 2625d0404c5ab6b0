import Mathlib.Data.List.Dedup
import Mathlib.Data.Prod.Lex
import Uptimepage.Domain.Incident
import Uptimepage.Sql.Rank
import Uptimepage.Sql.Rows

/-!
# Which regions serve a target

The region ceiling of `storage/admin.rs` and the three queries that apply it: the pull of a
region's agent, the digest that validates the pull, and the sweep for silent targets of
`storage/silence.rs`.  Ids of regions are compared in the database's collation, an order that is
left open.
-/

namespace Uptimepage.RegionPull

open Sql

/-! ## Tables -/

structure TargetRow where
  id : Uuid
  orgId : OrgId
  /-- As it is stored, credentials sealed. -/
  checkSpec : String
  /-- Generated from `check_spec`. -/
  kind : Option String
  intervalSecs : Int
  enabled : Bool
  alerts : String
  planHoldAt : Option Time
  updatedAt : Time
deriving DecidableEq

structure OrgRow where
  id : OrgId
  deletedAt : Option Time
deriving DecidableEq

structure RegionRow (Region : Type) where
  id : Region
  enabled : Bool
  defaultSelected : Bool
deriving DecidableEq

structure TargetRegion (Region : Type) where
  targetId : Uuid
  region : Region
deriving DecidableEq

def TargetRegion.pair {Region : Type} (tr : TargetRegion Region) : Uuid × Region :=
  (tr.targetId, tr.region)

structure AgentRow (Region : Type) where
  region : Region
  enabled : Bool
  lastSeenAt : Option Time
deriving DecidableEq

structure WindowRow where
  id : Uuid
  suppressAlerts : Bool
  startsAt : Time
  endsAt : Time
deriving DecidableEq

structure WindowComponent where
  maintenanceId : Uuid
  targetId : Uuid
  orgId : OrgId
deriving DecidableEq

structure Db (Region : Type) where
  targets : Rows TargetRow.id
  organizations : Rows OrgRow.id
  regions : Rows (@RegionRow.id Region)
  targetRegions : Rows (@TargetRegion.pair Region)
  agents : List (AgentRow Region)
  windows : Rows WindowRow.id
  components : List WindowComponent

/-! ## Plans and ceilings -/

structure Plan where
  id : String
  minCheckIntervalSecs : Int
  maxRegions : Int
deriving DecidableEq

/-- Each org once. -/
abbrev PlanMap := List (OrgId × Option Plan)

/-- `None` where the lookup fails. -/
def resolvePlans (limitForOrg : OrgId → Option Plan) (orgs : List OrgId) : PlanMap :=
  orgs.dedup.map fun org => (org, limitForOrg org)

/-- The two arrays of `RegionCaps`, zipped. -/
abbrev RegionCaps := List (OrgId × Int)

def RegionCaps.ofPlans (plans : PlanMap) : RegionCaps :=
  plans.filterMap fun entry => entry.2.map fun plan => (entry.1, plan.maxRegions)

/-- `cap.max_regions` after the `LEFT JOIN`; an org is in the arrays at most once. -/
def RegionCaps.maxRegions (caps : RegionCaps) (org : OrgId) : Option Int :=
  (caps.find? fun entry => entry.1 == org).map Prod.snd

/-! ## The region ceiling -/

section Queries
variable {Region : Type} [LinearOrder Region]

namespace Db
variable (db : Db Region)

def assigned (target : Uuid) (region : Region) : Bool :=
  db.targetRegions.rows.any fun tr => tr.targetId == target && tr.region == region

def region? (id : Region) : Option (RegionRow Region) := db.regions.get? id

/-- `SELECT count(*) FROM regions WHERE enabled`. -/
def enabledRegions : Nat := db.regions.rows.countP fun rg => rg.enabled

/-- How many enabled regions of the target do not come after `rg`. -/
def regionRank (target : Uuid) (rg : RegionRow Region) : Nat :=
  db.targetRegions.rows.countP fun tr2 =>
    tr2.targetId == target && (db.region? tr2.region).any fun rg2 =>
      rg2.enabled &&
        ((rg2.defaultSelected && !rg.defaultSelected) ||
          (rg2.defaultSelected == rg.defaultSelected && decide (tr2.region ≤ rg.id)))

/-- `REGION_CAP_PREDICATE`. -/
def withinCap (cap : Option Int) (target : Uuid) (rg : RegionRow Region) : Bool :=
  match cap with
  | none => true
  | some maxRegions =>
    decide ((db.enabledRegions : Int) ≤ maxRegions) ||
      decide ((db.regionRank target rg : Int) ≤ maxRegions)

def liveOrg (org : OrgId) : Bool := (db.organizations.get? org).any fun o => o.deletedAt.isNone

/-! ## The queries -/

def regionOrgIds (region : Region) : List OrgId :=
  ((db.targets.rows.filter fun t =>
    db.assigned t.id region && t.enabled && db.liveOrg t.orgId && t.planHoldAt.isNone).map
      TargetRow.orgId).dedup

/-- The rows that `region_pull_etag` digests. -/
def etagRows (region : Region) (caps : RegionCaps) : List TargetRow :=
  db.targets.rows.filter fun t =>
    db.assigned t.id region && t.enabled && db.liveOrg t.orgId && t.planHoldAt.isNone &&
      (db.region? region).any fun rg =>
        rg.enabled && t.kind != some "heartbeat" &&
          db.withinCap (caps.maxRegions t.orgId) t.id rg

/-- The rows of `list_enabled_targets_for_region`. -/
def pullRows (region : Region) (includeFlow : Bool) (caps : RegionCaps) : List TargetRow :=
  db.targets.rows.filter fun t =>
    t.enabled && db.liveOrg t.orgId && db.assigned t.id region && t.planHoldAt.isNone &&
      (db.region? region).any fun rg =>
        rg.enabled && t.kind != some "heartbeat" && (includeFlow || t.kind != some "flow") &&
          db.withinCap (caps.maxRegions t.orgId) t.id rg

/-- An enabled agent of the region was seen lately. -/
def probed (now staleAfter : Time) (region : Region) : Bool :=
  db.agents.any fun a =>
    a.region == region && a.enabled &&
      a.lastSeenAt.any fun seen => decide (now - staleAfter < seen)

/-- `suppressing_window_sql`. -/
def suppressed (now : Time) (t : TargetRow) : Bool :=
  db.components.any fun c =>
    c.targetId == t.id && c.orgId == t.orgId && (db.windows.get? c.maintenanceId).any fun w =>
      w.suppressAlerts && decide (w.startsAt ≤ now) && decide (now < w.endsAt)

/-- An assignment that the silence query counts, were its region probed. -/
def covers (caps : RegionCaps) (t : TargetRow) (tr : TargetRegion Region) : Bool :=
  tr.targetId == t.id && (db.region? tr.region).any fun rg =>
    rg.enabled && db.withinCap (caps.maxRegions t.orgId) t.id rg

def unmonitored (now staleAfter : Time) (caps : RegionCaps) : List TargetRow :=
  db.targets.rows.filter fun t =>
    t.enabled && db.liveOrg t.orgId && t.planHoldAt.isNone && t.kind != some "heartbeat" &&
      db.targetRegions.rows.any (fun tr => tr.targetId == t.id) &&
      !db.targetRegions.rows.any (fun tr =>
        db.covers caps t tr && db.probed now staleAfter tr.region) &&
      !db.suppressed now t

/-- Default-on regions come first. -/
def regionKey (rg : RegionRow Region) : Bool ×ₗ Region := toLex (!rg.defaultSelected, rg.id)

def enabledAssigned (target : Uuid) : List (RegionRow Region) :=
  db.regions.rows.filter fun rg => rg.enabled && db.assigned target rg.id

/-- `min(max_regions, n)`. -/
def servedCount (cap : Option Int) (n : Nat) : Nat :=
  match cap with
  | none => n
  | some maxRegions => min maxRegions.toNat n

def firstRegions (cap : Option Int) (target : Uuid) : List (RegionRow Region) :=
  let regions := inOrder regionKey (db.enabledAssigned target)
  regions.take (servedCount cap regions.length)

variable {db}

variable {target : Uuid} {rg : RegionRow Region} {cap : Option Int}

theorem assigned_iff {region : Region} :
    db.assigned target region = true ↔ ⟨target, region⟩ ∈ db.targetRegions.rows := by
  unfold assigned
  rw [List.any_eq_true]
  constructor
  · rintro ⟨⟨target', region'⟩, htr, h⟩
    obtain ⟨rfl, rfl⟩ : target' = target ∧ region' = region := by simpa using h
    exact htr
  · intro h
    exact ⟨_, h, by simp⟩

theorem region?_eq_some {id : Region} :
    db.region? id = some rg ↔ rg ∈ db.regions.rows ∧ rg.id = id := Rows.get?_eq_some

theorem mem_enabledAssigned :
    rg ∈ db.enabledAssigned target ↔
      db.region? rg.id = some rg ∧ rg.enabled = true ∧ db.assigned target rg.id = true := by
  unfold enabledAssigned
  rw [List.mem_filter, region?_eq_some, Bool.and_eq_true]
  constructor
  · rintro ⟨hmem, henabled, hassigned⟩
    exact ⟨⟨hmem, rfl⟩, henabled, hassigned⟩
  · rintro ⟨⟨hmem, -⟩, henabled, hassigned⟩
    exact ⟨hmem, henabled, hassigned⟩

theorem nodup_enabledAssigned (target : Uuid) :
    ((db.enabledAssigned target).map regionKey).Nodup := by
  have hid : ((db.enabledAssigned target).map RegionRow.id).Nodup :=
    db.regions.nodup.sublist (List.filter_sublist.map _)
  have hmap : (db.enabledAssigned target).map RegionRow.id =
      ((db.enabledAssigned target).map regionKey).map fun k => (ofLex k).2 := by
    rw [List.map_map]
    rfl
  rw [hmap] at hid
  exact hid.of_map _

theorem regionKey_le_iff {rg2 : RegionRow Region} :
    ((rg2.defaultSelected && !rg.defaultSelected) ||
      (rg2.defaultSelected == rg.defaultSelected && decide (rg2.id ≤ rg.id))) = true ↔
      regionKey rg2 ≤ regionKey rg := by
  unfold regionKey
  rw [Prod.Lex.toLex_le_toLex]
  cases rg.defaultSelected <;> cases rg2.defaultSelected <;> simp

theorem regionRank_eq (target : Uuid) (rg : RegionRow Region) :
    db.regionRank target rg = rank regionKey (db.enabledAssigned target) rg := by
  unfold regionRank rank
  rw [List.countP_eq_length_filter, List.countP_eq_length_filter,
    ← List.length_map TargetRegion.region]
  refine (List.Perm.length_eq ?_).trans (List.length_map RegionRow.id)
  refine (List.perm_ext_iff_of_nodup ?_ ?_).mpr ?_
  · refine (List.Nodup.of_map TargetRegion.pair
      (db.targetRegions.nodup.sublist (List.filter_sublist.map _))).map_on ?_
    intro a ha b hb heq
    have ha := (List.mem_filter.mp ha).2
    have hb := (List.mem_filter.mp hb).2
    simp only [Bool.and_eq_true, beq_iff_eq] at ha hb
    obtain ⟨ta, ra⟩ := a
    obtain ⟨tb, rb⟩ := b
    obtain rfl : ra = rb := heq
    obtain rfl : ta = tb := ha.1.trans hb.1.symm
    rfl
  · have hid : ((db.enabledAssigned target).map RegionRow.id).Nodup :=
      db.regions.nodup.sublist (List.filter_sublist.map _)
    exact hid.sublist (List.filter_sublist.map _)
  · intro r
    rw [List.mem_map, List.mem_map]
    constructor
    · rintro ⟨⟨target', r'⟩, htr, rfl⟩
      obtain ⟨hmem, hp⟩ := List.mem_filter.mp htr
      rw [Bool.and_eq_true, beq_iff_eq, Option.any_eq_true] at hp
      obtain ⟨rfl, rg2, hrg2, hearly⟩ := hp
      rw [Bool.and_eq_true] at hearly
      obtain ⟨-, rfl⟩ := region?_eq_some.1 hrg2
      refine ⟨rg2, List.mem_filter.mpr ⟨?_, ?_⟩, rfl⟩
      · exact mem_enabledAssigned.2 ⟨hrg2, hearly.1, assigned_iff.2 hmem⟩
      · exact decide_eq_true (regionKey_le_iff.1 hearly.2)
    · rintro ⟨rg2, hrg2, rfl⟩
      obtain ⟨hmem, hearly⟩ := List.mem_filter.mp hrg2
      obtain ⟨hfind, henabled, hassigned⟩ := mem_enabledAssigned.1 hmem
      refine ⟨⟨target, rg2.id⟩, List.mem_filter.mpr ⟨assigned_iff.1 hassigned, ?_⟩, rfl⟩
      rw [Bool.and_eq_true, beq_iff_eq, Option.any_eq_true]
      refine ⟨rfl, rg2, hfind, ?_⟩
      rw [Bool.and_eq_true]
      exact ⟨henabled, regionKey_le_iff.2 (of_decide_eq_true hearly)⟩

theorem length_enabledAssigned_le (target : Uuid) :
    (db.enabledAssigned target).length ≤ db.enabledRegions := by
  unfold enabledAssigned enabledRegions
  rw [← List.countP_eq_length_filter]
  apply List.countP_mono_left
  intro rg _ h
  rw [Bool.and_eq_true] at h
  exact h.1

theorem regionRank_pos (h : rg ∈ db.enabledAssigned target) : 0 < db.regionRank target rg := by
  rw [regionRank_eq]
  exact List.countP_pos_iff.mpr ⟨rg, h, decide_eq_true le_rfl⟩

theorem withinCap_some {maxRegions : Int} :
    db.withinCap (some maxRegions) target rg =
      decide ((db.regionRank target rg : Int) ≤ maxRegions) := by
  have hle : db.regionRank target rg ≤ db.enabledRegions := by
    rw [regionRank_eq]
    exact (rank_le_length _ _).trans (length_enabledAssigned_le target)
  show (decide _ || decide _) = _
  by_cases hall : (db.enabledRegions : Int) ≤ maxRegions
  · have hrank : (db.regionRank target rg : Int) ≤ maxRegions := by omega
    rw [decide_eq_true hall, decide_eq_true hrank]
    rfl
  · rw [decide_eq_false hall, Bool.false_or]

theorem withinCap_iff (h : rg ∈ db.enabledAssigned target) :
    db.withinCap cap target rg = true ↔ rg ∈ db.firstRegions cap target := by
  have hmem : rg ∈ inOrder regionKey (db.enabledAssigned target) :=
    (inOrder_perm _).mem_iff.mpr h
  cases cap with
  | none =>
    unfold firstRegions servedCount
    rw [List.take_length]
    exact ⟨fun _ => hmem, fun _ => rfl⟩
  | some maxRegions =>
    have hpos := regionRank_pos h
    have htake : db.firstRegions (some maxRegions) target =
        (inOrder regionKey (db.enabledAssigned target)).take maxRegions.toNat := by
      unfold firstRegions servedCount
      rw [← List.take_eq_take_min]
    rw [withinCap_some, decide_eq_true_iff, htake, mem_take_iff_rank (nodup_enabledAssigned target) h,
      ← regionRank_eq]
    omega

theorem mem_enabledAssigned_of_first (h : rg ∈ db.firstRegions cap target) :
    rg ∈ db.enabledAssigned target :=
  (inOrder_perm _).mem_iff.mp (List.mem_of_mem_take h)

theorem mem_firstRegions_iff {region : Region} :
    region ∈ (db.firstRegions cap target).map RegionRow.id ↔
      db.assigned target region = true ∧
        ∃ rg, db.region? region = some rg ∧ rg.enabled = true ∧
          db.withinCap cap target rg = true := by
  rw [List.mem_map]
  constructor
  · rintro ⟨rg, hrg, rfl⟩
    have hmem := mem_enabledAssigned_of_first hrg
    obtain ⟨hfind, henabled, hassigned⟩ := mem_enabledAssigned.1 hmem
    exact ⟨hassigned, rg, hfind, henabled, (withinCap_iff hmem).mpr hrg⟩
  · rintro ⟨hassigned, rg, hfind, henabled, hcap⟩
    obtain ⟨-, rfl⟩ := region?_eq_some.1 hfind
    have hmem := mem_enabledAssigned.2 ⟨hfind, henabled, hassigned⟩
    exact ⟨rg, (withinCap_iff hmem).mp hcap, rfl⟩

/-! ## The ceilings that a query is given -/

section Select
variable {t : TargetRow} {region : Region} {caps : RegionCaps}

theorem covers_iff :
    db.covers caps t ⟨t.id, region⟩ = true ∧ db.assigned t.id region = true ↔
      region ∈ (db.firstRegions (caps.maxRegions t.orgId) t.id).map RegionRow.id := by
  unfold covers
  rw [mem_firstRegions_iff]
  simp only [Bool.and_eq_true, Option.any_eq_true, beq_self_eq_true, true_and]
  constructor
  · rintro ⟨⟨rg, hrg, hen, hcap⟩, ha⟩
    exact ⟨ha, rg, hrg, hen, hcap⟩
  · rintro ⟨ha, rg, hrg, hen, hcap⟩
    exact ⟨⟨rg, hrg, hen, hcap⟩, ha⟩

end Select

/-! ## One answer -/

variable (db)

variable {db}

end Db

end Queries

namespace One

/-- A paused target and a flow, both assigned to the one region. -/
def paused : TargetRow := ⟨1, 5, "", some "http", 60, false, "", none, 0⟩
def flow : TargetRow := ⟨2, 5, "", some "flow", 300, true, "", none, 0⟩

def db : Db Nat where
  targets := ⟨[paused, flow], by decide⟩
  organizations := ⟨[⟨5, none⟩], by decide⟩
  regions := ⟨[⟨3, true, true⟩], by decide⟩
  targetRegions := ⟨[⟨1, 3⟩, ⟨2, 3⟩], by decide⟩
  agents := []
  windows := ⟨[], by decide⟩
  components := []

def limitForOrg (_ : OrgId) : Option Plan := some ⟨"free", 60, 3⟩

def two (_ : OrgId) : Option Plan := some ⟨"free", 60, 2⟩

end One

end Uptimepage.RegionPull
