import Uptimepage.Store.Table
import Uptimepage.Targets.Validate

/-!
# The stored targets

`PostgresTargetStore`, statement by statement, for requests that come one after another.
-/

namespace Uptimepage.Targets

/-- `targets` and `target_regions`. -/
structure Inventory where
  rows : List TargetRow
  regions : List (Uuid × String)
  nextId : Uuid
deriving DecidableEq

namespace Inventory

def start : Inventory := ⟨[], [], 0⟩

def get (inv : Inventory) (org : OrgId) (id : Uuid) : Option TargetRow :=
  inv.rows.find? fun r => r.id == id && r.orgId == org

/-- The regions a target is assigned. -/
def regionsOf (inv : Inventory) (id : Uuid) : List String :=
  (inv.regions.filter fun a => a.1 == id).map fun a => a.2

def regionsForTarget (inv : Inventory) (org : OrgId) (id : Uuid) : Option (List String) :=
  if (inv.get org id).isSome then some (inv.regionsOf id) else none

theorem mem_regionsOf {inv : Inventory} {id : Uuid} {region : String} :
    region ∈ inv.regionsOf id ↔ (id, region) ∈ inv.regions := by
  simp only [regionsOf, List.mem_map, List.mem_filter, beq_iff_eq]
  constructor
  · rintro ⟨⟨i, r⟩, ⟨hmem, rfl⟩, rfl⟩
    exact hmem
  · intro hmem
    exact ⟨_, ⟨hmem, rfl⟩, rfl⟩

theorem get_some {inv : Inventory} {org : OrgId} {id : Uuid} {r : TargetRow}
    (h : inv.get org id = some r) : r ∈ inv.rows ∧ r.id = id ∧ r.orgId = org := by
  have hp := List.find?_some h
  simp only [Bool.and_eq_true, beq_iff_eq] at hp
  exact ⟨List.mem_of_find?_eq_some h, hp.1, hp.2⟩

/-! ## Writing rows -/

/-- The values bound by an `INSERT`. -/
def rowOf (id : Uuid) (org : OrgId) (new : NewTarget) (policy : RegionIncidentPolicy) :
    TargetRow where
  id := id
  orgId := org
  name := new.name
  check := new.check
  intervalSecs := asI32 new.interval
  enabled := new.enabled
  tags := new.tags
  alerts := new.alerts
  alertConfirmations := asI32 (max new.alertConfirmations.toNat 1)
  notifyRecovery := new.notifyRecovery
  renotifyIntervalSecs := asI32 new.renotifyIntervalSecs.toNat
  regionPolicy := policy
  groupName := new.groupName
  ownerUserId := new.ownerUserId

def defaultPolicy : RegionIncidentPolicy := .majority

/-- What a violated `CHECK` surfaces as. -/
def checkViolation : AppError := ⟨.other, "INTERNAL", "insert target", none⟩

/-- Inserts rows with fresh ids and assigns each the default region. -/
def insertRows (inv : Inventory) (defaultRegion : String) (rows : List TargetRow) : Inventory where
  rows := inv.rows ++ rows
  regions := inv.regions ++ rows.map fun r => (r.id, defaultRegion)
  nextId := inv.nextId + rows.length

/-- How many monitors an account has of the kinds `counted` picks. -/
def count (inv : Inventory) (account : OrgId → Uuid) (counted : TargetRow → Bool)
    (subject : Uuid) : Nat :=
  inv.rows.countP fun r => account r.orgId == subject && counted r

def countTargets (inv : Inventory) (account : OrgId → Uuid) : Uuid → Nat :=
  inv.count account fun _ => true

def countFlow (inv : Inventory) (account : OrgId → Uuid) : Uuid → Nat :=
  inv.count account fun r => r.check.isFlow

/-- The caps, counted again where the insert is. -/
def withinCaps (inv : Inventory) (account : OrgId → Uuid) (org : OrgId) (flows : Nat)
    (total : Nat) (maxTargets maxFlowChecks : Int) : Except AppError Unit := do
  let current : Int := inv.countTargets account (account org)
  refuseIf (decide (maxTargets < current + total)) <|
    .quotaExceeded "max_targets" current maxTargets "free"
  let flowCurrent : Int := inv.countFlow account (account org)
  refuseIf (decide (0 < flows) && decide (maxFlowChecks < flowCurrent + flows)) <|
    .quotaExceeded "max_flow_checks" flowCurrent maxFlowChecks "free"

/-- `bulk_create` leaves the region policy to its default; `create` passes the request's. -/
def insertAll (inv : Inventory) (account : OrgId → Uuid) (defaultRegion : String) (org : OrgId)
    (items : List NewTarget) (policy : NewTarget → RegionIncidentPolicy)
    (maxTargets maxFlowChecks : Int) : Except AppError (Inventory × List TargetRow) := do
  inv.withinCaps account org (items.countP fun new => new.check.isFlow) items.length maxTargets
    maxFlowChecks
  let rows := items.mapIdx fun i new => rowOf (inv.nextId + i) org new (policy new)
  refuseIf (!rows.all TargetRow.satisfiesChecks) checkViolation
  return (inv.insertRows defaultRegion rows, rows)

def create (inv : Inventory) (account : OrgId → Uuid) (defaultRegion : String) (org : OrgId)
    (new : NewTarget) : Int → Int → Except AppError (Inventory × List TargetRow) :=
  inv.insertAll account defaultRegion org [new] fun new => new.regionPolicy.getD defaultPolicy

def bulkCreate (inv : Inventory) (account : OrgId → Uuid) (defaultRegion : String) (org : OrgId)
    (items : List NewTarget) : Int → Int → Except AppError (Inventory × List TargetRow) :=
  inv.insertAll account defaultRegion org items fun _ => defaultPolicy

end Inventory

/-- The `SET` list of `update`. -/
def TargetRow.patch (r : TargetRow) (update : TargetUpdate) : TargetRow :=
  { r with
    name := update.name.getD r.name
    check := update.check.getD r.check
    intervalSecs := (update.interval.map asI32).getD r.intervalSecs
    enabled := update.enabled.getD r.enabled
    tags := update.tags.getD r.tags
    alerts := update.alerts.getD r.alerts
    regionPolicy := update.regionPolicy.getD r.regionPolicy
    alertConfirmations :=
      (update.alertConfirmations.map fun n => asI32 (max n.toNat 1)).getD r.alertConfirmations
    notifyRecovery := update.notifyRecovery.getD r.notifyRecovery
    renotifyIntervalSecs :=
      (update.renotifyIntervalSecs.map fun n => asI32 n.toNat).getD r.renotifyIntervalSecs
    groupName := update.groupName.getD r.groupName
    ownerUserId := update.ownerUserId.getD r.ownerUserId }

namespace Inventory

/-- The row that `update` matches, patched; `none` if there is none. -/
def update (inv : Inventory) (org : OrgId) (id : Uuid) (upd : TargetUpdate) :
    Except AppError (Inventory × Option TargetRow) :=
  match inv.get org id with
  | none => .ok (inv, none)
  | some r => do
    refuseIf (!(r.patch upd).satisfiesChecks) checkViolation
    let rows := Table.update (fun r => r.id == id && r.orgId == org) (fun r => r.patch upd) inv.rows
    return ({ inv with rows := rows }, some (r.patch upd))

/-- Replaces the regions of a target; `false` if there is none. -/
def setTargetRegions (inv : Inventory) (org : OrgId) (id : Uuid) (regions : List String) :
    Inventory × Bool :=
  if (inv.get org id).isSome then
    ({ inv with
      regions := (inv.regions.filter fun a => a.1 != id) ++ regions.map fun r => (id, r) }, true)
  else (inv, false)

/-! ## What each write does -/

variable {inv inv' : Inventory} {defaultRegion : String} {org : OrgId} {items : List NewTarget}
  {policy : NewTarget → RegionIncidentPolicy} {upd : TargetUpdate} {row : Option TargetRow}
  {regions : List String}

theorem insertAll_ok {account : OrgId → Uuid} {maxTargets maxFlowChecks : Int}
    {rows : List TargetRow}
    (h : inv.insertAll account defaultRegion org items policy maxTargets maxFlowChecks =
      .ok (inv', rows)) :
    rows = items.mapIdx (fun i new => rowOf (inv.nextId + i) org new (policy new)) ∧
      (∀ r ∈ rows, r.satisfiesChecks = true) ∧ inv' = inv.insertRows defaultRegion rows := by
  obtain ⟨-, h⟩ := seq_eq_ok.1 h
  obtain ⟨hchecks, ⟨⟩⟩ := seq_eq_ok.1 h
  refine ⟨rfl, ?_, rfl⟩
  simpa using hchecks

theorem update_ok {id : Uuid} (h : inv.update org id upd = .ok (inv', row)) :
    (inv.get org id = none ∧ inv' = inv ∧ row = none) ∨
    ∃ r, inv.get org id = some r ∧ (r.patch upd).satisfiesChecks = true ∧
      row = some (r.patch upd) ∧
      inv' = { inv with
        rows := Table.update (fun r => r.id == id && r.orgId == org) (fun r => r.patch upd)
          inv.rows } := by
  unfold update at h
  split at h
  · next hget =>
    cases h
    exact .inl ⟨hget, rfl, rfl⟩
  · next r hget =>
    obtain ⟨hchecks, ⟨⟩⟩ := seq_eq_ok.1 h
    rw [refuseIf_eq_ok, Bool.not_eq_false'] at hchecks
    exact .inr ⟨r, hget, hchecks, rfl, rfl⟩

theorem mem_setTargetRegions {id : Uuid} {a : Uuid × String}
    (h : a ∈ (inv.setTargetRegions org id regions).1.regions) :
    a ∈ inv.regions ∨ (a.1 = id ∧ (inv.get org id).isSome = true) := by
  unfold setTargetRegions at h
  split at h
  · next hsome =>
    rcases List.mem_append.mp h with h | h
    · exact .inl (List.mem_of_mem_filter h)
    · obtain ⟨region, -, rfl⟩ := List.mem_map.mp h
      exact .inr ⟨rfl, hsome⟩
  · exact .inl h

@[simp] theorem setTargetRegions_rows (inv : Inventory) (org : OrgId) (id : Uuid)
    (regions : List String) : (inv.setTargetRegions org id regions).1.rows = inv.rows := by
  unfold setTargetRegions
  split <;> rfl

@[simp] theorem setTargetRegions_nextId (inv : Inventory) (org : OrgId) (id : Uuid)
    (regions : List String) : (inv.setTargetRegions org id regions).1.nextId = inv.nextId := by
  unfold setTargetRegions
  split <;> rfl

/-! ## Ids -/

/-- Ids are given out once, and only a target that exists is assigned regions. -/
structure Keyed (inv : Inventory) : Prop where
  unique : ∀ r ∈ inv.rows, ∀ r' ∈ inv.rows, r.id = r'.id → r = r'
  fresh : ∀ r ∈ inv.rows, r.id < inv.nextId
  assigned : ∀ a ∈ inv.regions, a.1 < inv.nextId

theorem keyed_start : Keyed start := by
  constructor <;> simp [start]

theorem Keyed.get_unique (h : Keyed inv) {id : Uuid} {r r' : TargetRow}
    (hget : inv.get org id = some r) (hr' : r' ∈ inv.rows) (hid : r'.id = id) :
    r' = r :=
  have hr := get_some hget
  h.unique r' hr' r hr.1 (hid.trans hr.2.1.symm)

theorem Keyed.insertRows (h : Keyed inv) :
    Keyed (inv.insertRows defaultRegion
      (items.mapIdx fun i new => rowOf (inv.nextId + i) org new (policy new))) := by
  have hnew : ∀ r ∈ items.mapIdx (fun i new => rowOf (inv.nextId + i) org new (policy new)),
      ∃ (i : Nat) (hi : i < items.length),
        r = rowOf (inv.nextId + i) org (items.get ⟨i, hi⟩) (policy (items.get ⟨i, hi⟩)) := by
    intro r hr
    obtain ⟨i, hi, rfl⟩ := List.mem_mapIdx.mp hr
    exact ⟨i, hi, rfl⟩
  constructor
  · intro r hr r' hr' hid
    rcases List.mem_append.mp hr with hr | hr <;> rcases List.mem_append.mp hr' with hr' | hr'
    · exact h.unique r hr r' hr' hid
    · obtain ⟨i, hi, rfl⟩ := hnew r' hr'
      exact absurd hid (Nat.ne_of_lt (Nat.lt_add_right i (h.fresh r hr)))
    · obtain ⟨i, hi, rfl⟩ := hnew r hr
      exact absurd hid.symm (Nat.ne_of_lt (Nat.lt_add_right i (h.fresh r' hr')))
    · obtain ⟨i, hi, rfl⟩ := hnew r hr
      obtain ⟨j, hj, rfl⟩ := hnew r' hr'
      obtain rfl : i = j := Nat.add_left_cancel hid
      rfl
  · intro r hr
    simp only [Inventory.insertRows, List.length_mapIdx]
    rcases List.mem_append.mp hr with hr | hr
    · exact Nat.lt_add_right _ (h.fresh r hr)
    · obtain ⟨i, hi, rfl⟩ := hnew r hr
      exact Nat.add_lt_add_left hi _
  · intro a ha
    simp only [Inventory.insertRows, List.length_mapIdx] at ha ⊢
    rcases List.mem_append.mp ha with ha | ha
    · exact Nat.lt_add_right _ (h.assigned a ha)
    · obtain ⟨r, hr, rfl⟩ := List.mem_map.mp ha
      obtain ⟨i, hi, rfl⟩ := hnew r hr
      exact Nat.add_lt_add_left hi _

theorem Keyed.update (h : Keyed inv) {id : Uuid} (heq : inv.update org id upd = .ok (inv', row)) :
    Keyed inv' := by
  rcases update_ok heq with ⟨-, rfl, -⟩ | ⟨r, -, -, -, rfl⟩
  · exact h
  · have hrow : ∀ r ∈ Table.update (fun r => r.id == id && r.orgId == org) (fun r => r.patch upd)
        inv.rows, ∃ r₀ ∈ inv.rows, r₀.id = r.id ∧
          r = if r₀.id == id && r₀.orgId == org then r₀.patch upd else r₀ := by
      intro r hr
      obtain ⟨r₀, hr₀, rfl⟩ := List.mem_map.mp hr
      refine ⟨r₀, hr₀, ?_, rfl⟩
      split <;> rfl
    constructor
    · intro r hr r' hr' hid
      obtain ⟨r₀, hr₀, hid₀, rfl⟩ := hrow r hr
      obtain ⟨r₁, hr₁, hid₁, rfl⟩ := hrow r' hr'
      rw [h.unique r₀ hr₀ r₁ hr₁ (by rw [hid₀, hid₁, hid])]
    · intro r hr
      obtain ⟨r₀, hr₀, hid₀, -⟩ := hrow r hr
      rw [← hid₀]
      exact h.fresh r₀ hr₀
    · exact h.assigned

theorem Keyed.setTargetRegions (h : Keyed inv) {id : Uuid} :
    Keyed (inv.setTargetRegions org id regions).1 := by
  constructor
  · rw [setTargetRegions_rows]
    exact h.unique
  · rw [setTargetRegions_rows, setTargetRegions_nextId]
    exact h.fresh
  · intro a ha
    rw [setTargetRegions_nextId]
    rcases mem_setTargetRegions ha with ha | ⟨hid, hsome⟩
    · exact h.assigned a ha
    · obtain ⟨r, hr⟩ := Option.isSome_iff_exists.mp hsome
      have hr := get_some hr
      rw [hid, ← hr.2.1]
      exact h.fresh r hr.1

end Inventory

end Uptimepage.Targets
