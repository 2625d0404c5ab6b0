import Uptimepage.Targets.Inventory

/-!
# The target endpoints

`handlers/targets`: create, bulk create, PATCH and the region set, each as the checks it makes
in the source's order and the writes it then does.
-/

namespace Uptimepage.Targets

/-- What does not change while the process runs. -/
structure Config where
  check : CheckEnv
  flowEnabled : Bool
  defaultRegion : String

/-- What the rest of the database answers one request. -/
structure World where
  plan : OrgId → Plan
  account : OrgId → Uuid
  channels : OrgId → List Uuid
  members : OrgId → List UserId
  availableRegions : List String
  defaultSelectedRegions : List String
  flowCapableRegions : List String
  abuse : CheckSpec → Option AppError
  variableRefs : OrgId → CheckSpec → Except AppError Unit

/-! ## Gates -/

def checkAbuse (w : World) (check : CheckSpec) : Except AppError Unit :=
  match w.abuse check with
  | some hit => .error hit
  | none => .ok ()

def FlowCheck.allowedSteps (planMax : Int) : Nat := min (max planMax 1).toNat FlowCheck.maxSteps

def gateFlow (check : CheckSpec) (plan : Plan) : Except AppError Unit :=
  match check with
  | .flow flow => do
    refuseIf (decide (plan.maxFlowChecks ≤ 0))
      ⟨.forbidden, "FLOW_CHECKS_DISABLED", "flow monitors are not available on your plan", none⟩
    let allowed := FlowCheck.allowedSteps plan.maxFlowSteps
    refuseIf (decide (allowed < flow.steps.length)) <|
      .badRequestField "INVALID_FLOW_PARAMS"
        s!"your plan allows at most {allowed} steps in a flow monitor" "check.steps"
  | _ => .ok ()

def checkPooled (quota : String) (current n limit : Int) (plan : Plan) : Except AppError Unit :=
  refuseIf (decide (limit < current + n)) (.quotaExceeded quota current limit plan.id)

def checkCanCreateTargets (w : World) (inv : Inventory) (org : OrgId) (n : Nat) :
    Except AppError Unit :=
  checkPooled "max_targets" (inv.countTargets w.account (w.account org)) n (w.plan org).maxTargets
    (w.plan org)

def checkCanCreateFlow (w : World) (inv : Inventory) (org : OrgId) (n : Nat) :
    Except AppError Unit :=
  checkPooled "max_flow_checks" (inv.countFlow w.account (w.account org)) n
    (w.plan org).maxFlowChecks (w.plan org)

def verifyAlertChannels (w : World) (org : OrgId) (alerts : List Uuid) : Except AppError Unit :=
  match alerts.find? fun id => !(w.channels org).contains id with
  | some missing =>
    .error (.badRequestField "INVALID_ALERT_CONFIG"
      s!"notification channel {missing} does not exist" "alerts.channel_id")
  | none => .ok ()

def validateOwnerIsMember (w : World) (org : OrgId) (owner : Option UserId) :
    Except AppError Unit :=
  match owner with
  | none => .ok ()
  | some uid =>
    refuseIf (!(w.members org).contains uid) <|
      .badRequestField "OWNER_NOT_MEMBER" s!"owner_user_id {uid} is not a member of this org"
        "owner_user_id"

def maxQuorum : Nat := 64

def validateRegionPolicy (policy : Option RegionIncidentPolicy) (regionCount : Nat) :
    Except AppError Unit :=
  let most := min (max regionCount 1) maxQuorum
  match policy with
  | some (.count n) =>
    refuseIf (!(decide (1 ≤ n) && decide (n ≤ most))) <|
      .unprocessable "INVALID_REGION_POLICY" s!"region count must be between 1 and {most}"
  | _ => .ok ()

/-! ## Regions -/

/-- Agents that report the capability, and the control plane's own region. -/
def flowCapableSet (cfg : Config) (agents : List String) : List String :=
  if cfg.flowEnabled then cfg.defaultRegion :: agents else agents

/-- Some region of the set can run a flow. -/
def covered (capable regions : List String) : Bool := regions.any capable.contains

def ensureFlowRegionsCovered (cfg : Config) (w : World) (check : CheckSpec)
    (regions : List String) : Except AppError Unit :=
  refuseIf (check.isFlow && !covered (flowCapableSet cfg w.flowCapableRegions) regions) <|
    .unprocessable "NO_FLOW_CAPABLE_AGENT"
      ("no flow-capable agent runs in this monitor's region; enable the flow " ++
        "engine on an agent there before creating the monitor")

def flowRestrictRegions (cfg : Config) (w : World) (check : CheckSpec)
    (available : List String) : List String :=
  if check.isFlow then available.filter (flowCapableSet cfg w.flowCapableRegions).contains
  else available

/-- At most `cap` of the preferred regions, the default one first if it is among them. -/
def defaultRegionSet (preferred : List String) (maxRegions : Int) (defaultRegion : String) :
    List String :=
  let cap := (max maxRegions 1).toNat
  let set :=
    if preferred.length ≤ cap then preferred
    else
      let lead := if preferred.contains defaultRegion then [defaultRegion] else []
      lead ++ (preferred.filter (· != defaultRegion)).take (cap - lead.length)
  if set.isEmpty then [defaultRegion] else set

/-- `sort`, then `dedup`. -/
def normalizeRegionIds (requested : List String) : Except AppError (List String) := do
  let regions :=
    (((requested.map trim).filter (· != "")).insertionSort (· ≤ ·)).destutter (· ≠ ·)
  refuseIf regions.isEmpty (.unprocessable "REGION_INVALID" "at least one region is required")
  return regions

def vetRequestedRegions (w : World) (org : OrgId) (requested : List String) :
    Except AppError (List String) := do
  let regions ← normalizeRegionIds requested
  let limit := (w.plan org).maxRegions
  refuseIf (decide (limit < regions.length)) <|
    .quotaExceeded "max_regions" regions.length limit (w.plan org).id
  match regions.find? fun r => !w.availableRegions.contains r with
  | some bad => .error (.unprocessable "REGION_INVALID" s!"unknown or disabled region: {bad}")
  | none => return regions

def passiveRegionError : AppError :=
  .unprocessable "REGION_INVALID" "heartbeat monitors receive pings; they are not probed from regions"

/-- The regions a caller named, all of which must be able to run a flow. -/
def namedRegions (cfg : Config) (w : World) (org : OrgId) (check : CheckSpec)
    (requested : List String) : Except AppError (List String) := do
  refuseIf check.isPassive passiveRegionError
  let named ← vetRequestedRegions w org requested
  let capable := flowCapableSet cfg w.flowCapableRegions
  match if check.isFlow then named.find? fun r => !capable.contains r else none with
  | some bad =>
    .error (.unprocessable "NO_FLOW_CAPABLE_AGENT"
      (s!"no flow-capable agent runs in {bad}; drop it from the region set " ++
        "or enable the flow engine on an agent there"))
  | none => return named

/-- A flow falls back on the whole catalog when no default region can run it. -/
def preferredRegions (cfg : Config) (w : World) (check : CheckSpec) : List String :=
  let preferred := flowRestrictRegions cfg w check w.defaultSelectedRegions
  if preferred.isEmpty && check.isFlow then flowRestrictRegions cfg w check w.availableRegions
  else preferred

def resolveCreateRegions (cfg : Config) (w : World) (org : OrgId) (check : CheckSpec)
    (requested : Option (List String)) : Except AppError (List String) := do
  let regions ←
    match requested with
    | some requested => namedRegions cfg w org check requested
    | none =>
      .ok (defaultRegionSet (preferredRegions cfg w check) (w.plan org).maxRegions
        cfg.defaultRegion)
  ensureFlowRegionsCovered cfg w check regions
  return regions

/-! ## Writes after the insert -/

inductive FollowUp
  | regions (id : Uuid) (regions : List String)
  | policy (id : Uuid) (policy : RegionIncidentPolicy)
deriving DecidableEq

/-- The PATCH that changes the region policy only. -/
def TargetUpdate.ofPolicy (policy : RegionIncidentPolicy) : TargetUpdate :=
  ⟨none, none, none, none, some policy, none, none, none, none, none, none, none⟩

def Inventory.followUp (inv : Inventory) (org : OrgId) : FollowUp → Inventory
  | .regions id regions => (inv.setTargetRegions org id regions).1
  | .policy id policy =>
    match inv.update org id (.ofPolicy policy) with
    | .ok (inv, _) => inv
    | .error _ => inv

/-- The first `landed` of the writes, all of them when the database does not fail. -/
def Inventory.followUps (inv : Inventory) (org : OrgId) (writes : List FollowUp)
    (landed : Option Nat) : Inventory :=
  (writes.take (landed.getD writes.length)).foldl (fun inv write => inv.followUp org write) inv

/-! ## Create -/

def vetNewTarget (cfg : Config) (w : World) (inv : Inventory) (org : OrgId) (new : NewTarget) :
    Except AppError NewTarget := do
  let check ← canonicalizeCheck cfg.check new.check
  let vetted ← validateNewTarget cfg.check (w.plan org) { new with check := check }
  validateRegionPolicy vetted.regionPolicy w.availableRegions.length
  checkAbuse w vetted.check
  w.variableRefs org vetted.check
  checkCanCreateTargets w inv org 1
  return vetted

/-- `create`, up to the first write. -/
def vetCreate (cfg : Config) (w : World) (inv : Inventory) (org : OrgId) (new : NewTarget) :
    Except AppError (NewTarget × List String) := do
  let check ← canonicalizeCheck cfg.check new.check
  gateFlow check (w.plan org)
  let vetted ← vetNewTarget cfg w inv org { new with check := check }
  verifyAlertChannels w org vetted.alerts
  validateOwnerIsMember w org vetted.ownerUserId
  if vetted.check.isFlow then checkCanCreateFlow w inv org 1
  let regions ← resolveCreateRegions cfg w org vetted.check none
  return (vetted, regions)

/-- A passive monitor keeps the region it is seeded with. -/
def createWrites (regions : List String) (rows : List TargetRow) : List FollowUp :=
  (rows.filter fun r => !r.check.isPassive).map fun r => .regions r.id regions

/-! ## Bulk create -/

def bulkMax : Nat := 10000

def vetItem (cfg : Config) (w : World) (org : OrgId) (new : NewTarget) :
    Except AppError NewTarget := do
  let check ← canonicalizeCheck cfg.check new.check
  gateFlow check (w.plan org)
  let vetted ← validateNewTarget cfg.check (w.plan org) { new with check := check }
  validateRegionPolicy vetted.regionPolicy w.availableRegions.length
  verifyAlertChannels w org vetted.alerts
  checkAbuse w vetted.check
  w.variableRefs org vetted.check
  return vetted

def vetItems (cfg : Config) (w : World) (org : OrgId) :
    List NewTarget → Except AppError (List NewTarget)
  | [] => .ok []
  | new :: rest => do
    let vetted ← vetItem cfg w org new
    let others ← vetItems cfg w org rest
    return vetted :: others

def validateOwners (w : World) (org : OrgId) : List NewTarget → Except AppError Unit
  | [] => .ok ()
  | new :: rest => do
    validateOwnerIsMember w org new.ownerUserId
    validateOwners w org rest

def ensureItemsCovered (cfg : Config) (w : World) (regions : List String) :
    List NewTarget → Except AppError Unit
  | [] => .ok ()
  | new :: rest => do
    ensureFlowRegionsCovered cfg w new.check regions
    ensureItemsCovered cfg w regions rest

/-- `bulk_create`, up to the first write. -/
def vetBulk (cfg : Config) (w : World) (inv : Inventory) (org : OrgId) (items : List NewTarget) :
    Except AppError (List NewTarget × List String) := do
  refuseIf items.isEmpty ⟨.badRequest, "BULK_EMPTY", "empty bulk payload", none⟩
  refuseIf (decide (bulkMax < items.length))
    ⟨.payloadTooLarge, "BULK_TOO_LARGE", s!"bulk size {items.length} exceeds max {bulkMax}", none⟩
  let vetted ← vetItems cfg w org items
  validateOwners w org vetted
  checkCanCreateTargets w inv org vetted.length
  let regions :=
    defaultRegionSet w.defaultSelectedRegions (w.plan org).maxRegions cfg.defaultRegion
  ensureItemsCovered cfg w regions vetted
  let flowCount := vetted.countP fun new => new.check.isFlow
  if 0 < flowCount then checkCanCreateFlow w inv org flowCount
  return (vetted, regions)

/-- A flow gets the capable subset. -/
def assignedRegions (cfg : Config) (w : World) (regions : List String) (check : CheckSpec) :
    List String :=
  if check.isFlow then regions.filter (flowCapableSet cfg w.flowCapableRegions).contains
  else regions

/-- What the insert seeded is not written again. -/
def regionWrites (defaultRegion : String) (id : Uuid) (assigned : List String) : List FollowUp :=
  if assigned.isEmpty || assigned == [defaultRegion] then [] else [.regions id assigned]

def policyWrites (id : Uuid) : Option RegionIncidentPolicy → List FollowUp
  | some policy => [.policy id policy]
  | none => []

def bulkWrites (cfg : Config) (w : World) (regions : List String) :
    List TargetRow → List NewTarget → List FollowUp
  | row :: rows, new :: items =>
    regionWrites cfg.defaultRegion row.id (assignedRegions cfg w regions row.check) ++
      (policyWrites row.id new.regionPolicy ++ bulkWrites cfg w regions rows items)
  | _, _ => []

/-! ## PATCH -/

/-- The check of a PATCH with what it carries over from the stored one. -/
def mergeStored (check : CheckSpec) (stored : Option TargetRow) : CheckSpec :=
  match check with
  | .http http =>
    let (http, clearedBasic, clearedBearer) := takeClearedCredentials http
    let (carryBasic, carryBearer) := carryFlags http clearedBasic clearedBearer
    match stored.map TargetRow.check with
    | some (.http old) =>
      if carryBasic || carryBearer then .http (carryCredentials http old carryBasic carryBearer)
      else .http http
    | _ => .http http
  | .flow flow =>
    match stored.map TargetRow.check with
    | some (.flow old) => .flow (carryFlowSecrets flow old)
    | _ => .flow flow
  | check => check

/-- Only a net-new flow is gated and counted. -/
def gateNewFlow (w : World) (inv : Inventory) (org : OrgId) (check : CheckSpec)
    (stored : Option TargetRow) : Except AppError Unit :=
  if stored.any fun r => r.check.isFlow then .ok ()
  else do
    gateFlow check (w.plan org)
    checkCanCreateFlow w inv org 1

def ensurePatchCovered (cfg : Config) (w : World) (inv : Inventory) (org : OrgId) (id : Uuid)
    (check : CheckSpec) : Except AppError Unit :=
  match inv.regionsForTarget org id with
  | some regions => ensureFlowRegionsCovered cfg w check regions
  | none => .ok ()

def vetUpdateCheck (cfg : Config) (w : World) (inv : Inventory) (org : OrgId) (id : Uuid)
    (check : CheckSpec) : Except AppError CheckSpec := do
  let canonical ← canonicalizeCheck cfg.check check
  let merged := mergeStored canonical (inv.get org id)
  validateCheck cfg.check merged
  checkAbuse w merged
  w.variableRefs org merged
  if merged.isFlow then do
    gateNewFlow w inv org merged (inv.get org id)
    ensurePatchCovered cfg w inv org id merged
  return merged

/-- The floor and the cadence, on the merge of the request and the row; `prefetched` is the row
if it has been read. -/
def validatePatchInterval (w : World) (inv : Inventory) (org : OrgId) (id : Uuid)
    (upd : TargetUpdate) (prefetched : Option TargetRow) : Except AppError Unit :=
  if upd.interval.isNone && upd.check.isNone then .ok ()
  else
    let needsRow := upd.interval.isNone || upd.check.isNone
    let stored := prefetched.or (if needsRow then inv.get org id else none)
    match (upd.interval.map asI64).or (stored.map fun r => asI64 r.interval) with
    | none => .ok ()
    | some requested =>
      let kind := (upd.check.or (stored.map fun r => r.check)).map fun c => c.kind
      let floor := max (w.plan org).minCheckIntervalSecs
        (kind.elim 0 fun k => (minIntervalSecsForKind k : Int))
      do
        refuseIf (decide (requested < floor)) (.minCheckInterval requested floor (w.plan org).id)
        match upd.check.or (stored.map fun r => r.check) with
        | some check => validateHeartbeatCadence check (max requested 0).toNat
        | none => .ok ()

/-- A check that is there is made, and replaces what it was made on. -/
def onSome {α : Type} (x : Option α) (f : α → Except AppError α) : Except AppError (Option α) :=
  match x with
  | none => .ok none
  | some a => do
    let b ← f a
    return some b

/-- `update`, up to the write. -/
def vetUpdate (cfg : Config) (w : World) (inv : Inventory) (org : OrgId) (id : Uuid)
    (upd : TargetUpdate) : Except AppError TargetUpdate := do
  let check ← onSome upd.check (vetUpdateCheck cfg w inv org id)
  let alerts ← onSome upd.alerts fun alerts => do
    validateAlerts alerts
    verifyAlertChannels w org alerts
    return alerts
  let tags ← onSome upd.tags normalizeTags
  validateAlertConfirmations upd.alertConfirmations
  validateRenotifyInterval upd.renotifyIntervalSecs
  validateRegionPolicy upd.regionPolicy w.availableRegions.length
  validateGroupName (upd.groupName.getD none)
  validateOwnerIsMember w org (upd.ownerUserId.getD none)
  let vetted := { upd with check := check, alerts := alerts, tags := tags }
  let prefetched := if check.any CheckSpec.isFlow then inv.get org id else none
  validatePatchInterval w inv org id vetted prefetched
  return vetted

/-! ## Requests -/

inductive Request
  | create (org : OrgId) (new : NewTarget) (landed : Option Nat)
  | bulkCreate (org : OrgId) (items : List NewTarget) (landed : Option Nat)
  | update (org : OrgId) (id : Uuid) (update : TargetUpdate)
  | setTargetRegions (org : OrgId) (id : Uuid) (regions : List String)
deriving DecidableEq

/-- The database takes every write. -/
def Request.undisturbed : Request → Bool
  | .create _ _ landed | .bulkCreate _ _ landed => landed.isNone
  | _ => true

def targetNotFound : AppError := ⟨.notFound, "TARGET_NOT_FOUND", "target not found", none⟩

def handleCreate (cfg : Config) (w : World) (inv : Inventory) (org : OrgId) (new : NewTarget)
    (landed : Option Nat) : Except AppError Inventory := do
  let (vetted, regions) ← vetCreate cfg w inv org new
  let (created, rows) ← inv.create w.account cfg.defaultRegion org vetted (w.plan org).maxTargets
    (w.plan org).maxFlowChecks
  return created.followUps org (createWrites regions rows) landed

def handleBulkCreate (cfg : Config) (w : World) (inv : Inventory) (org : OrgId)
    (items : List NewTarget) (landed : Option Nat) : Except AppError Inventory := do
  let (vetted, regions) ← vetBulk cfg w inv org items
  let (created, rows) ← inv.bulkCreate w.account cfg.defaultRegion org vetted
    (w.plan org).maxTargets (w.plan org).maxFlowChecks
  return created.followUps org (bulkWrites cfg w regions rows vetted) landed

def handleUpdate (cfg : Config) (w : World) (inv : Inventory) (org : OrgId) (id : Uuid)
    (upd : TargetUpdate) : Except AppError Inventory := do
  let vetted ← vetUpdate cfg w inv org id upd
  let (updated, row) ← inv.update org id vetted
  refuseIf row.isNone targetNotFound
  return updated

def handleSetTargetRegions (w : World) (inv : Inventory) (org : OrgId) (id : Uuid)
    (requested : List String) : Except AppError Inventory :=
  match inv.get org id with
  | none => .error targetNotFound
  | some target => do
    refuseIf target.check.isPassive passiveRegionError
    let regions ← vetRequestedRegions w org requested
    let (assigned, found) := inv.setTargetRegions org id regions
    refuseIf (!found) targetNotFound
    return assigned

/-- The state a request leaves; one that is refused leaves it as it is. -/
def handle (cfg : Config) (w : World) (inv : Inventory) : Request → Except AppError Inventory
  | .create org new landed => handleCreate cfg w inv org new landed
  | .bulkCreate org items landed => handleBulkCreate cfg w inv org items landed
  | .update org id upd => handleUpdate cfg w inv org id upd
  | .setTargetRegions org id regions => handleSetTargetRegions w inv org id regions

/-! ## What an accepted request did -/

variable {cfg : Config} {w : World} {inv : Inventory} {org : OrgId} {regions : List String}

theorem vetCreate_ok {new vetted : NewTarget}
    (h : vetCreate cfg w inv org new = .ok (vetted, regions)) :
    ∃ check, canonicalizeCheck cfg.check new.check = .ok check ∧
      vetNewTarget cfg w inv org { new with check := check } = .ok vetted ∧
      resolveCreateRegions cfg w org vetted.check none = .ok regions := by
  obtain ⟨check, hcanonical, h⟩ := bind_eq_ok.1 h
  obtain ⟨-, h⟩ := seq_eq_ok.1 h
  obtain ⟨result, hresult, h⟩ := bind_eq_ok.1 h
  simp only [seq_eq_ok] at h
  obtain ⟨-, -, h⟩ := h
  obtain ⟨resolved, hresolved, hpair⟩ :
      ∃ r, resolveCreateRegions cfg w org result.check none = .ok r ∧
        (.ok (result, r) : Except AppError (NewTarget × List String)) = .ok (vetted, regions) := by
    split at h
    · exact bind_eq_ok.1 (seq_eq_ok.1 h).2
    · exact bind_eq_ok.1 h
  cases hpair
  exact ⟨check, hcanonical, hresult, hresolved⟩

theorem vetBulk_ok {items vetted : List NewTarget}
    (h : vetBulk cfg w inv org items = .ok (vetted, regions)) :
    vetItems cfg w org items = .ok vetted ∧
      regions = defaultRegionSet w.defaultSelectedRegions (w.plan org).maxRegions
        cfg.defaultRegion ∧
      ensureItemsCovered cfg w regions vetted = .ok () := by
  obtain ⟨-, h⟩ := seq_eq_ok.1 h
  obtain ⟨-, h⟩ := seq_eq_ok.1 h
  obtain ⟨result, hresult, h⟩ := bind_eq_ok.1 h
  simp only [seq_eq_ok] at h
  obtain ⟨-, -, hcovered, h⟩ := h
  split at h
  · obtain ⟨-, ⟨⟩⟩ := seq_eq_ok.1 h
    exact ⟨hresult, rfl, hcovered⟩
  · cases h
    exact ⟨hresult, rfl, hcovered⟩

theorem handleSetTargetRegions_ok {next : Inventory} {id : Uuid} {requested : List String}
    (h : handleSetTargetRegions w inv org id requested = .ok next) :
    ∃ target regions, inv.get org id = some target ∧
      vetRequestedRegions w org requested = .ok regions ∧
      next = (inv.setTargetRegions org id regions).1 := by
  unfold handleSetTargetRegions at h
  split at h
  · cases h
  · next target hget =>
    obtain ⟨-, h⟩ := seq_eq_ok.1 h
    obtain ⟨regions, hregions, h⟩ := bind_eq_ok.1 h
    obtain ⟨-, ⟨⟩⟩ := seq_eq_ok.1 h
    exact ⟨target, regions, hget, hregions, rfl⟩

/-- One request after another. -/
def step (cfg : Config) (inv : Inventory) (call : World × Request) : Option Inventory :=
  match handle cfg call.1 inv call.2 with
  | .ok next => some next
  | .error _ => some inv

end Uptimepage.Targets
