import Mathlib.Data.Prod.Lex
import Uptimepage.Quotas.Plan
import Uptimepage.Sql.Null
import Uptimepage.Sql.Rank

/-!
# Plan holds

What an account keeps when its plan no longer covers everything it has (`quotas/holds.rs`).  The
statements that move holds compute the whole held set from the pool, which has no hold in it: a
`HoldRule` is what a table's pool is held by, and when a cap of it is exceeded.
-/

namespace Uptimepage.Holds

open Sql

/-! ## Rows -/

/-- A row of `targets` or `status_pages`; `kind` is what only a target has. -/
structure Row (κ : Type) where
  id : Uuid
  orgId : OrgId
  name : String
  kind : κ
  enabled : Bool
  createdAt : Time
  planHoldAt : Option Time
  planKeep : Bool
  updatedAt : Time
deriving DecidableEq

abbrev TargetRow := Row (Option String)

abbrev StatusPageRow := Row Unit

abbrev HoldTable (κ : Type) := Rows (@Row.id κ)

/-- The columns of `pool`. -/
structure PoolRow (κ : Type) where
  id : Uuid
  orgId : OrgId
  name : String
  createdAt : Time
  enabled : Bool
  kind : κ
  kept : Bool
deriving DecidableEq

structure Moved where
  id : Uuid
  orgId : OrgId
  name : String
  held : Bool
deriving DecidableEq

/-- A row of `org_audit_log`, its metadata last. -/
structure AuditRow where
  orgId : OrgId
  actorId : Option UserId
  action : String
  occurredAt : Time
  count : Nat
  items : List (Uuid × String)
  truncated : Bool
deriving DecidableEq

structure Db extends Accounts where
  targets : HoldTable (Option String)
  statusPages : HoldTable Unit
  orgAuditLog : List AuditRow

def Accounts.liveOrgs (db : Accounts) (account : AccountId) : List OrgId :=
  (db.organizations.rows.filter fun o => o.accountId == account && o.deletedAt.isNone).map OrgRow.id

section Pool
variable {κ : Type}

def Row.held (r : Row κ) : Bool := r.planHoldAt.isSome

def Row.poolRow (r : Row κ) : PoolRow κ :=
  ⟨r.id, r.orgId, r.name, r.createdAt, r.enabled, r.kind, r.planKeep⟩

/-- `ORDER BY kept DESC, enabled DESC, created_at ASC, id ASC`. -/
def PoolRow.order (r : PoolRow κ) : Bool ×ₗ Bool ×ₗ Time ×ₗ Uuid :=
  toLex (!r.kept, toLex (!r.enabled, toLex (r.createdAt, r.id)))

def pool (orgs : List OrgId) (t : HoldTable κ) : List (PoolRow κ) :=
  (t.rows.filter fun r => orgs.contains r.orgId).map Row.poolRow

/-- `coalesce(bool_or(kept), false)`. -/
def picked (pool : List (PoolRow κ)) : Bool := pool.any PoolRow.kept

end Pool

/-! ## Targets -/

def isFlow (r : PoolRow (Option String)) : Option Bool := r.kind.map fun kind => kind == "flow"

def flows (pool : List (PoolRow (Option String))) : Nat := pool.countP fun r => isFlow r = some true

section Targets
variable (plan : Plan) (pool : List (PoolRow (Option String)))

def overTargets : Bool := decide ((pool.length : Int) > plan.caps .maxTargets)

def overFlows : Bool := decide ((flows pool : Int) > plan.maxFlowChecks)

def flowRank (r : PoolRow (Option String)) : Option Nat :=
  if isFlow r = some true then some (rowNumber isFlow PoolRow.order pool r) else none

/-- `coalesce(flow_rank > $2, false)`. -/
def flowHeld (r : PoolRow (Option String)) : Bool :=
  match flowRank pool r with
  | some k => decide ((k : Int) > plan.maxFlowChecks)
  | none => false

def targetRank (r : PoolRow (Option String)) : Nat :=
  rowNumber (flowHeld plan pool) PoolRow.order pool r

/-- `want.hold` of a row. -/
def holdTarget (r : PoolRow (Option String)) : Option Bool :=
  or3 (or3 (some (flowHeld plan pool r))
      (some (decide ((targetRank plan pool r : Int) > plan.caps .maxTargets))))
    (and3 (some (picked pool && !r.kept))
      (or3 (some (overTargets plan pool)) (and3 (isFlow r) (some (overFlows plan pool)))))

end Targets

/-! ## Status pages -/

section Pages
variable (plan : Plan) (pool : List (PoolRow Unit))

def overPages : Bool := decide ((pool.length : Int) > plan.caps .maxStatusPages)

def holdPage (r : PoolRow Unit) : Option Bool :=
  some (decide ((rank PoolRow.order pool r : Int) > plan.caps .maxStatusPages) ||
    (picked pool && overPages plan pool && !r.kept))

end Pages

/-! ## Reconciling a table -/

/-- What holds the rows of a pool, and when it is over a cap: only then is anything held, and
forgetting a pick does not matter to it. -/
structure HoldRule (κ : Type) where
  hold : List (PoolRow κ) → PoolRow κ → Option Bool
  exceeds : List (PoolRow κ) → Bool
  fits : ∀ pool, exceeds pool = false → ∀ r ∈ pool, hold pool r = some false
  over_forget : ∀ pool, exceeds (pool.map fun r => { r with kept := false }) = exceeds pool

section Table
variable {κ : Type}

/-- The new hold of a row that the statement updates; the row of `want` with its id is its own. -/
def move? (rule : HoldRule κ) (orgs : List OrgId) (t : HoldTable κ) (r : Row κ) : Option Bool :=
  if orgs.contains r.orgId then (rule.hold (pool orgs t) r.poolRow).filter fun h => h != r.held
  else none

def setHold (rule : HoldRule κ) (orgs : List OrgId) (now : Time) (t : HoldTable κ) (r : Row κ) :
    Row κ :=
  { r with
    planHoldAt := if move? rule orgs t r = some true then some now else none
    updatedAt := now }

def reconcileTable (rule : HoldRule κ) (orgs : List OrgId) (now : Time) (t : HoldTable κ) :
    HoldTable κ :=
  t.update (fun r => (move? rule orgs t r).isSome) (setHold rule orgs now t) fun _ => rfl

/-- `RETURNING`. -/
def moved (rule : HoldRule κ) (orgs : List OrgId) (t : HoldTable κ) : List Moved :=
  t.rows.filterMap fun r => (move? rule orgs t r).map fun held => ⟨r.id, r.orgId, r.name, held⟩

/-- Drops a pick once its plan covers the whole pool again. -/
def forgetSpentPick (rule : HoldRule κ) (orgs : List OrgId) (t : HoldTable κ) : HoldTable κ :=
  t.update (fun r => orgs.contains r.orgId && r.planKeep && !rule.exceeds (pool orgs t))
    (fun r => { r with planKeep := false }) fun _ => rfl

end Table

/-! ## Reconciling an account -/

theorem length_over_forget {κ : Type} (pool : List (PoolRow κ)) :
    (pool.map fun r => { r with kept := false }).length = pool.length := List.length_map _

theorem flowHeld_of_fits {plan : Plan} {pool : List (PoolRow (Option String))}
    (h : overFlows plan pool = false) (r : PoolRow (Option String)) :
    flowHeld plan pool r = false := by
  have hcap := of_decide_eq_false h
  unfold flowHeld
  cases hrank : flowRank pool r with
  | none => rfl
  | some k =>
    unfold flowRank at hrank
    split at hrank
    · next hflow =>
      have hle : rowNumber isFlow PoolRow.order pool r ≤ _ := rowNumber_le_countP pool r
      rw [Option.some.inj hrank, hflow] at hle
      have hle : k ≤ flows pool := hle
      show decide ((k : Int) > plan.maxFlowChecks) = false
      rw [decide_eq_false_iff_not]
      omega
    · cases hrank

def targetRule (plan : Plan) : HoldRule (Option String) where
  hold := holdTarget plan
  exceeds pool := overTargets plan pool || overFlows plan pool
  fits := by
    intro pool hover r hr
    obtain ⟨htargets, hflows⟩ := Bool.or_eq_false_iff.mp hover
    have hrank : targetRank plan pool r ≤ pool.length := rowNumber_le_length pool r
    have hcap := of_decide_eq_false htargets
    have hfree : decide ((targetRank plan pool r : Int) > plan.caps .maxTargets) = false := by
      rw [decide_eq_false_iff_not]
      omega
    unfold holdTarget
    rw [flowHeld_of_fits hflows, hfree, htargets, hflows, and3_false, or3_some]
    simp only [Bool.or_self, and3_some, Bool.and_false, or3_some]
  over_forget := by
    intro pool
    have hflows : flows (pool.map fun r => { r with kept := false }) = flows pool := by
      unfold flows
      rw [List.countP_map]
      rfl
    unfold overTargets overFlows
    rw [length_over_forget, hflows]

def pageRule (plan : Plan) : HoldRule Unit where
  hold := holdPage plan
  exceeds := overPages plan
  fits := by
    intro pool hover r hr
    have hrank : rank PoolRow.order pool r ≤ pool.length := rank_le_length pool r
    have hcap := of_decide_eq_false hover
    have hfree : decide ((rank PoolRow.order pool r : Int) > plan.caps .maxStatusPages) = false := by
      rw [decide_eq_false_iff_not]
      omega
    unfold holdPage
    rw [hfree, hover, Bool.and_false]
    rfl
  over_forget := by
    intro pool
    unfold overPages
    rw [length_over_forget]

def AUDIT_SAMPLE : Nat := 100

/-- One row per org per direction, in the order of the map. -/
def auditMoves (now : Time) (moved : List Moved) (heldAction releaseAction : String)
    (actor : Option UserId) : List AuditRow :=
  let byOrg := ((moved.map fun m => toLex (m.orgId, m.held)).dedup).insertionSort (· ≤ ·)
  byOrg.map fun key =>
    let rows := moved.filter fun m => toLex (m.orgId, m.held) == key
    { orgId := (ofLex key).1
      actorId := actor
      action := if (ofLex key).2 then heldAction else releaseAction
      occurredAt := now
      count := rows.length
      items := (rows.take AUDIT_SAMPLE).map fun r => (r.id, r.name)
      truncated := decide (rows.length > AUDIT_SAMPLE) }

structure Reconciled where
  held : Nat
  released : Nat
deriving DecidableEq

def reconcileAccount (now : Time) (account : AccountId) (plan : Plan) (actor : Option UserId)
    (db : Db) : Db × Reconciled :=
  let orgs := db.liveOrgs account
  let targets := moved (targetRule plan) orgs db.targets
  let pages := moved (pageRule plan) orgs db.statusPages
  ({ db with
      targets := forgetSpentPick (targetRule plan) orgs
        (reconcileTable (targetRule plan) orgs now db.targets)
      statusPages := forgetSpentPick (pageRule plan) orgs
        (reconcileTable (pageRule plan) orgs now db.statusPages)
      orgAuditLog := db.orgAuditLog ++
        auditMoves now targets "target.plan_hold" "target.plan_release" actor ++
        auditMoves now pages "status_page.plan_hold" "status_page.plan_release" actor },
    { held := (targets ++ pages).countP Moved.held
      released := (targets ++ pages).countP fun m => !m.held })

/-! ## A second reconcile -/

section Settled
variable {κ : Type} {rule : HoldRule κ} {orgs : List OrgId} {now : Time} {t : HoldTable κ}

def settleRow (rule : HoldRule κ) (orgs : List OrgId) (now : Time) (t : HoldTable κ) (r : Row κ) :
    Row κ :=
  if (move? rule orgs t r).isSome then setHold rule orgs now t r else r

def forgetRow (rule : HoldRule κ) (orgs : List OrgId) (t : HoldTable κ) (r : Row κ) : Row κ :=
  if orgs.contains r.orgId && r.planKeep && !rule.exceeds (pool orgs t) then
    { r with planKeep := false }
  else r

theorem rows_reconcileTable :
    (reconcileTable rule orgs now t).rows = t.rows.map (settleRow rule orgs now t) := rfl

theorem rows_forgetSpentPick :
    (forgetSpentPick rule orgs t).rows = t.rows.map (forgetRow rule orgs t) := rfl

theorem orgId_settleRow (r : Row κ) : (settleRow rule orgs now t r).orgId = r.orgId := by
  unfold settleRow
  split <;> rfl

theorem poolRow_settleRow (r : Row κ) : (settleRow rule orgs now t r).poolRow = r.poolRow := by
  unfold settleRow
  split <;> rfl

theorem orgId_forgetRow (r : Row κ) : (forgetRow rule orgs t r).orgId = r.orgId := by
  unfold forgetRow
  split <;> rfl

theorem held_forgetRow (r : Row κ) : (forgetRow rule orgs t r).held = r.held := by
  unfold forgetRow
  split <;> rfl

theorem forgetRow_of_over (h : rule.exceeds (pool orgs t) = true) (r : Row κ) :
    forgetRow rule orgs t r = r := by
  unfold forgetRow
  rw [h, Bool.not_true, Bool.and_false, if_neg Bool.false_ne_true]

theorem forgetRow_of_not_kept {r : Row κ} (h : (orgs.contains r.orgId && r.planKeep) = false) :
    forgetRow rule orgs t r = r := by
  unfold forgetRow
  rw [h, Bool.false_and, if_neg Bool.false_ne_true]

theorem poolRow_forgetRow (h : rule.exceeds (pool orgs t) = false) {r : Row κ}
    (horg : orgs.contains r.orgId = true) :
    (forgetRow rule orgs t r).poolRow = { r.poolRow with kept := false } := by
  unfold forgetRow
  rw [horg, h, Bool.true_and, Bool.not_false, Bool.and_true]
  cases hkeep : r.planKeep with
  | true => rfl
  | false =>
    rw [if_neg Bool.false_ne_true]
    unfold Row.poolRow
    rw [hkeep]

theorem mem_pool {r : Row κ} (hr : r ∈ t.rows) (horg : orgs.contains r.orgId = true) :
    r.poolRow ∈ pool orgs t :=
  List.mem_map.mpr ⟨r, List.mem_filter.mpr ⟨hr, horg⟩, rfl⟩

theorem pool_of_map {t' : HoldTable κ} {f : Row κ → Row κ} (hrows : t'.rows = t.rows.map f)
    (horg : ∀ r, (f r).orgId = r.orgId) :
    pool orgs t' =
      (t.rows.filter fun r => orgs.contains r.orgId).map fun r => (f r).poolRow := by
  have hfilter : t.rows.filter ((fun r => orgs.contains r.orgId) ∘ f) =
      t.rows.filter fun r => orgs.contains r.orgId := by
    apply List.filter_congr
    intro r _
    rw [Function.comp_apply, horg]
  unfold pool
  rw [hrows, List.filter_map, List.map_map, hfilter]
  rfl

theorem pool_reconcileTable : pool orgs (reconcileTable rule orgs now t) = pool orgs t := by
  rw [pool_of_map rows_reconcileTable orgId_settleRow]
  exact List.map_congr_left fun r _ => poolRow_settleRow r

theorem forgetSpentPick_of_over (h : rule.exceeds (pool orgs t) = true) :
    forgetSpentPick rule orgs t = t := by
  have hrows : (forgetSpentPick rule orgs t).rows = t.rows := by
    rw [rows_forgetSpentPick, List.map_congr_left fun r _ => forgetRow_of_over h r]
    exact List.map_id _
  exact Rows.ext hrows

theorem pool_forgetSpentPick_of_fits (h : rule.exceeds (pool orgs t) = false) :
    pool orgs (forgetSpentPick rule orgs t) =
      (pool orgs t).map fun r => { r with kept := false } := by
  rw [pool_of_map rows_forgetSpentPick orgId_forgetRow]
  unfold pool
  rw [List.map_map]
  apply List.map_congr_left
  intro r hr
  exact poolRow_forgetRow h (List.mem_filter.mp hr).2

theorem over_forgetSpentPick :
    rule.exceeds (pool orgs (forgetSpentPick rule orgs t)) = rule.exceeds (pool orgs t) := by
  cases h : rule.exceeds (pool orgs t) with
  | true => rw [forgetSpentPick_of_over h, h]
  | false => rw [pool_forgetSpentPick_of_fits h, rule.over_forget, h]

theorem move?_eq_some {r : Row κ} {hold : Bool} :
    move? rule orgs t r = some hold ↔ orgs.contains r.orgId = true ∧
      rule.hold (pool orgs t) r.poolRow = some hold ∧ r.held ≠ hold := by
  unfold move?
  split
  · next horg => rw [Option.filter_eq_some_iff, bne_iff_ne, and_iff_right horg, ne_comm]
  · next horg =>
    constructor
    · exact nofun
    · exact fun h => absurd h.1 horg

/-- Every row of the pool is held as its rule has it. -/
def Settled (rule : HoldRule κ) (orgs : List OrgId) (t : HoldTable κ) : Prop :=
  ∀ r ∈ t.rows, orgs.contains r.orgId = true →
    ∀ hold ∈ rule.hold (pool orgs t) r.poolRow, r.held = hold

theorem settled_iff : Settled rule orgs t ↔ ∀ r ∈ t.rows, move? rule orgs t r = none := by
  constructor
  · intro h r hr
    rw [Option.eq_none_iff_forall_ne_some]
    intro hold hmove
    obtain ⟨horg, hhold, hne⟩ := move?_eq_some.1 hmove
    exact hne (h r hr horg hold hhold)
  · intro h r hr horg hold hhold
    by_contra hne
    have hmove := move?_eq_some.2 ⟨horg, hhold, hne⟩
    rw [h r hr] at hmove
    cases hmove

theorem held_settleRow {r : Row κ} {hold : Bool} (horg : orgs.contains r.orgId = true)
    (hhold : rule.hold (pool orgs t) r.poolRow = some hold) :
    (settleRow rule orgs now t r).held = hold := by
  unfold settleRow
  by_cases hheld : r.held = hold
  · have hmove : move? rule orgs t r = none := by
      rw [Option.eq_none_iff_forall_ne_some]
      intro new hmove
      obtain ⟨-, hnew, hne⟩ := move?_eq_some.1 hmove
      obtain rfl := Option.some.inj (hnew.symm.trans hhold)
      exact hne hheld
    rw [hmove]
    exact hheld
  · have hmove := move?_eq_some.2 ⟨horg, hhold, hheld⟩
    unfold setHold Row.held
    rw [hmove]
    cases hold <;> rfl

theorem reconcileTable_settled : Settled rule orgs (reconcileTable rule orgs now t) := by
  intro r' hr' horg hold hhold
  rw [rows_reconcileTable] at hr'
  obtain ⟨r, hr, rfl⟩ := List.mem_map.mp hr'
  rw [pool_reconcileTable, poolRow_settleRow] at hhold
  rw [orgId_settleRow] at horg
  exact held_settleRow horg hhold

theorem Settled.forgetSpentPick (h : Settled rule orgs t) :
    Settled rule orgs (forgetSpentPick rule orgs t) := by
  cases hover : rule.exceeds (pool orgs t) with
  | true =>
    rw [forgetSpentPick_of_over hover]
    exact h
  | false =>
    intro r' hr' horg hold hhold
    have hfits : rule.exceeds (pool orgs (Holds.forgetSpentPick rule orgs t)) = false := by
      rw [over_forgetSpentPick, hover]
    have hfree := rule.fits _ hfits _ (mem_pool hr' horg)
    obtain rfl := Option.some.inj (hfree.symm.trans hhold)
    rw [rows_forgetSpentPick] at hr'
    obtain ⟨r, hr, rfl⟩ := List.mem_map.mp hr'
    rw [orgId_forgetRow] at horg
    rw [held_forgetRow]
    exact h r hr horg false (rule.fits _ hover _ (mem_pool hr horg))

theorem reconcileTable_of_settled (h : Settled rule orgs t) :
    reconcileTable rule orgs now t = t := by
  apply Rows.ext
  rw [rows_reconcileTable]
  conv_rhs => rw [← List.map_id t.rows]
  apply List.map_congr_left
  intro r hr
  unfold settleRow
  rw [settled_iff.1 h r hr]
  rfl

theorem moved_of_settled (h : Settled rule orgs t) : moved rule orgs t = [] := by
  unfold moved
  rw [List.filterMap_eq_nil_iff]
  intro r hr
  rw [settled_iff.1 h r hr]
  rfl

theorem forgetSpentPick_idem :
    forgetSpentPick rule orgs (forgetSpentPick rule orgs t) = forgetSpentPick rule orgs t := by
  cases hover : rule.exceeds (pool orgs t) with
  | true =>
    rw [forgetSpentPick_of_over hover]
    exact forgetSpentPick_of_over hover
  | false =>
    apply Rows.ext
    rw [rows_forgetSpentPick, rows_forgetSpentPick (t := t), List.map_map]
    apply List.map_congr_left
    intro r _
    -- no row of the pool is kept any more
    have hnot : (orgs.contains (forgetRow rule orgs t r).orgId &&
        (forgetRow rule orgs t r).planKeep) = false := by
      cases horg : orgs.contains r.orgId with
      | false =>
        rw [orgId_forgetRow, horg]
        rfl
      | true =>
        have hkept : (forgetRow rule orgs t r).planKeep = false :=
          congrArg PoolRow.kept (poolRow_forgetRow hover horg)
        rw [hkept, Bool.and_false]
    exact forgetRow_of_not_kept hnot

end Settled

theorem auditMoves_nil (now : Time) (held release : String) (actor : Option UserId) :
    auditMoves now [] held release actor = [] := rfl

theorem reconcileAccount_idem (now now' : Time) (account : AccountId) (plan : Plan)
    (actor actor' : Option UserId) (db : Db) :
    reconcileAccount now' account plan actor' (reconcileAccount now account plan actor db).1 =
      ((reconcileAccount now account plan actor db).1, ⟨0, 0⟩) := by
  have htargets : Settled (targetRule plan) (db.liveOrgs account)
      (forgetSpentPick _ _ (reconcileTable _ _ now db.targets)) :=
    reconcileTable_settled.forgetSpentPick
  have hpages : Settled (pageRule plan) (db.liveOrgs account)
      (forgetSpentPick _ _ (reconcileTable _ _ now db.statusPages)) :=
    reconcileTable_settled.forgetSpentPick
  unfold reconcileAccount
  dsimp only
  rw [moved_of_settled htargets, moved_of_settled hpages, reconcileTable_of_settled htargets,
    reconcileTable_of_settled hpages, forgetSpentPick_idem, forgetSpentPick_idem, auditMoves_nil,
    auditMoves_nil, List.append_nil, List.append_nil]
  rfl

/-! ## What is served -/

section Served
variable {κ : Type} {rule : HoldRule κ} {orgs : List OrgId} {t : HoldTable κ}

/-- How many rows of a kind in the pool are not held. -/
def served (orgs : List OrgId) (t : HoldTable κ) (ofKind : κ → Bool) : Nat :=
  t.rows.countP fun r => orgs.contains r.orgId && (ofKind r.kind && !r.held)

theorem nodup_order : ((pool orgs t).map PoolRow.order).Nodup := by
  have hids : ((pool orgs t).map PoolRow.id).Nodup := by
    unfold pool
    rw [List.map_map]
    exact t.nodup.sublist (List.filter_sublist.map Row.id)
  have hlast : (pool orgs t).map PoolRow.id =
      ((pool orgs t).map PoolRow.order).map fun o => (ofLex (ofLex (ofLex o).2).2).2 := by
    rw [List.map_map]
    rfl
  rw [hlast] at hids
  exact List.Nodup.of_map _ hids

theorem countP_pool (p : PoolRow κ → Bool) :
    (pool orgs t).countP p = t.rows.countP fun r => p r.poolRow && orgs.contains r.orgId := by
  unfold pool
  rw [List.countP_map, List.countP_filter]
  rfl

theorem Settled.served_le (h : Settled rule orgs t) (ofKind : κ → Bool) (p : PoolRow κ → Bool)
    (hp : ∀ r ∈ pool orgs t, ofKind r.kind = true → rule.hold (pool orgs t) r ≠ some true →
      p r = true) :
    served orgs t ofKind ≤ (pool orgs t).countP p := by
  rw [countP_pool]
  unfold served
  apply List.countP_mono_left
  intro r hr hserved
  obtain ⟨horg, hserved⟩ := Bool.and_eq_true_iff.mp hserved
  obtain ⟨hkind, hfree⟩ := Bool.and_eq_true_iff.mp hserved
  rw [horg, Bool.and_true]
  apply hp r.poolRow (mem_pool hr horg) hkind
  intro hhold
  rw [h r hr horg true hhold] at hfree
  cases hfree

end Served

section Served
variable {plan : Plan} {orgs : List OrgId}

theorem served_targets {t : HoldTable (Option String)} (h : Settled (targetRule plan) orgs t) :
    served orgs t (fun _ => true) ≤ (plan.caps .maxTargets : Int).toNat := by
  let k := (plan.caps .maxTargets : Int).toNat
  have hle := h.served_le (fun _ => true)
    (fun r => decide (flowHeld plan (pool orgs t) r = false ∧ targetRank plan (pool orgs t) r ≤ k))
    (by
      intro r _ _ hfree
      have hfree : holdTarget plan (pool orgs t) r ≠ some true := hfree
      unfold holdTarget at hfree
      cases hheld : flowHeld plan (pool orgs t) r with
      | true =>
        rw [hheld, or3_some, Bool.true_or, or3_true] at hfree
        exact absurd rfl hfree
      | false =>
        apply decide_eq_true
        refine ⟨rfl, ?_⟩
        by_contra hrank
        have hover : (targetRank plan (pool orgs t) r : Int) > plan.caps .maxTargets := by
          simp only [k] at hrank
          omega
        rw [decide_eq_true hover, or3_some, Bool.or_true, or3_true] at hfree
        exact absurd rfl hfree)
  exact hle.trans (countP_rowNumber_le nodup_order false k)

theorem served_flows {t : HoldTable (Option String)} (h : Settled (targetRule plan) orgs t) :
    served orgs t (fun kind => decide (kind = some "flow")) ≤ (plan.maxFlowChecks : Int).toNat := by
  let k := (plan.maxFlowChecks : Int).toNat
  have hle := h.served_le (fun kind => decide (kind = some "flow"))
    (fun r => decide (isFlow r = some true ∧ rowNumber isFlow PoolRow.order (pool orgs t) r ≤ k))
    (by
      intro r _ hkind hfree
      have hflow : isFlow r = some true := by
        unfold isFlow
        rw [of_decide_eq_true hkind]
        rfl
      apply decide_eq_true
      refine ⟨hflow, ?_⟩
      by_contra hrank
      have hover : (rowNumber isFlow PoolRow.order (pool orgs t) r : Int) > plan.maxFlowChecks := by
        simp only [k] at hrank
        omega
      have hheld : flowHeld plan (pool orgs t) r = true := by
        unfold flowHeld flowRank
        rw [if_pos hflow]
        exact decide_eq_true hover
      have hfree : holdTarget plan (pool orgs t) r ≠ some true := hfree
      unfold holdTarget at hfree
      rw [hheld, or3_some, Bool.true_or, or3_true] at hfree
      exact absurd rfl hfree)
  exact hle.trans (countP_rowNumber_le nodup_order (some true) k)

theorem served_pages {t : HoldTable Unit} (h : Settled (pageRule plan) orgs t) :
    served orgs t (fun _ => true) ≤ (plan.caps .maxStatusPages : Int).toNat := by
  let k := (plan.caps .maxStatusPages : Int).toNat
  have hle := h.served_le (fun _ => true)
    (fun r => decide (rank PoolRow.order (pool orgs t) r ≤ k))
    (by
      intro r _ _ hfree
      have hfree : holdPage plan (pool orgs t) r ≠ some true := hfree
      unfold holdPage at hfree
      apply decide_eq_true
      by_contra hrank
      have hover : (rank PoolRow.order (pool orgs t) r : Int) > plan.caps .maxStatusPages := by
        simp only [k] at hrank
        omega
      rw [decide_eq_true hover, Bool.true_or] at hfree
      exact absurd rfl hfree)
  exact hle.trans (countP_rank_le nodup_order k)

end Served

/-- After a reconcile no more is served than the plan has. -/
theorem reconcileAccount_within_plan (now : Time) (account : AccountId) (plan : Plan)
    (actor : Option UserId) (db : Db) :
    let orgs := db.liveOrgs account
    let db' := (reconcileAccount now account plan actor db).1
    served orgs db'.targets (fun _ => true) ≤ (plan.caps .maxTargets : Int).toNat ∧
      served orgs db'.targets (fun kind => decide (kind = some "flow")) ≤
        (plan.maxFlowChecks : Int).toNat ∧
      served orgs db'.statusPages (fun _ => true) ≤ (plan.caps .maxStatusPages : Int).toNat :=
  ⟨served_targets reconcileTable_settled.forgetSpentPick,
    served_flows reconcileTable_settled.forgetSpentPick,
    served_pages reconcileTable_settled.forgetSpentPick⟩

/-! ## What a target is held for -/

section Held
variable {plan : Plan} {pool : List (PoolRow (Option String))} {r s : PoolRow (Option String)}

/-- The pick leaves the row out, and a cap is exceeded that may count it. -/
def LeftOut (plan : Plan) (pool : List (PoolRow (Option String))) (r : PoolRow (Option String)) :
    Prop :=
  picked pool = true ∧ r.kept = false ∧
    (overTargets plan pool = true ∨ isFlow r ≠ some false ∧ overFlows plan pool = true)

theorem kept_of_order_le (h : s.order ≤ r.order) (hr : r.kept = true) : s.kept = true := by
  have hle := Prod.Lex.monotone_fst _ _ h
  have hle : (!s.kept) ≤ (!r.kept) := hle
  rw [hr] at hle
  cases hs : s.kept with
  | true => rfl
  | false =>
    rw [hs] at hle
    exact absurd hle (by decide)

theorem flowHeld_iff : flowHeld plan pool r = true ↔
    isFlow r = some true ∧ (plan.maxFlowChecks : Int) < rowNumber isFlow PoolRow.order pool r := by
  unfold flowHeld flowRank
  by_cases hflow : isFlow r = some true
  · rw [if_pos hflow, and_iff_right hflow]
    exact decide_eq_true_iff
  · simp [hflow]

theorem holdTarget_of_not_leftOut (h : ¬ LeftOut plan pool r) :
    holdTarget plan pool r = some (flowHeld plan pool r ||
      decide ((targetRank plan pool r : Int) > plan.caps .maxTargets)) := by
  unfold holdTarget
  have hpick : and3 (some (picked pool && !r.kept))
      (or3 (some (overTargets plan pool)) (and3 (isFlow r) (some (overFlows plan pool)))) =
      some false := by
    unfold LeftOut at h
    generalize picked pool = b at *
    generalize r.kept = k at *
    generalize overTargets plan pool = ot at *
    generalize isFlow r = f at *
    generalize overFlows plan pool = fo at *
    rcases f with _ | _ | _ <;> revert b k ot fo <;> decide
  rw [hpick]
  simp

theorem not_leftOut_above (h : picked pool = false ∨ r.kept = true) (hle : s.order ≤ r.order) :
    ¬ LeftOut plan pool s := by
  rintro ⟨hpicked, hkept, -⟩
  rcases h with h | h
  · rw [h] at hpicked
    cases hpicked
  · rw [kept_of_order_le hle h] at hkept
    cases hkept

variable (hnodup : (pool.map PoolRow.order).Nodup)
include hnodup

theorem le_free_above (hpick : ¬ LeftOut plan pool r) (hflow : flowHeld plan pool r = false)
    (hhold : holdTarget plan pool r ≠ some false) :
    (plan.caps .maxTargets : Int) ≤ pool.countP fun s =>
      decide (holdTarget plan pool s = some false ∧ s.order < r.order) := by
  rw [holdTarget_of_not_leftOut hpick, hflow, Bool.false_or] at hhold
  have hrank : (plan.caps .maxTargets : Int) < targetRank plan pool r := by
    by_contra hle
    exact hhold (congrArg some (decide_eq_false hle))
  have hfree : picked pool = false ∨ r.kept = true := by
    have hlength : targetRank plan pool r ≤ pool.length := rowNumber_le_length pool r
    by_contra hout
    rw [not_or, Bool.not_eq_false, Bool.not_eq_true] at hout
    exact hpick ⟨hout.1, hout.2, .inl (decide_eq_true (by omega))⟩
  refine (le_countP_rowNumber hnodup hrank).trans
    (Int.ofNat_le.mpr (List.countP_mono_left fun s _ hs => ?_))
  obtain ⟨hpart, hle, hlt⟩ := of_decide_eq_true hs
  refine decide_eq_true ⟨?_, hlt⟩
  rw [holdTarget_of_not_leftOut (not_leftOut_above hfree hlt.le), hpart, hflow, Bool.false_or]
  exact congrArg some (decide_eq_false (not_lt.mpr hle))

theorem breaks_cap (hpick : ¬ LeftOut plan pool r) (hhold : holdTarget plan pool r ≠ some false) :
    (plan.caps .maxTargets : Int) ≤ (pool.countP fun s =>
        decide (holdTarget plan pool s = some false ∧ s.order < r.order)) ∨
      isFlow r = some true ∧ (plan.maxFlowChecks : Int) ≤ pool.countP fun s =>
        decide (isFlow s = some true ∧ holdTarget plan pool s = some false ∧
          s.order < r.order) := by
  cases hflow : flowHeld plan pool r with
  | false => exact .inl (le_free_above hnodup hpick hflow hhold)
  | true =>
    obtain ⟨hr, hrank⟩ := flowHeld_iff.1 hflow
    have hfree : picked pool = false ∨ r.kept = true := by
      have hover : overFlows plan pool = true := by
        by_contra hfits
        rw [flowHeld_of_fits (Bool.eq_false_iff.mpr hfits) r] at hflow
        cases hflow
      by_contra hout
      rw [not_or, Bool.not_eq_false, Bool.not_eq_true] at hout
      exact hpick ⟨hout.1, hout.2, .inr ⟨by simp [hr], hover⟩⟩
    by_cases hall : ∀ s, isFlow s = some true →
        (rowNumber isFlow PoolRow.order pool s : Int) ≤ plan.maxFlowChecks →
        s.order < r.order → holdTarget plan pool s = some false
    · refine .inr ⟨hr, (le_countP_rowNumber hnodup hrank).trans
        (Int.ofNat_le.mpr (List.countP_mono_left fun s _ hs => ?_))⟩
      obtain ⟨hpart, hle, hlt⟩ := of_decide_eq_true hs
      exact decide_eq_true ⟨hpart.trans hr, hall s (hpart.trans hr) hle hlt, hlt⟩
    · -- a flow above it that the flow cap has room for is over the cap of targets
      push Not at hall
      obtain ⟨s, hs, hle, hlt, hheld⟩ := hall
      have hroom : flowHeld plan pool s = false := by
        rw [Bool.eq_false_iff]
        exact fun h => absurd (flowHeld_iff.1 h).2 (not_lt.mpr hle)
      refine .inl ((le_free_above hnodup (not_leftOut_above hfree hlt.le) hroom hheld).trans
        (Int.ofNat_le.mpr (List.countP_mono_left fun u _ hu => ?_)))
      obtain ⟨hfree, hu⟩ := of_decide_eq_true hu
      exact decide_eq_true ⟨hfree, hu.trans hlt⟩

omit hnodup in
theorem kept_over_cap (hkept : r.kept = true) (hhold : holdTarget plan pool r ≠ some false) :
    (plan.caps .maxTargets : Int) < (pool.countP fun s =>
        decide (s.kept = true ∧ s.order ≤ r.order)) ∨
      isFlow r = some true ∧ (plan.maxFlowChecks : Int) < pool.countP fun s =>
        decide (isFlow s = some true ∧ s.kept = true ∧ s.order ≤ r.order) := by
  rw [holdTarget_of_not_leftOut (not_leftOut_above (.inr hkept) le_rfl)] at hhold
  cases hflow : flowHeld plan pool r with
  | false =>
    rw [hflow, Bool.false_or] at hhold
    have hrank : (plan.caps .maxTargets : Int) < targetRank plan pool r := by
      by_contra hle
      exact hhold (congrArg some (decide_eq_false hle))
    refine .inl (hrank.trans_le (Int.ofNat_le.mpr ?_))
    unfold targetRank rowNumber rank
    rw [List.countP_filter]
    refine List.countP_mono_left fun s _ hs => ?_
    have hle := of_decide_eq_true (Bool.and_eq_true_iff.mp hs).1
    exact decide_eq_true ⟨kept_of_order_le hle hkept, hle⟩
  | true =>
    obtain ⟨hr, hrank⟩ := flowHeld_iff.1 hflow
    refine .inr ⟨hr, hrank.trans_le (Int.ofNat_le.mpr ?_)⟩
    unfold rowNumber rank
    rw [List.countP_filter]
    refine List.countP_mono_left fun s _ hs => ?_
    obtain ⟨hle, hpart⟩ := Bool.and_eq_true_iff.mp hs
    have hle := of_decide_eq_true hle
    exact decide_eq_true ⟨(of_decide_eq_true hpart).trans hr, kept_of_order_le hle hkept, hle⟩

end Held

/-! ## The ranking of targets -/

def reconcileTargets (plan : Plan) (orgs : List OrgId) (now : Time)
    (t : HoldTable (Option String)) : HoldTable (Option String) :=
  reconcileTable (targetRule plan) orgs now t

/-- How many rows of a kind in the pool pass a test. -/
def among {κ : Type} (orgs : List OrgId) (t : HoldTable κ) (ofKind : κ → Bool)
    (p : Row κ → Bool) : Nat :=
  t.rows.countP fun r => orgs.contains r.orgId && (ofKind r.kind && p r)

def anyKind (_ : Option String) : Bool := true

def flowKind (kind : Option String) : Bool := decide (kind = some "flow")

/-- Not held, and ranked above a row. -/
def freeAbove (r s : TargetRow) : Bool := !s.held && decide (s.poolRow.order < r.poolRow.order)

def keptUpTo (r s : TargetRow) : Bool :=
  s.planKeep && decide (s.poolRow.order ≤ r.poolRow.order)

section Ranking
variable {plan : Plan} {orgs : List OrgId} {t : HoldTable (Option String)} {r : TargetRow}

theorem isFlow_poolRow : isFlow r.poolRow = some true ↔ r.kind = some "flow" := by
  unfold isFlow
  rw [Option.map_eq_some_iff]
  simp [Row.poolRow]

theorem countP_pool_le_among {ofKind : Option String → Bool} {p : TargetRow → Bool}
    {q : PoolRow (Option String) → Bool}
    (h : ∀ s ∈ t.rows, orgs.contains s.orgId = true → q s.poolRow = true →
      ofKind s.kind = true ∧ p s = true) : (pool orgs t).countP q ≤ among orgs t ofKind p := by
  rw [countP_pool]
  refine List.countP_mono_left fun s hs hq => ?_
  obtain ⟨hq, horg⟩ := Bool.and_eq_true_iff.mp hq
  obtain ⟨hkind, hp⟩ := h s hs horg hq
  rw [horg, hkind, hp]
  rfl

theorem Settled.hold_ne (h : Settled (targetRule plan) orgs t) (hr : r ∈ t.rows)
    (horg : orgs.contains r.orgId = true) (hheld : r.held = true) :
    holdTarget plan (pool orgs t) r.poolRow ≠ some false := by
  intro hfree
  rw [h r hr horg false hfree] at hheld
  cases hheld

theorem Settled.breaks_cap (h : Settled (targetRule plan) orgs t) (hr : r ∈ t.rows)
    (horg : orgs.contains r.orgId = true) (hheld : r.held = true)
    (hpick : ¬ LeftOut plan (pool orgs t) r.poolRow) :
    (plan.caps .maxTargets : Int) ≤ among orgs t anyKind (freeAbove r) ∨
      r.kind = some "flow" ∧ (plan.maxFlowChecks : Int) ≤ among orgs t flowKind (freeAbove r) := by
  have habove : ∀ s ∈ t.rows, orgs.contains s.orgId = true →
      holdTarget plan (pool orgs t) s.poolRow = some false →
      s.poolRow.order < r.poolRow.order → freeAbove r s = true := by
    intro s hs hsorg hfree hlt
    rw [freeAbove, h s hs hsorg false hfree, decide_eq_true hlt]
    rfl
  rcases Holds.breaks_cap nodup_order hpick (h.hold_ne hr horg hheld) with hle | ⟨hflow, hle⟩
  · refine .inl (hle.trans (Int.ofNat_le.mpr (countP_pool_le_among fun s hs hsorg hq => ?_)))
    obtain ⟨hfree, hlt⟩ := of_decide_eq_true hq
    exact ⟨rfl, habove s hs hsorg hfree hlt⟩
  · refine .inr ⟨isFlow_poolRow.1 hflow,
      hle.trans (Int.ofNat_le.mpr (countP_pool_le_among fun s hs hsorg hq => ?_))⟩
    obtain ⟨hflow, hfree, hlt⟩ := of_decide_eq_true hq
    exact ⟨decide_eq_true (isFlow_poolRow.1 hflow), habove s hs hsorg hfree hlt⟩

theorem Settled.kept_over_cap (h : Settled (targetRule plan) orgs t) (hr : r ∈ t.rows)
    (horg : orgs.contains r.orgId = true) (hheld : r.held = true) (hkept : r.planKeep = true) :
    (plan.caps .maxTargets : Int) < among orgs t anyKind (keptUpTo r) ∨
      r.kind = some "flow" ∧ (plan.maxFlowChecks : Int) < among orgs t flowKind (keptUpTo r) := by
  rcases Holds.kept_over_cap (r := r.poolRow) hkept (h.hold_ne hr horg hheld) with hlt | ⟨hflow, hlt⟩
  · refine .inl (hlt.trans_le (Int.ofNat_le.mpr (countP_pool_le_among fun s _ _ hq => ?_)))
    obtain ⟨hs, hle⟩ := of_decide_eq_true hq
    exact ⟨rfl, Bool.and_eq_true_iff.mpr ⟨hs, decide_eq_true hle⟩⟩
  · refine .inr ⟨isFlow_poolRow.1 hflow,
      hlt.trans_le (Int.ofNat_le.mpr (countP_pool_le_among fun s _ _ hq => ?_))⟩
    obtain ⟨hflow, hs, hle⟩ := of_decide_eq_true hq
    exact ⟨decide_eq_true (isFlow_poolRow.1 hflow),
      Bool.and_eq_true_iff.mpr ⟨hs, decide_eq_true hle⟩⟩

end Ranking

/-- No more is free than the plan has, and nothing is held while the pool fits.  A held row
breaks a cap over the free rows above it or is left out by the pick; a kept one is held for
the kept rows up to it; and of a row only the hold and its stamp change. -/
theorem reconcileTargets_exact (plan : Plan) (orgs : List OrgId) (now : Time)
    (t : HoldTable (Option String)) :
    let t' := reconcileTargets plan orgs now t
    among orgs t' anyKind (fun r => !r.held) ≤ (plan.caps .maxTargets : Int).toNat ∧
    among orgs t' flowKind (fun r => !r.held) ≤ (plan.maxFlowChecks : Int).toNat ∧
    (overTargets plan (pool orgs t) = false → overFlows plan (pool orgs t) = false →
      ∀ r ∈ t'.rows, orgs.contains r.orgId = true → r.held = false) ∧
    (∀ r ∈ t'.rows, orgs.contains r.orgId = true → r.held = true →
      (LeftOut plan (pool orgs t) r.poolRow ∨
        (plan.caps .maxTargets : Int) ≤ among orgs t' anyKind (freeAbove r) ∨
        r.kind = some "flow" ∧
          (plan.maxFlowChecks : Int) ≤ among orgs t' flowKind (freeAbove r)) ∧
      (r.planKeep = true → (plan.caps .maxTargets : Int) < among orgs t' anyKind (keptUpTo r) ∨
        r.kind = some "flow" ∧
          (plan.maxFlowChecks : Int) < among orgs t' flowKind (keptUpTo r))) ∧
    List.Forall₂ (fun r r' : TargetRow =>
      r' = { r with planHoldAt := r'.planHoldAt, updatedAt := r'.updatedAt }) t.rows t'.rows := by
  intro t'
  have hsettled : Settled (targetRule plan) orgs t' := reconcileTable_settled
  have hpool : pool orgs t' = pool orgs t := pool_reconcileTable
  refine ⟨served_targets hsettled, served_flows hsettled, ?_, ?_, ?_⟩
  · intro htargets hflows r hr horg
    have hfits : (targetRule plan).exceeds (pool orgs t') = false := by
      rw [hpool]
      exact Bool.or_eq_false_iff.mpr ⟨htargets, hflows⟩
    exact hsettled r hr horg false ((targetRule plan).fits _ hfits _ (mem_pool hr horg))
  · intro r hr horg hheld
    refine ⟨?_, hsettled.kept_over_cap hr horg hheld⟩
    rw [← hpool]
    exact or_iff_not_imp_left.mpr (hsettled.breaks_cap hr horg hheld)
  · rw [show t'.rows = t.rows.map (settleRow (targetRule plan) orgs now t) from rfl,
      List.forall₂_map_right_iff, List.forall₂_same]
    intro r _
    unfold settleRow
    split <;> rfl

theorem holdTarget_mono {plan plan' : Plan} {pool : List (PoolRow (Option String))}
    {r : PoolRow (Option String)}
    (hflows : plan'.maxFlowChecks = plan.maxFlowChecks)
    (hcap : (plan.caps .maxTargets : Int) ≤ plan'.caps .maxTargets)
    (h : holdTarget plan' pool r = some true) : holdTarget plan pool r = some true := by
  have hflow : flowHeld plan' pool = flowHeld plan pool := by
    funext s
    unfold flowHeld
    rw [hflows]
  have hover : overTargets plan' pool = true → overTargets plan pool = true := by
    simp only [overTargets, decide_eq_true_eq]
    omega
  have hrank : decide ((targetRank plan' pool r : Int) > plan'.caps .maxTargets) = true →
      decide ((targetRank plan pool r : Int) > plan.caps .maxTargets) = true := by
    intro hover'
    have hrank := of_decide_eq_true hover'
    unfold targetRank at hrank ⊢
    rw [hflow] at hrank
    exact decide_eq_true (by omega)
  have hsame : overFlows plan' pool = overFlows plan pool := by
    unfold overFlows
    rw [hflows]
  revert h
  unfold holdTarget
  rw [hflow, hsame]
  revert hover hrank
  generalize overTargets plan' pool = o', overTargets plan pool = o,
    decide ((targetRank plan' pool r : Int) > plan'.caps .maxTargets) = k',
    decide ((targetRank plan pool r : Int) > plan.caps .maxTargets) = k,
    flowHeld plan pool r = f, overFlows plan pool = w, (picked pool && !r.kept) = p,
    isFlow r = i
  rcases i with - | i
  all_goals revert o o' k k' f w p
  · decide
  · revert i
    decide

/-- **A higher cap of targets, by itself, takes nothing away.** -/
theorem raised_cap_holds_nothing (plan plan' : Plan) (orgs : List OrgId) (now : Time)
    (t : HoldTable (Option String)) (hflows : plan'.maxFlowChecks = plan.maxFlowChecks)
    (hcap : (plan.caps .maxTargets : Int) ≤ plan'.caps .maxTargets)
    (hsettled : Settled (targetRule plan) orgs t) :
    ∀ r' ∈ (reconcileTargets plan' orgs now t).rows, r'.held = true →
      ∃ r ∈ t.rows, r.id = r'.id ∧ r.held = true := by
  intro r' hr' hheld
  obtain ⟨r, hr, rfl⟩ := List.mem_map.mp hr'
  have hheld : (settleRow (targetRule plan') orgs now t r).held = true := hheld
  refine ⟨r, hr, ?_, ?_⟩
  · show r.id = (settleRow (targetRule plan') orgs now t r).id
    unfold settleRow
    split <;> rfl
  · unfold settleRow at hheld
    split at hheld
    · next hmove =>
      obtain ⟨hold, hmove⟩ := Option.isSome_iff_exists.mp hmove
      obtain ⟨horg, hhold, -⟩ := move?_eq_some.1 hmove
      cases hold with
      | false => simp [setHold, hmove, Row.held] at hheld
      | true => exact hsettled r hr horg true (holdTarget_mono hflows hcap hhold)
    · exact hheld

namespace Picked

def plan : Plan := ⟨"two", fun _ => ⟨2, by decide⟩, ⟨0, by decide⟩⟩

def target (id : Uuid) (kept : Bool) : TargetRow :=
  ⟨id, 1, "monitor", some "http", true, 0, none, kept, 0⟩

/-- Three monitors of one organisation, the first of them picked. -/
def targets : HoldTable (Option String) :=
  ⟨[target 1 true, target 2 false, target 3 false], by decide⟩

def one : Plan := ⟨"one", fun _ => .one, ⟨0, by decide⟩⟩

/-- From one seat to two. -/
theorem raised_cap_holds_nothing_two :
    ∃ r' ∈ (reconcileTargets plan [1] 9 (reconcileTargets one [1] 5 targets)).rows,
      r'.held = true ∧ ∃ r ∈ (reconcileTargets one [1] 5 targets).rows,
        r.id = r'.id ∧ r.held = true := by
  have hany : (reconcileTargets plan [1] 9 (reconcileTargets one [1] 5 targets)).rows.any
      Row.held = true := by
    decide +kernel
  obtain ⟨r', hr', hheld⟩ := List.any_eq_true.mp hany
  exact ⟨r', hr', hheld, raised_cap_holds_nothing one plan [1] 9 _ rfl (by decide)
    reconcileTable_settled r' hr' hheld⟩

end Picked

/-- Two seats, one pick: the second monitor is held with one free row above it. -/
theorem free_seat_not_refilled :
    ¬ ∀ plan orgs now t, ∀ r ∈ (reconcileTargets plan orgs now t).rows,
      orgs.contains r.orgId = true → r.held = true →
      (plan.caps .maxTargets : Int) ≤
          among orgs (reconcileTargets plan orgs now t) anyKind (freeAbove r) ∨
        r.kind = some "flow" ∧ (plan.maxFlowChecks : Int) ≤
          among orgs (reconcileTargets plan orgs now t) flowKind (freeAbove r) := by
  intro h
  have hrows : (reconcileTargets Picked.plan [1] 5 Picked.targets).rows =
      [Picked.target 1 true, { Picked.target 2 false with planHoldAt := some 5, updatedAt := 5 },
        { Picked.target 3 false with planHoldAt := some 5, updatedAt := 5 }] := by
    decide +kernel
  rcases h Picked.plan [1] 5 Picked.targets
      { Picked.target 2 false with planHoldAt := some 5, updatedAt := 5 }
      (by rw [hrows]; simp) rfl rfl with hle | ⟨hkind, -⟩
  · unfold among at hle
    rw [hrows] at hle
    revert hle
    decide +kernel
  · revert hkind
    decide

end Uptimepage.Holds
