import Mathlib
import Uptimepage.Quotas.Holds

/-!
# The accounts a sweep reconciles

`accounts_needing_reconcile` asks of every account whether it holds something or is over a cap,
and does it without the effective plan: it reads the plan's row, and of an override only the
fields of that name that lower it.
-/

namespace Uptimepage.Holds

open Sql

/-- The `CASE` of a cap. -/
def lowered (json : Jsonb) (field : String) (cap : I32) : Bool :=
  match json.get? field with
  | some (.number digits scale) => decide (digits < cap * 10 ^ scale)
  | _ => false

/-- `coalesce(bool_or(plan_hold_at IS NOT NULL), false)`. -/
def holdsAny {κ : Type} (orgs : List OrgId) (t : HoldTable κ) : Bool :=
  t.rows.any fun r => orgs.contains r.orgId && r.held

namespace Db
variable (db : Db) (now : Time)

/-- The `WHERE` of an account, with its row of `plans`. -/
def needsReconcile (account : AccountId) (p : Plan) : Bool :=
  let orgs := db.liveOrgs account
  let n := db.targets.rows.countP fun t => orgs.contains t.orgId
  let flows := db.targets.rows.countP fun t => orgs.contains t.orgId && t.kind == some "flow"
  let pages := db.statusPages.rows.countP fun sp => orgs.contains sp.orgId
  holdsAny orgs db.targets || holdsAny orgs db.statusPages ||
    decide ((n : Int) > p.caps .maxTargets) ||
    decide ((flows : Int) > p.maxFlowChecks) ||
    decide ((pages : Int) > p.caps .maxStatusPages) ||
    (db.overrideInForce now account).any fun json =>
      lowered json "max_targets" (p.caps .maxTargets) ||
      lowered json "max_flow_checks" p.maxFlowChecks ||
      lowered json "max_status_pages" (p.caps .maxStatusPages)

/-- With each account the first of its live orgs; ids are ordered as their texts are. -/
def accountsNeedingReconcile : List (AccountId × OrgId) :=
  db.accounts.rows.filterMap fun a =>
    (db.liveOrgs a.id).min?.bind fun anyOrg =>
      (db.plans.get? a.planId).bind fun p =>
        if db.needsReconcile now a.id p then some (a.id, anyOrg) else none

/-- One turn of the sweep.  The plan is the one that the cache has of the org, or loads; where
that fails the account is left as it is. -/
def sweepAccount (limitForOrg : OrgId → Option Plan) (s : Db × Nat)
    (entry : AccountId × OrgId) : Db × Nat :=
  match limitForOrg entry.2 with
  | none => s
  | some plan =>
    let (db, r) := reconcileAccount now entry.1 plan none s.1
    (db, s.2 + (r.held + r.released))

def sweep (limitForOrg : OrgId → Option Plan) : Db × Nat :=
  (db.accountsNeedingReconcile now).foldl (sweepAccount now limitForOrg) (db, 0)

def planHolds : List (Uuid × Option Time) × List (Uuid × Option Time) :=
  (db.targets.rows.map fun r => (r.id, r.planHoldAt),
    db.statusPages.rows.map fun r => (r.id, r.planHoldAt))

/-- The account's override is an array, which is read by position; the account holds nothing, has
no more than its row of `plans` covers, and more than its effective plan does. -/
structure ShortByPosition (account : AccountId) (plan : Plan) : Prop where
  array : ∃ items, db.overrideInForce now account = some (.array items)
  targetsFree : holdsAny (db.liveOrgs account) db.targets = false
  pagesFree : holdsAny (db.liveOrgs account) db.statusPages = false
  withinBase : ∀ base ∈ db.basePlan account,
    overTargets base (pool (db.liveOrgs account) db.targets) = false ∧
    overFlows base (pool (db.liveOrgs account) db.targets) = false ∧
    overPages base (pool (db.liveOrgs account) db.statusPages) = false
  short : overTargets plan (pool (db.liveOrgs account) db.targets) = true ∨
    overPages plan (pool (db.liveOrgs account) db.statusPages) = true

end Db

/-! ## What a reconcile changes -/

section Table
variable {κ : Type} {rule : HoldRule κ} {orgs : List OrgId} {now : Time} {t : HoldTable κ}

theorem planHoldAt_settleRow {r : Row κ} :
    (settleRow rule orgs now t r).planHoldAt = r.planHoldAt ↔ move? rule orgs t r = none := by
  unfold settleRow
  cases hmove : move? rule orgs t r with
  | none => simp
  | some hold =>
    obtain ⟨-, -, hne⟩ := move?_eq_some.1 hmove
    simp only [Option.isSome_some, if_true, reduceCtorEq, iff_false]
    unfold setHold
    rw [hmove]
    intro heq
    apply hne
    unfold Row.held
    rw [← heq]
    cases hold <;> rfl

theorem planHoldAt_forgetRow (r : Row κ) : (forgetRow rule orgs t r).planHoldAt = r.planHoldAt := by
  unfold forgetRow
  split <;> rfl

theorem id_settleRow (r : Row κ) : (settleRow rule orgs now t r).id = r.id := by
  unfold settleRow
  split <;> rfl

theorem id_forgetRow (r : Row κ) : (forgetRow rule orgs t r).id = r.id := by
  unfold forgetRow
  split <;> rfl

theorem planHolds_reconcile :
    ((forgetSpentPick rule orgs (reconcileTable rule orgs now t)).rows.map fun r =>
        (r.id, r.planHoldAt)) = (t.rows.map fun r => (r.id, r.planHoldAt)) ↔
      Settled rule orgs t := by
  rw [rows_forgetSpentPick, rows_reconcileTable, List.map_map, List.map_map, List.map_inj_left,
    settled_iff]
  apply forall₂_congr
  intro r _
  simp only [Function.comp_apply, Prod.mk.injEq]
  rw [id_forgetRow, id_settleRow, planHoldAt_forgetRow, planHoldAt_settleRow]
  simp

theorem length_pool : (pool orgs t).length = t.rows.countP fun r => orgs.contains r.orgId := by
  unfold pool
  rw [List.length_map, List.countP_eq_length_filter]

theorem held_or_over_of_not_settled (h : ¬ Settled rule orgs t) :
    orgs ≠ [] ∧ (holdsAny orgs t = true ∨ rule.exceeds (pool orgs t) = true) := by
  rw [settled_iff] at h
  push Not at h
  obtain ⟨r, hr, hmove⟩ := h
  obtain ⟨hold, hmove⟩ := Option.ne_none_iff_exists'.mp hmove
  obtain ⟨horg, hhold, hne⟩ := move?_eq_some.1 hmove
  refine ⟨?_, ?_⟩
  · rintro rfl
    cases horg
  · cases hold with
    | false =>
      left
      refine List.any_eq_true.mpr ⟨r, hr, ?_⟩
      rw [horg, Bool.true_and]
      simpa using hne
    | true =>
      right
      cases hover : rule.exceeds (pool orgs t) with
      | true => rfl
      | false =>
        have hfree := rule.fits _ hover _ (mem_pool hr horg)
        rw [hfree] at hhold
        cases hhold

theorem not_settled_of_hold (hfree : holdsAny orgs t = false) {r : PoolRow κ}
    (hr : r ∈ pool orgs t) (hhold : rule.hold (pool orgs t) r = some true) :
    ¬ Settled rule orgs t := by
  obtain ⟨row, hrow, rfl⟩ := List.mem_map.mp hr
  obtain ⟨hrow, horg⟩ := List.mem_filter.mp hrow
  intro hsettled
  have hheld := hsettled row hrow horg true hhold
  have hany : holdsAny orgs t = true := by
    refine List.any_eq_true.mpr ⟨row, hrow, ?_⟩
    rw [horg, hheld]
    rfl
  rw [hfree] at hany
  cases hany

end Table

section Account
variable {db : Db} {decodes : Jsonb → Bool} {now : Time} {account : AccountId} {plan : Plan}

theorem planHolds_reconcileAccount {now : Time} {actor : Option UserId} :
    (reconcileAccount now account plan actor db).1.planHolds = db.planHolds ↔
      Settled (targetRule plan) (db.liveOrgs account) db.targets ∧
      Settled (pageRule plan) (db.liveOrgs account) db.statusPages := by
  unfold Db.planHolds
  rw [Prod.mk.injEq]
  exact and_congr planHolds_reconcile planHolds_reconcile

theorem exists_holdTarget {pool : List (PoolRow (Option String))}
    (hflows : overFlows plan pool = false) (hover : overTargets plan pool = true)
    (hcap : 0 ≤ (plan.caps .maxTargets : Int)) :
    ∃ r ∈ pool, holdTarget plan pool r = some true := by
  have hover := of_decide_eq_true hover
  obtain ⟨r, hr, hrank⟩ : ∃ r ∈ pool, rank PoolRow.order pool r = pool.length :=
    exists_rank_eq_length (List.length_pos_iff.mp (by omega))
  refine ⟨r, hr, ?_⟩
  have hlast : targetRank plan pool r = pool.length := by
    unfold targetRank
    rw [rowNumber_eq_rank, hrank]
    intro r' _
    rw [flowHeld_of_fits hflows, flowHeld_of_fits hflows]
  unfold holdTarget
  rw [hlast, decide_eq_true hover, or3_some, Bool.or_true, or3_true]

theorem exists_holdPage {pool : List (PoolRow Unit)} (hover : overPages plan pool = true)
    (hcap : 0 ≤ (plan.caps .maxStatusPages : Int)) :
    ∃ r ∈ pool, holdPage plan pool r = some true := by
  have hover := of_decide_eq_true hover
  obtain ⟨r, hr, hrank⟩ : ∃ r ∈ pool, rank PoolRow.order pool r = pool.length :=
    exists_rank_eq_length (List.length_pos_iff.mp (by omega))
  refine ⟨r, hr, ?_⟩
  unfold holdPage
  rw [hrank, decide_eq_true hover, Bool.true_or]

theorem flows_pool (orgs : List OrgId) (t : HoldTable (Option String)) :
    flows (pool orgs t) =
      t.rows.countP fun r => orgs.contains r.orgId && r.kind == some "flow" := by
  unfold flows pool
  rw [List.countP_map, List.countP_filter]
  apply List.countP_congr
  intro r _
  rw [Bool.and_comm]
  show (_ && decide (r.kind.map _ = some true)) = true ↔ _
  rcases r.kind with _ | kind <;> simp

theorem needsReconcile_iff {base : Plan} :
    db.needsReconcile now account base = true ↔
      holdsAny (db.liveOrgs account) db.targets = true ∨
      holdsAny (db.liveOrgs account) db.statusPages = true ∨
      overTargets base (pool (db.liveOrgs account) db.targets) = true ∨
      overFlows base (pool (db.liveOrgs account) db.targets) = true ∨
      overPages base (pool (db.liveOrgs account) db.statusPages) = true ∨
      ∃ json, db.overrideInForce now account = some json ∧
        (lowered json "max_targets" (base.caps .maxTargets) = true ∨
          lowered json "max_flow_checks" base.maxFlowChecks = true ∨
          lowered json "max_status_pages" (base.caps .maxStatusPages) = true) := by
  unfold Db.needsReconcile overTargets overFlows overPages
  rw [length_pool, length_pool, flows_pool]
  simp only [Bool.or_eq_true, or_assoc, Option.any_eq_true]

theorem mem_accountsNeedingReconcile :
    account ∈ (db.accountsNeedingReconcile now).map Prod.fst ↔
      db.liveOrgs account ≠ [] ∧ ∃ base, db.basePlan account = some base ∧
        db.needsReconcile now account base = true := by
  unfold Db.accountsNeedingReconcile Accounts.basePlan
  rw [List.mem_map]
  constructor
  · rintro ⟨⟨_, org⟩, hmem, rfl⟩
    obtain ⟨a, ha, hsome⟩ := List.mem_filterMap.mp hmem
    obtain ⟨anyOrg, hmin, hsome⟩ := Option.bind_eq_some_iff.mp hsome
    obtain ⟨base, hbase, hsome⟩ := Option.bind_eq_some_iff.mp hsome
    split at hsome
    · next hneeds =>
      obtain ⟨rfl, rfl⟩ := Prod.mk.inj (Option.some.inj hsome)
      refine ⟨?_, base, ?_, hneeds⟩
      · intro hnil
        rw [hnil] at hmin
        cases hmin
      · rw [Rows.get?_eq_some.2 ⟨ha, rfl⟩]
        exact hbase
    · cases hsome
  · rintro ⟨horgs, base, hbase, hneeds⟩
    obtain ⟨a, hget, hplan⟩ := Option.bind_eq_some_iff.mp hbase
    obtain ⟨hmem, rfl⟩ := Rows.get?_eq_some.1 hget
    cases hmin : (db.liveOrgs a.id).min? with
    | none => exact absurd (List.min?_eq_none_iff.mp hmin) horgs
    | some anyOrg =>
      refine ⟨(a.id, anyOrg), List.mem_filterMap.mpr ⟨a, hmem, ?_⟩, rfl⟩
      rw [hmin, Option.bind_some, hplan, Option.bind_some, if_pos hneeds]

/-! ## What the sweep selects -/

theorem lowered_of_object {fields : List (String × Jsonb)} {ov : PlanOverrides} {cap : Cap}
    {x : Nat} {cur : I32} (h : PlanOverrides.fromValue (.object fields) = some ov)
    (hx : ov cap = some x) (hlow : (x : Int) < cur) :
    lowered (.object fields) cap.field cur = true := by
  have hnumber := PlanOverrides.number_of_fields h hx
  unfold lowered
  rw [hnumber]
  show decide ((x : Int) < cur * 10 ^ 0) = true
  rw [Int.pow_zero, Int.mul_one]
  exact decide_eq_true hlow

theorem lowered_or_array (h : db.effectivePlan decodes now account = some plan) {base : Plan}
    (hbase : db.basePlan account = some base) {cap : Cap} {n : Int}
    (hover : (plan.caps cap : Int) < n) (hwithin : n ≤ base.caps cap) :
    (∃ json, db.overrideInForce now account = some json ∧
      lowered json cap.field (base.caps cap) = true) ∨
    ∃ items, db.overrideInForce now account = some (.array items) := by
  obtain ⟨base', hbase', -, hcaps⟩ := caps_of_effectivePlan h
  obtain rfl := Option.some.inj (hbase'.symm.trans hbase)
  obtain ⟨json, ov, x, hjson, hov, hx, hlow, -⟩ := hcaps cap n hover hwithin
  cases json with
  | object fields => exact .inl ⟨_, hjson, lowered_of_object hov hx hlow⟩
  | array items => exact .inr ⟨items, hjson⟩
  | null => cases hov
  | bool b => cases hov
  | number digits scale => cases hov
  | string s => cases hov

theorem needsReconcile_of_over (h : db.effectivePlan decodes now account = some plan)
    (hnot : ¬ db.ShortByPosition now account plan) {base : Plan}
    (hbase : db.basePlan account = some base)
    (hover : overTargets plan (pool (db.liveOrgs account) db.targets) = true ∨
      overFlows plan (pool (db.liveOrgs account) db.targets) = true ∨
      overPages plan (pool (db.liveOrgs account) db.statusPages) = true) :
    db.needsReconcile now account base = true := by
  by_contra hneeds
  have hmissed := mt needsReconcile_iff.2 hneeds
  push Not at hmissed
  obtain ⟨hheld, hheldPages, htargets, hflows, hpages, hlowered⟩ := hmissed
  have hflow : overFlows plan (pool (db.liveOrgs account) db.targets) = false := by
    obtain ⟨base', hbase', hsame, -⟩ := caps_of_effectivePlan h
    obtain rfl := Option.some.inj (hbase'.symm.trans hbase)
    unfold overFlows
    rw [hsame]
    exact Bool.eq_false_iff.mpr hflows
  have harray : ∃ items, db.overrideInForce now account = some (.array items) := by
    rcases hover with hover | hover | hover
    · have hwithin := of_decide_eq_false (Bool.eq_false_iff.mpr htargets)
      rcases lowered_or_array h hbase (of_decide_eq_true hover) (not_lt.mp hwithin) with hlow | harr
      · obtain ⟨json, hjson, hlow⟩ := hlow
        exact absurd hlow (hlowered json hjson).1
      · exact harr
    · rw [hflow] at hover
      cases hover
    · have hwithin := of_decide_eq_false (Bool.eq_false_iff.mpr hpages)
      rcases lowered_or_array h hbase (of_decide_eq_true hover) (not_lt.mp hwithin) with hlow | harr
      · obtain ⟨json, hjson, hlow⟩ := hlow
        exact absurd hlow (hlowered json hjson).2.2
      · exact harr
  refine hnot ⟨harray, Bool.eq_false_iff.mpr hheld, Bool.eq_false_iff.mpr hheldPages, ?_, ?_⟩
  · intro base' hbase'
    obtain rfl := Option.some.inj (hbase'.symm.trans hbase)
    exact ⟨Bool.eq_false_iff.mpr htargets, Bool.eq_false_iff.mpr hflows,
      Bool.eq_false_iff.mpr hpages⟩
  · rcases hover with hover | hover | hover
    · exact .inl hover
    · rw [hflow] at hover
      cases hover
    · exact .inr hover

theorem not_mem_of_shortByPosition (h : db.ShortByPosition now account plan) :
    account ∉ (db.accountsNeedingReconcile now).map Prod.fst := by
  intro hmem
  obtain ⟨-, base, hbase, hneeds⟩ := mem_accountsNeedingReconcile.1 hmem
  obtain ⟨items, harray⟩ := h.array
  obtain ⟨htargets, hflows, hpages⟩ := h.withinBase base hbase
  rw [needsReconcile_iff, h.targetsFree, h.pagesFree, htargets, hflows, hpages] at hneeds
  simp only [Bool.false_eq_true, false_or] at hneeds
  obtain ⟨json, hjson, hlow⟩ := hneeds
  obtain rfl := Option.some.inj (hjson.symm.trans harray)
  rcases hlow with hlow | hlow | hlow <;> cases hlow

theorem planHolds_of_shortByPosition (heff : db.effectivePlan decodes now account = some plan)
    (h : db.ShortByPosition now account plan) {t : Time} {actor : Option UserId} :
    (reconcileAccount t account plan actor db).1.planHolds ≠ db.planHolds := by
  obtain ⟨base, hbase, hsame, hcaps⟩ := caps_of_effectivePlan heff
  obtain ⟨htargets, hflows, hpages⟩ := h.withinBase base hbase
  rw [ne_eq, planHolds_reconcileAccount]
  rintro ⟨hsettled, hsettledPages⟩
  rcases h.short with hover | hover
  · have hflow : overFlows plan (pool (db.liveOrgs account) db.targets) = false := by
      unfold overFlows
      rw [hsame]
      exact hflows
    have hwithin := not_lt.mp (of_decide_eq_false htargets)
    obtain ⟨-, -, -, -, -, -, -, hcap⟩ := hcaps .maxTargets _ (of_decide_eq_true hover) hwithin
    obtain ⟨r, hr, hhold⟩ := exists_holdTarget hflow hover hcap
    exact not_settled_of_hold h.targetsFree hr hhold hsettled
  · have hwithin := not_lt.mp (of_decide_eq_false hpages)
    obtain ⟨-, -, -, -, -, -, -, hcap⟩ := hcaps .maxStatusPages _ (of_decide_eq_true hover) hwithin
    obtain ⟨r, hr, hhold⟩ := exists_holdPage hover hcap
    exact not_settled_of_hold h.pagesFree hr hhold hsettledPages

theorem mem_accountsNeedingReconcile_of_changes
    (h : db.effectivePlan decodes now account = some plan)
    (hnot : ¬ db.ShortByPosition now account plan) (t : Time) (actor : Option UserId)
    (hchanges : (reconcileAccount t account plan actor db).1.planHolds ≠ db.planHolds) :
    account ∈ (db.accountsNeedingReconcile now).map Prod.fst := by
  obtain ⟨base, hbase, -, -⟩ := caps_of_effectivePlan h
  rw [ne_eq, planHolds_reconcileAccount, not_and_or] at hchanges
  rw [mem_accountsNeedingReconcile]
  rcases hchanges with hunsettled | hunsettled
  · obtain ⟨horgs, hheld | hover⟩ := held_or_over_of_not_settled hunsettled
    · exact ⟨horgs, base, hbase, needsReconcile_iff.2 (.inl hheld)⟩
    · have hover : overTargets plan _ = true ∨ overFlows plan _ = true :=
        Bool.or_eq_true_iff.mp hover
      refine ⟨horgs, base, hbase, needsReconcile_of_over h hnot hbase ?_⟩
      rcases hover with hover | hover
      · exact .inl hover
      · exact .inr (.inl hover)
  · obtain ⟨horgs, hheld | hover⟩ := held_or_over_of_not_settled hunsettled
    · exact ⟨horgs, base, hbase, needsReconcile_iff.2 (.inr (.inl hheld))⟩
    · exact ⟨horgs, base, hbase, needsReconcile_of_over h hnot hbase (.inr (.inr hover))⟩

end Account

/-! ## What a sweep leaves -/

section Sweep
variable {decodes : Jsonb → Bool} {now : Time} {account account' : AccountId} {plan plan' : Plan}

def inPool {κ : Type} (orgs : List OrgId) (t : HoldTable κ) : List (Row κ) :=
  t.rows.filter fun r => orgs.contains r.orgId

theorem settled_congr {κ : Type} {rule : HoldRule κ} {orgs : List OrgId} {t t' : HoldTable κ}
    (h : inPool orgs t' = inPool orgs t) : Settled rule orgs t' ↔ Settled rule orgs t := by
  have hpool : pool orgs t' = pool orgs t := congrArg (List.map Row.poolRow) h
  unfold Settled
  rw [hpool]
  constructor
  · intro hsettled r hr horg
    have hmem : r ∈ inPool orgs t := List.mem_filter.mpr ⟨hr, horg⟩
    rw [← h] at hmem
    exact hsettled r (List.mem_filter.mp hmem).1 horg
  · intro hsettled r hr horg
    have hmem : r ∈ inPool orgs t' := List.mem_filter.mpr ⟨hr, horg⟩
    rw [h] at hmem
    exact hsettled r (List.mem_filter.mp hmem).1 horg

theorem inPool_reconcile {κ : Type} {rule : HoldRule κ} {orgs orgs' : List OrgId}
    {t : HoldTable κ} (hapart : ∀ org ∈ orgs, org ∉ orgs') :
    inPool orgs (forgetSpentPick rule orgs' (reconcileTable rule orgs' now t)) =
      inPool orgs t := by
  unfold inPool
  rw [rows_forgetSpentPick, rows_reconcileTable, List.map_map, List.filter_map]
  have hfilter : t.rows.filter ((fun r => orgs.contains r.orgId) ∘
      (forgetRow rule orgs' (reconcileTable rule orgs' now t) ∘ settleRow rule orgs' now t)) =
      t.rows.filter fun r => orgs.contains r.orgId := by
    apply List.filter_congr
    intro r _
    rw [Function.comp_apply, Function.comp_apply, orgId_forgetRow, orgId_settleRow]
  rw [hfilter]
  conv_rhs => rw [← List.map_id (t.rows.filter fun r => orgs.contains r.orgId)]
  apply List.map_congr_left
  intro r hr
  have horg := List.contains_iff_mem.mp (List.mem_filter.mp hr).2
  have hother : orgs'.contains r.orgId = false := by
    rw [Bool.eq_false_iff, ne_eq, List.contains_iff_mem]
    exact hapart _ horg
  have hsettle : settleRow rule orgs' now t r = r := by
    have hmove : move? rule orgs' t r = none := if_neg (by rw [hother]; exact Bool.false_ne_true)
    unfold settleRow
    rw [hmove]
    rfl
  rw [Function.comp_apply, hsettle]
  apply forgetRow_of_not_kept
  rw [hother, Bool.false_and]

/-- The holds of the account are as the plan has them. -/
def Db.SettledFor (db : Db) (account : AccountId) (plan : Plan) : Prop :=
  Settled (targetRule plan) (db.liveOrgs account) db.targets ∧
    Settled (pageRule plan) (db.liveOrgs account) db.statusPages

variable {db : Db} {actor : Option UserId}

theorem liveOrgs_apart (h : account ≠ account') :
    ∀ org ∈ db.liveOrgs account, org ∉ db.liveOrgs account' := by
  intro org horg horg'
  obtain ⟨o, ho, rfl⟩ := List.mem_map.mp horg
  obtain ⟨o', ho', hid⟩ := List.mem_map.mp horg'
  obtain ⟨ho, hlive⟩ := List.mem_filter.mp ho
  obtain ⟨ho', hlive'⟩ := List.mem_filter.mp ho'
  obtain rfl := Rows.eq_of_key ho' ho hid
  have haccount := beq_iff_eq.mp (Bool.and_eq_true_iff.mp hlive).1
  have haccount' := beq_iff_eq.mp (Bool.and_eq_true_iff.mp hlive').1
  exact h (haccount.symm.trans haccount')

theorem settledFor_reconcileAccount :
    (reconcileAccount now account plan actor db).1.SettledFor account plan :=
  ⟨reconcileTable_settled.forgetSpentPick, reconcileTable_settled.forgetSpentPick⟩

theorem Db.SettledFor.reconcile_other (h : db.SettledFor account plan) (hne : account ≠ account') :
    (reconcileAccount now account' plan' actor db).1.SettledFor account plan :=
  ⟨(settled_congr (inPool_reconcile (liveOrgs_apart hne))).mpr h.1,
    (settled_congr (inPool_reconcile (liveOrgs_apart hne))).mpr h.2⟩

theorem org_of_entry {entry : AccountId × OrgId}
    (hentry : entry ∈ db.accountsNeedingReconcile now) : entry.2 ∈ db.liveOrgs entry.1 := by
  obtain ⟨a, -, hsome⟩ := List.mem_filterMap.mp hentry
  obtain ⟨anyOrg, hmin, hsome⟩ := Option.bind_eq_some_iff.mp hsome
  obtain ⟨p, -, hsome⟩ := Option.bind_eq_some_iff.mp hsome
  split at hsome
  · obtain rfl := Option.some.inj hsome
    exact List.min?_mem hmin
  · cases hsome

variable {limitForOrg : OrgId → Option Plan}

theorem Db.SettledFor.sweepAccount {s : Db × Nat} {entry : AccountId × OrgId}
    (h : s.1.SettledFor account plan)
    (hlimit : entry.1 = account → limitForOrg entry.2 = some plan) :
    (Db.sweepAccount now limitForOrg s entry).1.SettledFor account plan := by
  unfold Db.sweepAccount
  by_cases hsame : entry.1 = account
  · rw [hlimit hsame, hsame]
    exact settledFor_reconcileAccount
  · split
    · exact h
    · exact h.reconcile_other (Ne.symm hsame)

theorem settledFor_foldl (entries : List (AccountId × OrgId)) (s : Db × Nat)
    (hlimit : ∀ entry ∈ entries, entry.1 = account → limitForOrg entry.2 = some plan)
    (h : s.1.SettledFor account plan ∨ account ∈ entries.map Prod.fst) :
    (entries.foldl (Db.sweepAccount now limitForOrg) s).1.SettledFor account plan := by
  induction entries generalizing s with
  | nil =>
    rcases h with h | h
    · exact h
    · cases h
  | cons entry entries ih =>
    have hhead := hlimit entry List.mem_cons_self
    apply ih
    · exact fun e he => hlimit e (List.mem_cons_of_mem _ he)
    · rcases h with h | h
      · exact .inl (h.sweepAccount hhead)
      · rcases List.mem_cons.mp h with heq | htail
        · left
          unfold Db.sweepAccount
          rw [hhead heq.symm, heq]
          exact settledFor_reconcileAccount
        · exact .inr htail

/-- After a sweep the holds of every account of which the cache has no other plan are as its
effective plan has them, but of those that are short by position. -/
theorem sweep_settles (h : db.effectivePlan decodes now account = some plan)
    (hlimit : ∀ org ∈ db.liveOrgs account, limitForOrg org = some plan)
    (hnot : ¬ db.ShortByPosition now account plan) :
    (db.sweep now limitForOrg).1.SettledFor account plan := by
  apply settledFor_foldl
  · intro entry hentry heq
    subst heq
    exact hlimit entry.2 (org_of_entry hentry)
  · by_cases hsettled : db.SettledFor account plan
    · exact .inl hsettled
    · right
      apply mem_accountsNeedingReconcile_of_changes h hnot now none
      intro hsame
      exact hsettled (planHolds_reconcileAccount.1 hsame)

end Sweep

/-! ## When the sweep is complete -/

/-- A reconcile changes nothing the second time, and where it would change a hold the sweep selects
the account, unless the account is short by an override that is read by position. -/
theorem sweep_complete_iff (db : Db) (decodes : Jsonb → Bool) (now : Time) (account : AccountId)
    (plan : Plan) (h : db.effectivePlan decodes now account = some plan) :
    ((∀ t t' actor actor',
        reconcileAccount t' account plan actor' (reconcileAccount t account plan actor db).1 =
          ((reconcileAccount t account plan actor db).1, ⟨0, 0⟩)) ∧
      ∀ t actor, (reconcileAccount t account plan actor db).1.planHolds ≠ db.planHolds →
        account ∈ (db.accountsNeedingReconcile now).map Prod.fst) ↔
      ¬ db.ShortByPosition now account plan := by
  constructor
  · rintro ⟨-, hcomplete⟩ hshort
    exact not_mem_of_shortByPosition hshort
      (hcomplete now none (planHolds_of_shortByPosition h hshort))
  · intro hnot
    refine ⟨?_, ?_⟩
    · intro t t' actor actor'
      exact reconcileAccount_idem t t' account plan actor actor' db
    · intro t actor hchanges
      exact mem_accountsNeedingReconcile_of_changes h hnot t actor hchanges

namespace Positional

def cap (n : Nat) : I32 := (I32.tryFrom n).getD I32.max

def free : Plan := ⟨"free", fun _ => cap 20, cap 0⟩

/-- `max_targets` is the first field. -/
def override : Jsonb := .array (.number 1 0 :: List.replicate 16 .null)

def target (id : Uuid) (createdAt : Time) : TargetRow :=
  ⟨id, 3, "db", some "tcp", true, createdAt, none, false, createdAt⟩

def db : Db where
  plans := ⟨[free], by simp⟩
  accounts := ⟨[⟨7, "free"⟩], by simp⟩
  organizations := ⟨[⟨3, 7, none⟩], by simp⟩
  planOverrides := ⟨[⟨7, override, none⟩], by simp⟩
  accountAddons := ⟨[], by simp⟩
  targets := ⟨[target 1 10, target 2 20], by simp [target]⟩
  statusPages := ⟨[], by simp⟩
  orgAuditLog := []

/-- Of one target. -/
def plan : Plan := (db.effectivePlan (fun _ => true) 0 7).getD free

theorem effectivePlan_db : db.effectivePlan (fun _ => true) 0 7 = some plan := rfl

/-- Without the override. -/
def plain : Db := { db with planOverrides := ⟨[], by simp⟩ }

theorem sweep_settles_plain :
    (plain.sweep 0 fun org => (plain.resolve (fun _ => true) 0 org).map Prod.snd).1.SettledFor 7
      ((plain.effectivePlan (fun _ => true) 0 7).getD free) := by
  have h : plain.effectivePlan (fun _ => true) 0 7 =
      some ((plain.effectivePlan (fun _ => true) 0 7).getD free) := rfl
  refine sweep_settles h (fun org horg => ?_) ?_
  · rw [List.mem_singleton.mp horg]
    rfl
  · rintro ⟨⟨items, harray⟩, -⟩
    cases harray

end Positional

theorem sweep_complete_iff_positional :
    ((∀ t t' actor actor',
        reconcileAccount t' 7 Positional.plan actor'
            (reconcileAccount t 7 Positional.plan actor Positional.db).1 =
          ((reconcileAccount t 7 Positional.plan actor Positional.db).1, ⟨0, 0⟩)) ∧
      ∀ t actor, (reconcileAccount t 7 Positional.plan actor Positional.db).1.planHolds ≠
          Positional.db.planHolds →
        7 ∈ (Positional.db.accountsNeedingReconcile 0).map Prod.fst) ↔
      ¬ Positional.db.ShortByPosition 0 7 Positional.plan :=
  sweep_complete_iff Positional.db (fun _ => true) 0 7 Positional.plan Positional.effectivePlan_db

/-- Two targets under a plan of twenty, and an override to one that is an array: a reconcile holds
the second target, and the sweep does not select the account. -/
theorem sweep_misses_array :
    Positional.db.effectivePlan (fun _ => true) 0 7 = some Positional.plan ∧
      (reconcileAccount 5 7 Positional.plan none Positional.db).1.planHolds =
        ([(1, none), (2, some 5)], []) ∧
      Positional.db.planHolds = ([(1, none), (2, none)], []) ∧
      Positional.db.accountsNeedingReconcile 0 = [] :=
  ⟨Positional.effectivePlan_db, by decide +kernel, by decide +kernel, by decide +kernel⟩

end Uptimepage.Holds
